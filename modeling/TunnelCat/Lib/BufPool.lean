import Mathlib.Data.List.Perm.Basic
import Mathlib.Logic.Function.Basic
import TunnelCat.Lib.Bytes

/-!
# A pool of buffers

A process-wide pool hands out buffers and takes them back; whoever has one may write to it.  Nothing
stops a user from giving a buffer back and going on to use it — that is what has to be proved.

`BufPool` has the contents of all buffers, the ones that are free and the ones that are lent to
*others*.  What a program under study holds is not recorded here: it is what the program's own
variables mention, and `Owns p held` says that these are buffers nobody else has.  Each operation of
the program keeps that if the program counts its buffers correctly (`Owns.get`, `Owns.put`), and as
long as it does, nothing the others do changes what is in them (`Owns.other`).
-/

set_option autoImplicit false

/-- A pool of buffers. -/
structure BufPool where
  /-- The content of each buffer. -/
  heap : ℕ → Bytes
  /-- The buffers that wait to be handed out. -/
  free : List ℕ
  /-- The buffers that others have. -/
  lent : List ℕ
  /-- The number of buffers made so far. -/
  next : ℕ

namespace BufPool

/-- The empty pool. -/
def empty : BufPool := ⟨fun _ ↦ [], [], [], 0⟩

/-- Take a buffer out: one of the free ones, or a new one. -/
def get (p : BufPool) : Option ℕ → Option (ℕ × BufPool)
  | none => some (p.next, { p with next := p.next + 1 })
  | some i => p.free[i]?.map fun id ↦ (id, { p with free := p.free.eraseIdx i })

/-- Give a buffer back. -/
def put (p : BufPool) (id : ℕ) : BufPool := { p with free := id :: p.free }

/-- Write to the beginning of a buffer. -/
def write (p : BufPool) (id : ℕ) (bs : Bytes) : BufPool :=
  { p with heap := Function.update p.heap id (bs ++ (p.heap id).drop bs.length) }

/-- The first `n` bytes of a buffer. -/
def read (p : BufPool) (id n : ℕ) : Bytes := (p.heap id).take n

/-- What others do. -/
inductive Other where
  /-- Take a free buffer. -/
  | take (i : ℕ)
  /-- Make a new one. -/
  | make
  /-- Write to one they have. -/
  | write (id : ℕ) (bs : Bytes)
  /-- Give one back. -/
  | give (id : ℕ)

/-- A step of the others. -/
def other (p : BufPool) : Other → Option BufPool
  | .take i => p.free[i]?.map fun id ↦ { p with free := p.free.eraseIdx i, lent := id :: p.lent }
  | .make => some { p with lent := p.next :: p.lent, next := p.next + 1 }
  | .write id bs => if id ∈ p.lent then some (p.write id bs) else none
  | .give id =>
    if id ∈ p.lent then some { p with lent := p.lent.erase id, free := id :: p.free } else none

/-- The buffers in `held` are different, and nobody else has any of them. -/
structure Owns (p : BufPool) (held : List ℕ) : Prop where
  /-- No buffer is in two places. -/
  nodup : (held ++ (p.free ++ p.lent)).Nodup
  /-- All of them have been made. -/
  lt_next : ∀ id ∈ held ++ (p.free ++ p.lent), id < p.next

variable {p q : BufPool} {held held' : List ℕ} {id : ℕ}

@[simp] theorem read_write_self (p : BufPool) (id : ℕ) (bs : Bytes) :
    (p.write id bs).read id bs.length = bs := by
  simp [read, write]

theorem owns_empty : Owns empty [] := ⟨List.nodup_nil, by simp [empty]⟩

/-- The same buffers, distributed differently. -/
theorem Owns.rearrange (h : p.Owns held) (hn : p.next ≤ q.next)
    (hperm : (held' ++ (q.free ++ q.lent)).Perm (held ++ (p.free ++ p.lent))) : q.Owns held' :=
  ⟨hperm.nodup_iff.mpr h.nodup, fun id hid ↦ (h.lt_next id (hperm.mem_iff.mp hid)).trans_le hn⟩

/-- The same buffers and a new one. -/
theorem Owns.extend (h : p.Owns held) (hn : q.next = p.next + 1)
    (hperm : (held' ++ (q.free ++ q.lent)).Perm (p.next :: (held ++ (p.free ++ p.lent)))) :
    q.Owns held' := by
  refine ⟨hperm.nodup_iff.mpr (List.nodup_cons.mpr ⟨fun hmem ↦ ?_, h.nodup⟩), fun id hid ↦ ?_⟩
  · exact absurd (h.lt_next _ hmem) (lt_irrefl _)
  · rw [hn]
    rcases List.mem_cons.mp (hperm.mem_iff.mp hid) with rfl | hid
    · exact Nat.lt_succ_self _
    · exact (h.lt_next id hid).trans (Nat.lt_succ_self _)

theorem Owns.perm (h : p.Owns held) (hperm : held'.Perm held) : p.Owns held' :=
  h.rearrange le_rfl (hperm.append_right _)

theorem perm_eraseIdx {l : List ℕ} {i : ℕ} (h : l[i]? = some id) : (id :: l.eraseIdx i).Perm l := by
  obtain ⟨hi, rfl⟩ := List.getElem?_eq_some_iff.mp h
  exact List.getElem_cons_eraseIdx_perm hi

theorem Owns.get (h : p.Owns held) {i : Option ℕ} (hget : p.get i = some (id, q)) :
    q.Owns (id :: held) ∧ q.heap = p.heap := by
  cases i with
  | none =>
    rw [BufPool.get, Option.some_inj, Prod.mk.injEq] at hget
    obtain ⟨rfl, rfl⟩ := hget
    exact ⟨h.extend rfl (List.Perm.refl _), rfl⟩
  | some i =>
    rw [BufPool.get, Option.map_eq_some_iff] at hget
    obtain ⟨id', hid, he⟩ := hget
    rw [Prod.mk.injEq] at he
    obtain ⟨rfl, rfl⟩ := he
    refine ⟨h.rearrange le_rfl ?_, rfl⟩
    refine List.perm_middle.symm.trans (List.Perm.append_left held ?_)
    exact (perm_eraseIdx hid).append_right _

theorem Owns.put (h : p.Owns (id :: held)) : (p.put id).Owns held :=
  h.rearrange le_rfl List.perm_middle

theorem Owns.write (h : p.Owns held) (id : ℕ) (bs : Bytes) : (p.write id bs).Owns held :=
  ⟨h.nodup, h.lt_next⟩

/-- **What others do does not show** in the buffers we own. -/
theorem Owns.other (h : p.Owns held) {e : Other} (he : p.other e = some q) :
    q.Owns held ∧ ∀ id ∈ held, q.heap id = p.heap id := by
  cases e with
  | take i =>
    rw [BufPool.other, Option.map_eq_some_iff] at he
    obtain ⟨id, hid, rfl⟩ := he
    refine ⟨h.rearrange le_rfl (List.Perm.append_left held ?_), fun _ _ ↦ rfl⟩
    exact List.perm_middle.trans ((perm_eraseIdx hid).append_right _)
  | make =>
    rw [BufPool.other, Option.some_inj] at he
    subst he
    refine ⟨h.extend rfl ?_, fun _ _ ↦ rfl⟩
    exact (List.Perm.append_left held List.perm_middle).trans List.perm_middle
  | write id bs =>
    rw [BufPool.other] at he
    split at he
    · rename_i hlent
      rw [Option.some_inj] at he
      subst he
      refine ⟨h.write id bs, fun id' hid' ↦ Function.update_of_ne ?_ ..⟩
      rintro rfl
      exact (List.nodup_append.mp h.nodup).2.2 id' hid' id' (by simp [hlent]) rfl
    · exact absurd he (by simp)
  | give id =>
    rw [BufPool.other] at he
    split at he
    · rename_i hlent
      rw [Option.some_inj] at he
      subst he
      refine ⟨h.rearrange le_rfl (List.Perm.append_left held ?_), fun _ _ ↦ rfl⟩
      exact List.perm_middle.symm.trans
        (List.Perm.append_left _ (List.perm_cons_erase hlent).symm)
    · exact absurd he (by simp)

end BufPool
