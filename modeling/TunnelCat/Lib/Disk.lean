import Mathlib.Logic.Function.Basic
import TunnelCat.Lib.Bytes

/-!
# A disk that several programs write to

A file is an *inode*, and a name is bound to one or to none.  The difference matters as soon as two
programs are at work: a program that has opened a file goes on writing to the inode, whatever
happens to the name, and opening a name with `O_TRUNC` empties the inode that others may be
writing to.

`Disk.apply` is the effect of one successful system call.  What a call can change is stated once, in
terms of the names and of the inodes it touches (`Op.names`, `Op.inodes`), and everything else
follows from two rules: a call that touches neither a name nor the inode it is bound to leaves what
is under the name alone (`read_apply`), and one that does not touch an inode leaves the inode alone
(`data_apply`).  Which of the two a program needs depends on whether it has closed its file yet.

For files that are only appended to, `Disk.content` is what is in an inode, made or not: opening and
removing leave it as it is, whatever the inode, and a write at the end appends to it.

Directories are not modelled.  Whether a call succeeds is up to whoever uses the model.
-/

set_option autoImplicit false

open Function

universe u

/-- A disk. -/
structure Disk (ν : Type u) where
  /-- The inode each name is bound to. -/
  names : ν → Option ℕ
  /-- What is in each inode. -/
  data : ℕ → Bytes
  /-- The number of inodes made so far. -/
  next : ℕ
  /-- Names are bound to inodes that have been made. -/
  fresh : ∀ n i, names n = some i → i < next

namespace Disk

variable {ν : Type u}

/-- A system call that changes the disk. -/
inductive Op (ν : Type u) where
  /-- `open` with `O_CREATE` and `O_TRUNC`. -/
  | openTrunc (n : ν)
  /-- `write` to an open file at an offset. -/
  | write (i off : ℕ) (bs : Bytes)
  /-- `rename`. -/
  | rename (a b : ν)
  /-- `unlink`. -/
  | remove (n : ν)
deriving DecidableEq

/-- The names a call binds or unbinds. -/
def Op.names : Op ν → List ν
  | .openTrunc n | .remove n => [n]
  | .rename a b => [a, b]
  | .write _ _ _ => []

/-- The names a call binds. -/
def Op.makes : Op ν → List ν
  | .openTrunc n => [n]
  | .rename _ b => [b]
  | .write _ _ _ | .remove _ => []

/-- The names a call unbinds. -/
def Op.unbinds : Op ν → List ν
  | .remove n => [n]
  | .rename a _ => [a]
  | .openTrunc _ | .write _ _ _ => []

/-- The existing inodes a call writes to. -/
def Op.inodes (d : Disk ν) : Op ν → List ℕ
  | .openTrunc n => (d.names n).toList
  | .write i _ _ => [i]
  | .rename _ _ | .remove _ => []

/-- A call spares what is under a name: it touches neither the name nor the inode. -/
def Op.Spares (d : Disk ν) (op : Op ν) (n : ν) : Prop :=
  n ∉ op.names ∧ ∀ i ∈ (d.names n).toList, i ∉ op.inodes d

/-- The content of a file after a write. -/
def overwrite (old : Bytes) (off : ℕ) (bs : Bytes) : Bytes :=
  old.take off ++ List.replicate (off - old.length) 0 ++ bs ++ old.drop (off + bs.length)

/-- The empty disk. -/
def empty : Disk ν := ⟨fun _ ↦ none, fun _ ↦ [], 0, fun _ _ h ↦ absurd h (by simp)⟩

/-- What is under a name. -/
def read (d : Disk ν) (n : ν) : Option Bytes := (d.names n).map d.data

/-- The inode that opening a name gives. -/
def fd (d : Disk ν) (n : ν) : ℕ := (d.names n).getD d.next

/-- The number of inodes after a call. -/
def nextAfter (d : Disk ν) : Op ν → ℕ
  | .openTrunc n => max d.next (d.fd n + 1)
  | _ => d.next

theorem next_le_nextAfter (d : Disk ν) (op : Op ν) : d.next ≤ d.nextAfter op := by
  cases op with
  | openTrunc n => exact le_max_left _ _
  | write | rename | remove => exact le_rfl

variable [DecidableEq ν]

instance (d : Disk ν) (op : Op ν) (n : ν) : Decidable (op.Spares d n) :=
  inferInstanceAs (Decidable (_ ∧ _))

/-- The names after a call. -/
def namesAfter (d : Disk ν) : Op ν → ν → Option ℕ
  | .openTrunc n => update d.names n (some (d.fd n))
  | .write _ _ _ => d.names
  | .rename a b =>
    match d.names a with
    | none => d.names
    | some i => update (update d.names a none) b (some i)
  | .remove n => update d.names n none

/-- A call binds a name to nothing, to what it was bound to, to what another was bound to, or to
what it has opened. -/
theorem namesAfter_lt (d : Disk ν) (op : Op ν) (n : ν) (i : ℕ) (h : d.namesAfter op n = some i) :
    i < d.nextAfter op := by
  have hold : ∀ {m j}, d.names m = some j → j < d.nextAfter op :=
    fun hm ↦ (d.fresh _ _ hm).trans_le (next_le_nextAfter d op)
  cases op with
  | openTrunc m =>
    rcases eq_or_ne n m with rfl | hne
    · rw [namesAfter, update_self, Option.some_inj] at h
      exact h ▸ lt_of_lt_of_le (Nat.lt_succ_self _) (le_max_right _ _)
    · rw [namesAfter, update_of_ne hne] at h
      exact hold h
  | write j off bs => exact hold h
  | rename a b =>
    rcases ha : d.names a with _ | j <;> simp only [namesAfter, ha] at h
    · exact hold h
    · rcases eq_or_ne n b with rfl | hb
      · rw [update_self] at h
        exact hold (ha.trans h)
      · rw [update_of_ne hb] at h
        rcases eq_or_ne n a with rfl | hna
        · exact absurd h (by simp)
        · rw [update_of_ne hna] at h
          exact hold h
  | remove m =>
    rcases eq_or_ne n m with rfl | hne
    · exact absurd h (by simp [namesAfter])
    · rw [namesAfter, update_of_ne hne] at h
      exact hold h

/-- The effect of a call that succeeds.  Renaming a name that is not bound does not. -/
def apply (d : Disk ν) (op : Op ν) : Disk ν where
  names := d.namesAfter op
  data :=
    match op with
    | .openTrunc n => update d.data (d.fd n) []
    | .write i off bs => update d.data i (overwrite (d.data i) off bs)
    | .rename _ _ | .remove _ => d.data
  next := d.nextAfter op
  fresh := d.namesAfter_lt op

variable {d : Disk ν} {op : Op ν} {n : ν} {i : ℕ}

/-! ## What a call leaves alone -/

theorem next_le_apply (d : Disk ν) (op : Op ν) : d.next ≤ (d.apply op).next :=
  next_le_nextAfter d op

theorem names_apply (h : n ∉ op.names) : (d.apply op).names n = d.names n := by
  show d.namesAfter op n = d.names n
  cases op with
  | openTrunc m => exact update_of_ne (by simpa [Op.names] using h) ..
  | write i off bs => rfl
  | rename a b =>
    obtain ⟨ha, hb⟩ : n ≠ a ∧ n ≠ b := by simpa [Op.names] using h
    rcases hi : d.names a with _ | i <;> simp only [namesAfter, hi]
    rw [update_of_ne hb, update_of_ne ha]
  | remove m => exact update_of_ne (by simpa [Op.names] using h) ..

/-- What is there after a call was there before or was made by it. -/
theorem bound_of_apply (h : (d.apply op).names n ≠ none) : d.names n ≠ none ∨ n ∈ op.makes := by
  by_cases hn : n ∈ op.names
  · cases op with
    | openTrunc m | write i off bs => exact Or.inr hn
    | rename a b =>
      rcases List.mem_cons.mp hn with rfl | hn
      · refine Or.inl fun hnone ↦ h ?_
        simp [apply, namesAfter, hnone]
      · exact Or.inr hn
    | remove m =>
      rw [List.mem_singleton.mp hn] at h
      exact absurd (update_self ..) h
  · rw [names_apply hn] at h
    exact Or.inl h

/-- What is there stays there unless a call takes it away. -/
theorem bound_apply (h : d.names n ≠ none) (hop : n ∉ op.unbinds) :
    (d.apply op).names n ≠ none := by
  by_cases hn : n ∈ op.names
  · cases op with
    | openTrunc m =>
      rw [List.mem_singleton.mp hn]
      show update d.names m _ m ≠ none
      simp
    | write i off bs => exact absurd hn List.not_mem_nil
    | rename a b =>
      have hb : n = b := List.mem_singleton.mp ((List.mem_cons.mp hn).resolve_left fun ha ↦
        hop (List.mem_singleton.mpr ha))
      rcases ha : d.names a with _ | i
      · simpa [apply, namesAfter, ha] using h
      · simp [apply, namesAfter, ha, hb]
    | remove m => exact absurd hn hop
  · rw [names_apply hn]
    exact h

/-- An inode that is not touched stays as it is. -/
theorem data_apply (hi : i < d.next) (h : i ∉ op.inodes d) : (d.apply op).data i = d.data i := by
  cases op with
  | openTrunc m =>
    refine update_of_ne ?_ ..
    rintro rfl
    rcases hm : d.names m with _ | j
    · rw [fd, hm, Option.getD_none] at hi
      omega
    · exact h (by simp [Op.inodes, fd, hm])
  | write j off bs => exact update_of_ne (by simpa [Op.inodes] using h) ..
  | rename | remove => rfl

/-- **What is under a name that a call spares stays there.** -/
theorem read_apply (h : op.Spares d n) : (d.apply op).read n = d.read n := by
  rw [read, read, names_apply h.1]
  rcases hn : d.names n with _ | i
  · rfl
  · rw [Option.map_some, Option.map_some, data_apply (d.fresh n i hn) (h.2 i (by simp [hn]))]

/-! ## What a call does -/

theorem data_openTrunc (d : Disk ν) (n : ν) : (d.apply (.openTrunc n)).data (d.fd n) = [] :=
  update_self ..

theorem fd_lt_next (d : Disk ν) (n : ν) : d.fd n < (d.apply (.openTrunc n)).next :=
  lt_of_lt_of_le (Nat.lt_succ_self _) (le_max_right _ _)

/-- A write at the end appends. -/
theorem data_write_end (d : Disk ν) (i : ℕ) (bs : Bytes) :
    (d.apply (.write i (d.data i).length bs)).data i = d.data i ++ bs := by
  simp [apply, overwrite]

theorem names_remove (d : Disk ν) (n : ν) : (d.apply (.remove n)).names n = none :=
  update_self ..

theorem bound_rename {a b : ν} (h : d.names a ≠ none) : (d.apply (.rename a b)).names b ≠ none := by
  obtain ⟨i, hi⟩ := Option.ne_none_iff_exists'.mp h
  simp [apply, namesAfter, hi]

theorem read_remove (d : Disk ν) (m n : ν) :
    (d.apply (.remove m)).read n = if n = m then none else d.read n := by
  rw [read, read]
  show (update d.names m none n).map d.data = _
  rw [update_apply]
  split <;> rfl

/-- A rename leaves a name other than the new one alone or unbinds it. -/
theorem read_rename_of_ne {a b : ν} (h : n ≠ b) :
    (d.apply (.rename a b)).read n = d.read n ∨ (d.apply (.rename a b)).read n = none := by
  rcases eq_or_ne n a with rfl | hne
  · rcases hn : d.names n with _ | i
    · exact Or.inl (by simp [read, apply, namesAfter, hn])
    · exact Or.inr (by simp [read, apply, namesAfter, hn, update_of_ne h])
  · exact Or.inl (read_apply ⟨by simp [Op.names, h, hne], by simp [Op.inodes]⟩)

theorem read_rename_of_none {a b : ν} (h : d.names a = none) :
    (d.apply (.rename a b)).read n = d.read n := by
  simp [read, apply, namesAfter, h]

theorem read_rename {a b : ν} (h : d.names a = some i) :
    (d.apply (.rename a b)).read b = some (d.data i) := by
  simp [read, apply, namesAfter, h]

/-! ## Files that are appended to -/

/-- What is in an inode; nothing if it has not been made. -/
def content (d : Disk ν) (i : ℕ) : Bytes := if i < d.next then d.data i else []

/-- The disk after `open` with `O_CREATE` and `O_APPEND`. -/
def openAppend (d : Disk ν) (n : ν) : Disk ν :=
  if (d.names n).isSome then d else d.apply (.openTrunc n)

/-- The file that `openAppend` opens is there. -/
theorem fd_lt_next_openAppend (d : Disk ν) (n : ν) : d.fd n < (d.openAppend n).next := by
  rw [openAppend]
  split
  · rename_i h
    obtain ⟨i, hi⟩ := Option.isSome_iff_exists.mp h
    rw [fd, hi]
    exact d.fresh n i hi
  · exact fd_lt_next d n

/-- Opening a file to append to it leaves everything as it is, and a new file is empty. -/
theorem content_openAppend (d : Disk ν) (n : ν) (i : ℕ) :
    (d.openAppend n).content i = d.content i := by
  rw [openAppend]
  split
  · rfl
  · rename_i h
    have hnone : d.names n = none := Option.not_isSome_iff_eq_none.mp h
    have hfd : d.fd n = d.next := by rw [fd, hnone, Option.getD_none]
    have hnext : (d.apply (.openTrunc n)).next = d.next + 1 := by
      show max d.next (d.fd n + 1) = d.next + 1
      omega
    rw [content, content, hnext]
    rcases Nat.lt_trichotomy i d.next with hlt | rfl | hgt
    · rw [if_pos (by omega), if_pos hlt]
      exact data_apply hlt (by simp [Op.inodes, hnone])
    · rw [if_pos (by omega), if_neg (by omega), ← hfd, data_openTrunc]
    · rw [if_neg (by omega), if_neg (by omega)]

/-- A write at the end of a file appends to this file, and to no other. -/
theorem content_write_end (d : Disk ν) (hi : i < d.next) (bs : Bytes) (j : ℕ) :
    (d.apply (.write i (d.data i).length bs)).content j =
      d.content j ++ if i = j then bs else [] := by
  have hnext : (d.apply (.write i (d.data i).length bs)).next = d.next := rfl
  rw [content, content, hnext]
  split
  · rename_i hj
    split
    · rename_i hij
      rw [← hij, data_write_end]
    · rename_i hij
      rw [data_apply hj (by simpa [Op.inodes] using Ne.symm hij), List.append_nil]
  · rename_i hj
    rw [if_neg (by omega), List.append_nil]

end Disk
