import Mathlib.Data.List.Basic
import Mathlib.Logic.Function.Basic

/-!
# Calls that wait for an answer

A client that has several requests under way at once gives each of them a number and keeps a table
from numbers to the calls that wait.  A call draws a number that is not in the table, enters itself,
and takes its entry out when it is done.  Numbers may be drawn again later.

The calls are kept in a list, in the order in which they were made, and the table leads to a
position in it.  `Pending.Sound` is what the table is for: it has one entry for each call that is
still in progress, under the number of that call, and no other.  There is one lemma for each of the
three things that can happen: a call is made (`Sound.register`), it goes on (`Sound.update`), and it
is done (`Sound.retire`).
-/

set_option autoImplicit false

namespace Pending

variable {ι κ : Type*}

/-- The calls, after another one is made. -/
theorem getElem?_concat_eq_some {calls : List κ} {new c : κ} {j : ℕ} :
    (calls ++ [new])[j]? = some c ↔ calls[j]? = some c ∨ j = calls.length ∧ c = new := by
  rcases Nat.lt_trichotomy j calls.length with hj | rfl | hj
  · rw [List.getElem?_append_left hj]
    simp [Nat.ne_of_lt hj]
  · simp [eq_comm]
  · rw [List.getElem?_eq_none (by simp; omega), List.getElem?_eq_none (Nat.le_of_lt hj)]
    simp [Nat.ne_of_gt hj]

variable {i : ℕ} {c c' : κ}

/-- The calls, after one of them went on. -/
theorem getElem?_set_eq_some {calls : List κ} (hc : calls[i]? = some c) {j : ℕ} {d : κ} :
    (calls.set i c')[j]? = some d ↔ j = i ∧ d = c' ∨ j ≠ i ∧ calls[j]? = some d := by
  have hi : i < calls.length := (List.getElem?_eq_some_iff.mp hc).1
  by_cases hj : j = i
  · subst hj
    rw [List.getElem?_set_self hi]
    simp [eq_comm]
  · rw [List.getElem?_set_ne (Ne.symm hj)]
    simp [hj]

/-- A call is the one that went on, or it is still there. -/
theorem eq_or_mem_set {calls : List κ} {c c' d : κ} (hc : calls[i]? = some c) (hd : d ∈ calls) :
    d = c ∨ d ∈ calls.set i c' := by
  obtain ⟨j, hj⟩ := List.mem_iff_getElem?.mp hd
  by_cases hji : j = i
  · exact .inl (Option.some_inj.mp (hj.symm.trans (hji ▸ hc)))
  · exact .inr (List.mem_of_getElem? ((getElem?_set_eq_some hc).mpr (.inr ⟨hji, hj⟩)))

/-- The call that went on is there as it is now. -/
theorem mem_set_self {calls : List κ} (hc : calls[i]? = some c) :
    c' ∈ calls.set i c' :=
  List.mem_set (List.getElem?_eq_some_iff.mp hc).1 c'

/-- How many calls have a property, after one of them went on. -/
theorem countP_set_add {calls : List κ} {c : κ} (hc : calls[i]? = some c) (c' : κ) (p : κ → Bool) :
    (calls.set i c').countP p + (if p c = true then 1 else 0) =
      calls.countP p + if p c' = true then 1 else 0 := by
  obtain ⟨hi, hget⟩ := List.getElem?_eq_some_iff.mp hc
  rw [List.countP_set hi, hget]
  by_cases hp : p c = true
  · have hpos : 0 < calls.countP p := List.countP_pos_iff.mpr ⟨c, List.mem_of_getElem? hc, hp⟩
    simp only [if_pos hp]
    omega
  · simp only [if_neg hp]
    omega

variable (key : κ → ι) (live : κ → Bool)

/-- There is one entry for each call in progress, under its number, and no other. -/
def Sound (table : ι → Option ℕ) (calls : List κ) : Prop :=
  ∀ id i, table id = some i ↔ ∃ c, calls[i]? = some c ∧ key c = id ∧ live c = true

variable {key live} {table : ι → Option ℕ} {calls : List κ}

theorem sound_nil : Sound key live (fun _ ↦ none) [] := by
  intro id i
  simp

/-- **Two calls in progress do not have the same number.** -/
theorem Sound.eq_of_live (h : Sound key live table calls) {i j : ℕ} {c d : κ}
    (hc : calls[i]? = some c) (hd : calls[j]? = some d) (hlive : live c = true)
    (hlive' : live d = true) (hkey : key c = key d) : i = j := by
  have hi := (h (key d) i).mpr ⟨c, hc, hkey, hlive⟩
  have hj := (h (key d) j).mpr ⟨d, hd, rfl, hlive'⟩
  exact Option.some_inj.mp (hi.symm.trans hj)

/-- A call goes on. -/
theorem Sound.update (h : Sound key live table calls) (hc : calls[i]? = some c)
    (hkey : key c' = key c) (hlive : live c' = live c) : Sound key live table (calls.set i c') := by
  intro id j
  rw [h id j]
  simp only [getElem?_set_eq_some hc]
  by_cases hj : j = i
  · subst hj
    simp [hc, hkey, hlive]
  · simp [hj]

variable [DecidableEq ι]

/-- A call is made, with a number that has no entry. -/
theorem Sound.register (h : Sound key live table calls) {c : κ} (hfree : table (key c) = none)
    (hlive : live c = true) :
    Sound key live (Function.update table (key c) (some calls.length)) (calls ++ [c]) := by
  intro id j
  simp only [getElem?_concat_eq_some, or_and_right, exists_or, ← h id j]
  by_cases hdraw : id = key c
  · subst hdraw
    simp [hfree, hlive, eq_comm]
  · rw [Function.update_of_ne hdraw]
    simp [Ne.symm hdraw]

/-- A call is done, and takes its entry out. -/
theorem Sound.retire (h : Sound key live table calls) (hc : calls[i]? = some c)
    (hlive : live c = true) (hdone : live c' = false) :
    Sound key live (Function.update table (key c) none) (calls.set i c') := by
  intro id j
  simp only [getElem?_set_eq_some hc, or_and_right, exists_or]
  by_cases hdraw : id = key c
  · -- the entry that is taken out was the one of this call
    subst hdraw
    rw [Function.update_self]
    refine ⟨fun hnone ↦ (nomatch hnone), ?_⟩
    rintro (⟨d, ⟨-, rfl⟩, -, hd⟩ | ⟨d, ⟨hj, hd⟩, hkey, hd'⟩)
    · rw [hdone] at hd
      cases hd
    · exact absurd (h.eq_of_live hd hc hd' hlive hkey) hj
  · rw [Function.update_of_ne hdraw, h id j]
    by_cases hj : j = i
    · subst hj
      simp [hc, hdone, Ne.symm hdraw]
    · simp [hj]

end Pending
