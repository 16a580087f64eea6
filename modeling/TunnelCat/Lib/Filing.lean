import Mathlib.Data.List.Count
import Mathlib.Data.Prod.Basic

/-!
# Texts that are written to several places

A program that has several files open appends each text to one of them.  What it did is a list of
texts with the place of each, in the order of the writes, and `Filing.filed` is what is in a place
afterwards.

The places alone do not say where one text ends and the next one begins.  They do say how much was
written: two lists with the same in every place have the same length altogether
(`total_eq_of_filed_eq`), so that a text which is in none of them is missing from the sum.
-/

set_option autoImplicit false

namespace Filing

variable {κ α : Type*}

/-- How much there is in all places. -/
def total (l : List (κ × List α)) : ℕ := (l.flatMap Prod.snd).length

theorem total_cons (x : κ × List α) (l : List (κ × List α)) :
    total (x :: l) = x.2.length + total l := by
  rw [total, List.flatMap_cons, List.length_append]
  rfl

/-- Every letter with its place. -/
def letters (l : List (κ × List α)) : List (κ × α) := l.flatMap fun x ↦ x.2.map (Prod.mk x.1)

theorem length_letters (l : List (κ × List α)) : (letters l).length = total l := by
  induction l with
  | nil => rfl
  | cons x l ih =>
    rw [letters, List.flatMap_cons, List.length_append, List.length_map, total_cons, ← ih]
    rfl

variable [DecidableEq κ]

/-- What is in a place. -/
def filed (k : κ) (l : List (κ × List α)) : List α := (l.filter (·.1 = k)).flatMap Prod.snd

@[simp] theorem filed_nil (k : κ) : filed k ([] : List (κ × List α)) = [] := rfl

theorem filed_cons (k : κ) (x : κ × List α) (l : List (κ × List α)) :
    filed k (x :: l) = (if x.1 = k then x.2 else []) ++ filed k l := by
  rw [filed, filed]
  split
  · rename_i h
    rw [List.filter_cons_of_pos (by simpa using h), List.flatMap_cons]
  · rename_i h
    rw [List.filter_cons_of_neg (by simpa using h), List.nil_append]

theorem filed_append (k : κ) (l l' : List (κ × List α)) :
    filed k (l ++ l') = filed k l ++ filed k l' := by
  rw [filed, List.filter_append, List.flatMap_append]
  rfl

theorem count_letters [DecidableEq α] (k : κ) (a : α) (l : List (κ × List α)) :
    (letters l).count (k, a) = (filed k l).count a := by
  induction l with
  | nil => rfl
  | cons x l ih =>
    rw [letters, List.flatMap_cons, List.count_append, filed_cons, List.count_append, ← ih]
    congr 1
    split
    · rename_i h
      rw [← h]
      exact List.count_map_of_injective _ _ (Prod.mk_right_injective x.1) a
    · rename_i h
      rw [List.count_nil, List.count_eq_zero]
      intro hmem
      obtain ⟨b, -, hb⟩ := List.mem_map.mp hmem
      exact h (congrArg Prod.fst hb)

/-- **What is in the places says how much was written.** -/
theorem total_eq_of_filed_eq {l l' : List (κ × List α)} (h : ∀ k, filed k l = filed k l') :
    total l = total l' := by
  classical
  rw [← length_letters l, ← length_letters l']
  refine List.Perm.length_eq (List.perm_iff_count.mpr fun x ↦ ?_)
  rw [count_letters, count_letters, h]

end Filing
