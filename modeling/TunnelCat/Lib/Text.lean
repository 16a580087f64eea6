import Mathlib.Data.List.Infix

/-!
# Texts made of fields

A text made of fields with a separator between them can be taken apart again if no field has the
separator in it.  It is enough to know this of one of two texts with the same number of fields: the
other text has as many separators, so none is left for its fields.
-/

set_option autoImplicit false

namespace Text

universe u

variable {α : Type u} [DecidableEq α] {c : α} {l l' : List (List α)}

/-- Every field but the first brings a separator, and there are no others exactly if the fields have
none in them. -/
theorem count_intercalate (hl : l ≠ []) :
    l.length ≤ ([c].intercalate l).count c + 1 ∧
      (([c].intercalate l).count c + 1 = l.length ↔ ∀ x ∈ l, c ∉ x) := by
  induction l with
  | nil => exact absurd rfl hl
  | cons x l ih =>
    rcases l with - | ⟨x', l⟩
    · rw [List.intercalate_singleton, List.length_singleton, List.forall_mem_singleton,
        ← List.count_eq_zero]
      exact ⟨Nat.le_add_left 1 _, by omega⟩
    · obtain ⟨hle, hiff⟩ := ih (List.cons_ne_nil x' l)
      rw [List.intercalate_cons_cons, List.count_append, List.count_append,
        List.count_singleton_self, List.length_cons, List.forall_mem_cons, ← hiff,
        ← List.count_eq_zero]
      exact ⟨by omega, by omega⟩

/-- **Fields can be told apart**: a text whose fields do not have the separator in them is made of
these fields only, among all texts with as many. -/
theorem eq_of_intercalate_eq (hl : l ≠ []) (hlen : l.length = l'.length) (hc : ∀ x ∈ l, c ∉ x)
    (h : [c].intercalate l = [c].intercalate l') : l = l' := by
  have hl' : l' ≠ [] := by
    rw [← List.length_pos_iff, ← hlen]
    exact List.length_pos_iff.mpr hl
  have hcount : ([c].intercalate l').count c + 1 = l'.length := by
    rw [← h, ← hlen]
    exact (count_intercalate hl).2.mpr hc
  have hc' : ∀ x ∈ l', c ∉ x := (count_intercalate hl').2.mp hcount
  rw [← List.splitOn_intercalate c hc hl, h, List.splitOn_intercalate c hc' hl']

/-- `strings.Contains`. -/
def contains (s sub : String) : Bool := decide (sub.toList <:+: s.toList)

end Text
