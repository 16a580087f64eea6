import Mathlib.Algebra.Order.Group.Defs
import Mathlib.Algebra.Order.Monoid.Defs
import Mathlib.Data.List.Basic

/-!
# Choosing by weight

To choose an item with a probability proportional to its weight, a program draws a number below the
sum of all weights and goes through the list, subtracting one weight after the other, until nothing
is left of the number.  `choose` is that loop.

What it computes is the inverse of the sums: an item is chosen exactly for the numbers between the
sum of the weights before it and the sum that includes it (`choose_eq_some_iff`).  If the weights
are positive, every number up to the total is between two such sums (`exists_between`), and between
two only (`eq_of_between`), so the items share out the numbers up to the total without a gap or an
overlap, each as many of them as its weight.
-/

set_option autoImplicit false

namespace WeightedChoice

variable {α K : Type*} [AddCommGroup K] (w : α → K)

/-- The sum of the first `n` weights. -/
def sumTo : List α → ℕ → K
  | _, 0 => 0
  | [], _ + 1 => 0
  | a :: l, n + 1 => w a + sumTo l n

variable {w} {l : List α} {r : K} {i j : ℕ}

@[simp] theorem sumTo_zero (l : List α) : sumTo w l 0 = 0 := by
  cases l with
  | nil => rfl
  | cons a l => rfl

theorem sumTo_cons_succ (a : α) (l : List α) (n : ℕ) :
    sumTo w (a :: l) (n + 1) = w a + sumTo w l n := rfl

/-- One more weight is added at each index. -/
theorem sumTo_succ (h : i < l.length) : sumTo w l (i + 1) = sumTo w l i + w l[i] := by
  induction l generalizing i with
  | nil => exact absurd h (Nat.not_lt_zero i)
  | cons a l ih =>
    cases i with
    | zero =>
      rw [sumTo_cons_succ, sumTo_zero, sumTo_zero, add_zero, zero_add]
      rfl
    | succ i =>
      rw [sumTo_cons_succ, ih (Nat.lt_of_succ_lt_succ h), sumTo_cons_succ, add_assoc]
      rfl

variable [LinearOrder K]

variable (w) in
/-- The loop: subtract the weights one after the other until nothing is left of `r`. -/
def choose (r : K) : List α → Option α
  | [] => none
  | a :: l => if r - w a ≤ 0 then some a else choose (r - w a) l

variable (w) in
/-- The number `r` is between the sum of the weights before the `i`-th item and the sum with it.
There is nothing before the first item, so it has no lower bound. -/
def Between (l : List α) (i : ℕ) (r : K) : Prop :=
  (i = 0 ∨ sumTo w l i < r) ∧ r ≤ sumTo w l (i + 1)

variable [IsOrderedAddMonoid K]

theorem sumTo_nonneg (hw : ∀ a ∈ l, 0 < w a) (i : ℕ) : 0 ≤ sumTo w l i := by
  induction l generalizing i with
  | nil =>
    cases i with
    | zero => exact le_rfl
    | succ i => exact le_rfl
  | cons a l ih =>
    cases i with
    | zero => exact le_rfl
    | succ i =>
      obtain ⟨ha, hl⟩ := List.forall_mem_cons.mp hw
      exact add_nonneg ha.le (ih hl i)

theorem sumTo_mono (hw : ∀ a ∈ l, 0 < w a) (hij : i ≤ j) : sumTo w l i ≤ sumTo w l j := by
  induction l generalizing i j with
  | nil =>
    cases i with
    | zero => exact sumTo_nonneg hw j
    | succ i =>
      cases j with
      | zero => exact absurd hij (Nat.not_succ_le_zero i)
      | succ j => exact le_rfl
  | cons a l ih =>
    cases i with
    | zero => exact sumTo_nonneg hw j
    | succ i =>
      cases j with
      | zero => exact absurd hij (Nat.not_succ_le_zero i)
      | succ j =>
        have hl := (List.forall_mem_cons.mp hw).2
        exact add_le_add_right (ih hl (Nat.le_of_succ_le_succ hij)) (w a)

/-- **No gap**: every number up to the total is between two sums. -/
theorem exists_between (hl : l ≠ []) (hr : r ≤ sumTo w l l.length) :
    ∃ i, i < l.length ∧ Between w l i r := by
  induction l generalizing r with
  | nil => exact absurd rfl hl
  | cons a l ih =>
    by_cases hfirst : r ≤ w a
    · refine ⟨0, Nat.succ_pos _, .inl rfl, ?_⟩
      rw [sumTo_cons_succ, sumTo_zero, add_zero]
      exact hfirst
    · rw [List.length_cons, sumTo_cons_succ] at hr
      have hl' : l ≠ [] := by
        rintro rfl
        rw [List.length_nil, sumTo_zero, add_zero] at hr
        exact hfirst hr
      obtain ⟨i, hi, hlow, hhigh⟩ := ih hl' (sub_le_iff_le_add'.mpr hr)
      refine ⟨i + 1, Nat.succ_lt_succ hi, .inr ?_, sub_le_iff_le_add'.mp hhigh⟩
      rcases hlow with rfl | hlow
      · rw [sumTo_cons_succ, sumTo_zero, add_zero]
        exact not_le.mp hfirst
      · exact lt_sub_iff_add_lt'.mp hlow

/-- **No overlap.** -/
theorem eq_of_between (hw : ∀ a ∈ l, 0 < w a) (hi : Between w l i r) (hj : Between w l j r) :
    i = j := by
  -- the sum up to the smaller index is an upper bound, the one before the larger a lower bound
  have hle : ∀ {i j}, Between w l i r → Between w l j r → j ≤ i := by
    intro i j hi hj
    by_contra hlt
    have hlow := hj.1.resolve_left (by omega)
    exact absurd (hi.2.trans (sumTo_mono hw (by omega))) (not_le.mpr hlow)
  exact Nat.le_antisymm (hle hj hi) (hle hi hj)

/-- The loop stops at the item whose sums the number is between. -/
theorem choose_of_between (hw : ∀ a ∈ l, 0 < w a) (hi : i < l.length) (h : Between w l i r) :
    choose w r l = some l[i] := by
  induction l generalizing r i with
  | nil => exact absurd hi (Nat.not_lt_zero i)
  | cons a l ih =>
    obtain ⟨hlow, hhigh⟩ := h
    rw [sumTo_cons_succ] at hhigh
    cases i with
    | zero =>
      rw [sumTo_zero, add_zero] at hhigh
      rw [choose, if_pos (sub_nonpos.mpr hhigh)]
      rfl
    | succ i =>
      have hl := (List.forall_mem_cons.mp hw).2
      have hlow' := hlow.resolve_left (Nat.succ_ne_zero i)
      rw [sumTo_cons_succ] at hlow'
      have hrest : 0 < r - w a :=
        lt_of_le_of_lt (sumTo_nonneg hl i) (lt_sub_iff_add_lt'.mpr hlow')
      rw [choose, if_neg (not_le.mpr hrest)]
      exact ih hl (Nat.lt_of_succ_lt_succ hi)
        ⟨.inr (lt_sub_iff_add_lt'.mpr hlow'), sub_le_iff_le_add'.mpr hhigh⟩

/-- **What is chosen**, for a number up to the total. -/
theorem choose_eq_some_iff (hw : ∀ a ∈ l, 0 < w a) (hl : l ≠ []) (hr : r ≤ sumTo w l l.length)
    {a : α} :
    choose w r l = some a ↔ ∃ i, ∃ hi : i < l.length, l[i] = a ∧ Between w l i r := by
  refine ⟨fun h ↦ ?_, ?_⟩
  · obtain ⟨i, hi, hbetween⟩ := exists_between hl hr
    rw [choose_of_between hw hi hbetween, Option.some_inj] at h
    exact ⟨i, hi, h, hbetween⟩
  · rintro ⟨i, hi, rfl, hbetween⟩
    exact choose_of_between hw hi hbetween

end WeightedChoice
