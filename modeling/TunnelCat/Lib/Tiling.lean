import Mathlib.Data.Int.Order.Basic
import Mathlib.Logic.ExistsUnique
import Mathlib.Data.List.Basic

/-!
# Stretches that follow each other

A file that is written piece by piece is covered by stretches, each of which begins where the one
before it ends.  `Tiles a l b` says that the stretches of the list `l`, each given by where it
begins and how long it is, cover everything from `a` up to `b` in this way, and that none of them is
empty.  Then every position is in exactly one of them.
-/

set_option autoImplicit false

/-- The stretches cover everything from the first number up to the second, one after the other. -/
inductive Tiles : ℤ → List (ℤ × ℤ) → ℤ → Prop where
  /-- No stretch is needed. -/
  | nil (a : ℤ) : Tiles a [] a
  /-- The first stretch begins at the beginning, and the others where it ends. -/
  | cons {a n b : ℤ} {l : List (ℤ × ℤ)} : 0 < n → Tiles (a + n) l b → Tiles a ((a, n) :: l) b

namespace Tiles

variable {a b x : ℤ} {l : List (ℤ × ℤ)}

theorem le (h : Tiles a l b) : a ≤ b := by
  induction h with
  | nil a => exact le_rfl
  | cons hn _ ih => omega

/-- Every stretch is within the bounds, and not empty. -/
theorem bounds (h : Tiles a l b) {p : ℤ × ℤ} (hp : p ∈ l) : a ≤ p.1 ∧ 0 < p.2 ∧ p.1 + p.2 ≤ b := by
  induction h with
  | nil a => cases hp
  | cons hn hl ih =>
    rcases List.mem_cons.mp hp with rfl | hp
    · exact ⟨le_rfl, hn, hl.le⟩
    · obtain ⟨hle, hpos, hend⟩ := ih hp
      exact ⟨by omega, hpos, hend⟩

/-- **Every position is in exactly one stretch.** -/
theorem existsUnique (h : Tiles a l b) (hax : a ≤ x) (hxb : x < b) :
    ∃! i : ℕ, ∃ p : ℤ × ℤ, l[i]? = some p ∧ p.1 ≤ x ∧ x < p.1 + p.2 := by
  induction h with
  | nil a => omega
  | @cons a n b l hn hl ih =>
    by_cases hfirst : x < a + n
    · refine ⟨0, ⟨(a, n), rfl, hax, hfirst⟩, fun i ⟨p, hp, hpx, _⟩ ↦ ?_⟩
      cases i with
      | zero => rfl
      | succ i =>
        rw [List.getElem?_cons_succ] at hp
        have hle := (hl.bounds (List.mem_of_getElem? hp)).1
        omega
    · obtain ⟨i, hi, honly⟩ := ih (by omega) hxb
      refine ⟨i + 1, hi, fun j ⟨p, hp, hpx⟩ ↦ ?_⟩
      cases j with
      | zero =>
        rw [List.getElem?_cons_zero, Option.some_inj] at hp
        subst hp
        exact absurd hpx.2 hfirst
      | succ j => rw [honly j ⟨p, hp, hpx⟩]

end Tiles
