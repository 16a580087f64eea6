import Mathlib.Algebra.Order.Field.Rat
import Mathlib.Data.List.Induction
import Mathlib.Tactic.Linarith
import TunnelCat.Lib.Outcome
import TunnelCat.Router.Controls
import TunnelCat.Router.Relays

/-!
# Switching to another control

`PrimaryIsBetter` tells a client whether to leave its control for the one of the primary path.  So
that it does not go back and forth between two controls that are about as good, the score of the
primary has to be better by a factor: the product of the two must not be greater than the best score
of the current control.

For positive scores that is a margin.  For a score of zero it is none, and for a negative one it is
the opposite: a greater factor makes the product less.  Scores are zero as long as nothing has been
measured, and a path over a relay with a UDP connection can have a negative one.

`never_both_iff` is the exact condition, for every list of paths: the advice does not go both ways
between two controls, unless the best scores of both are zero or less and neither is greater than
the other times the factor.
-/

set_option autoImplicit false

namespace TunnelCat.Router

/-! ## PrimaryIsBetter -/

/-- The loop of `PrimaryIsBetter`: the best score of a control, if it has a path. -/
def currentBest (norm : String) (paths : List RouterPath) : Option ℤ :=
  paths.foldl (fun best path ↦
    match best with
    | none => if path.controlAddr = norm then some path.score else none
    | some b => if path.controlAddr = norm ∧ path.score < b then some path.score else some b) none

/-- `PrimaryIsBetter`. -/
def primaryIsBetter (r : Router) (currentAddr : String) (factor : ℚ) :
    Outcome (Bool × Option RouterPath) :=
  if r.paths.length = 0 then .ok (false, none)
  else
    (Outcome.index r.paths r.pathIdx).bind fun p ↦
      let norm := normaliseAddr currentAddr
      if p.controlAddr = norm then .ok (false, none)
      else
        match currentBest norm r.paths with
        | none => .ok (true, some p)
        | some best => .ok (decide ((p.score : ℚ) * factor ≤ best), some p)

/-- For some index of the primary path, the advice is to leave a control for one with an address. -/
def Recommends (r : Router) (currentAddr : String) (factor : ℚ) (addr : String) : Prop :=
  ∃ i p, primaryIsBetter { r with pathIdx := i } currentAddr factor = .ok (true, some p) ∧
    p.controlAddr = addr

/-! ## The best score -/

/-- The best score of the paths to a control. -/
structure IsBest (paths : List RouterPath) (addr : String) (x : ℤ) : Prop where
  /-- A path has it. -/
  attained : ∃ p ∈ paths, p.controlAddr = addr ∧ p.score = x
  /-- No path has a better one. -/
  le : ∀ p ∈ paths, p.controlAddr = addr → x ≤ p.score

variable {paths : List RouterPath} {addr : String} {x y : ℤ}

theorem currentBest_concat (paths : List RouterPath) (path : RouterPath) :
    currentBest addr (paths ++ [path]) =
      match currentBest addr paths with
      | none => if path.controlAddr = addr then some path.score else none
      | some b => if path.controlAddr = addr ∧ path.score < b then some path.score else some b := by
  rw [currentBest, List.foldl_append]
  rfl

/-- What the loop finds. -/
theorem currentBest_spec (addr : String) (paths : List RouterPath) :
    (currentBest addr paths = none → ∀ p ∈ paths, p.controlAddr ≠ addr) ∧
      ∀ x, currentBest addr paths = some x → IsBest paths addr x := by
  induction paths using List.reverseRecOn with
  | nil => exact ⟨fun _ p hp ↦ absurd hp List.not_mem_nil, fun x h ↦ (nomatch h)⟩
  | append_singleton paths path ih =>
    rw [currentBest_concat]
    cases hbest : currentBest addr paths with
    | none =>
      have hother := ih.1 hbest
      dsimp only
      split
      · rename_i hpath
        refine ⟨fun h ↦ (nomatch h), fun x h ↦ ?_⟩
        cases h
        refine ⟨⟨path, List.mem_concat_self, hpath, rfl⟩, fun p hp haddr ↦ ?_⟩
        rcases List.mem_append.mp hp with hp | hp
        · exact absurd haddr (hother p hp)
        · rw [List.mem_singleton.mp hp]
      · rename_i hpath
        refine ⟨fun _ p hp ↦ ?_, fun x h ↦ (nomatch h)⟩
        rcases List.mem_append.mp hp with hp | hp
        · exact hother p hp
        · rw [List.mem_singleton.mp hp]
          exact hpath
    | some b =>
      obtain ⟨⟨q, hq, hqaddr, hqscore⟩, hle⟩ := ih.2 b hbest
      dsimp only
      split
      · rename_i hpath
        refine ⟨fun h ↦ (nomatch h), fun x h ↦ ?_⟩
        cases h
        refine ⟨⟨path, List.mem_concat_self, hpath.1, rfl⟩, fun p hp haddr ↦ ?_⟩
        rcases List.mem_append.mp hp with hp | hp
        · have := hle p hp haddr
          omega
        · rw [List.mem_singleton.mp hp]
      · rename_i hpath
        refine ⟨fun h ↦ (nomatch h), fun x h ↦ ?_⟩
        cases h
        refine ⟨⟨q, List.mem_append_left _ hq, hqaddr, hqscore⟩, fun p hp haddr ↦ ?_⟩
        rcases List.mem_append.mp hp with hp | hp
        · exact hle p hp haddr
        · rw [List.mem_singleton.mp hp] at haddr ⊢
          exact not_lt.mp fun hlt ↦ hpath ⟨haddr, hlt⟩

/-- The loop finds the best score. -/
theorem currentBest_of_isBest (h : IsBest paths addr x) : currentBest addr paths = some x := by
  obtain ⟨p, hp, hpaddr, hpscore⟩ := h.attained
  cases hbest : currentBest addr paths with
  | none => exact absurd hpaddr ((currentBest_spec addr paths).1 hbest p hp)
  | some b =>
    obtain ⟨⟨q, hq, hqaddr, hqscore⟩, hle⟩ := (currentBest_spec addr paths).2 b hbest
    have hxb := h.le q hq hqaddr
    have hbx := hle p hp hpaddr
    exact congrArg some (by omega)

/-! ## The advice -/

/-- The advice if the primary path is one of the stored ones and the current control has a path. -/
theorem primaryIsBetter_eq {r : Router} {a : String} (ha : IsBest r.paths (normaliseAddr a) x)
    (factor : ℚ) {i : ℕ} {p : RouterPath} (hp : r.paths[i]? = some p) :
    primaryIsBetter { r with pathIdx := i } a factor =
      if p.controlAddr = normaliseAddr a then .ok (false, none)
      else .ok (decide ((p.score : ℚ) * factor ≤ x), some p) := by
  have hne : r.paths.length ≠ 0 := fun h ↦ by
    rw [List.length_eq_zero_iff.mp h] at hp
    cases hp
  rw [primaryIsBetter]
  dsimp only
  rw [if_neg hne, Outcome.index, hp]
  dsimp only [Outcome.ok_bind]
  rw [currentBest_of_isBest ha]

/-- When there is an index at which the advice is to switch: the best path of the other control is
better by the factor. -/
theorem recommends_iff {r : Router} {a : String} {factor : ℚ} (hfactor : 0 < factor)
    (ha : IsBest r.paths (normaliseAddr a) x) (hb : IsBest r.paths addr y) :
    r.Recommends a factor addr ↔ addr ≠ normaliseAddr a ∧ (y : ℚ) * factor ≤ x := by
  refine ⟨?_, ?_⟩
  · rintro ⟨i, p, h, rfl⟩
    cases hp : r.paths[i]? with
    | none =>
      have hne : r.paths.length ≠ 0 := fun h0 ↦ by
        obtain ⟨q, hq, -⟩ := ha.attained
        rw [List.length_eq_zero_iff.mp h0] at hq
        exact absurd hq List.not_mem_nil
      rw [primaryIsBetter] at h
      dsimp only at h
      rw [if_neg hne, Outcome.index, hp] at h
      cases h
    | some q =>
      rw [primaryIsBetter_eq ha factor hp] at h
      split at h
      · cases h
      · rename_i hother
        rw [Outcome.ok.injEq, Prod.mk.injEq, decide_eq_true_eq, Option.some_inj] at h
        obtain ⟨hle, rfl⟩ := h
        have hyq : (y : ℚ) ≤ q.score := Int.cast_le.mpr (hb.le q (List.mem_of_getElem? hp) rfl)
        exact ⟨hother, (mul_le_mul_of_nonneg_right hyq hfactor.le).trans hle⟩
  · rintro ⟨hne, hle⟩
    obtain ⟨p, hp, rfl, rfl⟩ := hb.attained
    obtain ⟨i, hi⟩ := List.mem_iff_getElem?.mp hp
    refine ⟨i, p, ?_, rfl⟩
    rw [primaryIsBetter_eq ha factor hi, if_neg hne, decide_eq_true hle]

/-- If each of two numbers times a factor above one is at most the other, both are zero or less. -/
theorem nonpos_of_mul_le {x y factor : ℚ} (hfactor : 1 < factor) (hx : x * factor ≤ y)
    (hy : y * factor ≤ x) : x ≤ 0 := by
  by_contra hpos
  have hxpos : 0 < x := not_le.mp hpos
  have hxy : x < y := lt_of_lt_of_le (lt_mul_of_one_lt_right hxpos hfactor) hx
  have hyx : y < x := lt_of_lt_of_le (lt_mul_of_one_lt_right (hxpos.trans hxy) hfactor) hy
  exact lt_asymm hxy hyx

/-- **When the advice does not go both ways**, for every list of paths, every factor above one and
any two controls with paths among them: unless the best scores of both are zero or less, and neither
is greater than the other times the factor.  In particular it does not if one of them is
positive. -/
theorem never_both_iff (r : Router) (factor : ℚ) (hfactor : 1 < factor) (a b : String) (x y : ℤ)
    (ha : IsBest r.paths (normaliseAddr a) x) (hb : IsBest r.paths (normaliseAddr b) y) :
    ¬(r.Recommends a factor (normaliseAddr b) ∧ r.Recommends b factor (normaliseAddr a)) ↔
      normaliseAddr a = normaliseAddr b ∨ 0 < x ∨ 0 < y ∨ (x : ℚ) < y * factor ∨
        (y : ℚ) < x * factor := by
  have hpos : 0 < factor := zero_lt_one.trans hfactor
  rw [recommends_iff hpos ha hb, recommends_iff hpos hb ha]
  refine ⟨fun h ↦ ?_, ?_⟩
  · by_contra hnone
    obtain ⟨hne, -, -, hxy, hyx⟩ := by simpa only [not_or] using hnone
    exact h ⟨⟨Ne.symm hne, not_lt.mp hxy⟩, hne, not_lt.mp hyx⟩
  · rintro hone ⟨⟨hne, hyx⟩, -, hxy⟩
    have hx : (x : ℚ) ≤ 0 := nonpos_of_mul_le hfactor hxy hyx
    have hy : (y : ℚ) ≤ 0 := nonpos_of_mul_le hfactor hyx hxy
    rcases hone with hab | hxpos | hypos | hlt | hlt
    · exact hne hab.symm
    · exact absurd (Int.cast_pos.mpr hxpos) (not_lt.mpr hx)
    · exact absurd (Int.cast_pos.mpr hypos) (not_lt.mpr hy)
    · exact absurd hyx (not_le.mpr hlt)
    · exact absurd hxy (not_le.mpr hlt)

/-- Two controls that have been measured: 50 and 60 milliseconds. -/
def demoMeasured : Router :=
  (demoRouter "" [demoControl "a" "" 50 .tcp, demoControl "b" "" 60 .tcp] []).buildPaths .plain 0

/-- Between these the advice does not go both ways. -/
theorem never_both_iff_measured :
    ¬(demoMeasured.Recommends "a:443" (3 / 2) (normaliseAddr "b:443") ∧
      demoMeasured.Recommends "b:443" (3 / 2) (normaliseAddr "a:443")) := by
  refine (never_both_iff demoMeasured (3 / 2) (by decide +kernel) "a:443" "b:443" 50 60
    ⟨?_, ?_⟩ ⟨?_, ?_⟩).mpr (.inr (.inl (by decide)))
  all_goals decide +kernel

/-- Two controls of which nothing is known but that they are there. -/
def demoUnmeasured : Router :=
  (demoRouter "" [demoControl "a" "" 0 .tcp, demoControl "b" "" 0 .tcp] []).buildPaths .plain 0

/-- Both are on a path, and the advice is to leave each of them for the other. -/
theorem switches_both_ways :
    demoUnmeasured.paths.map RouterPath.controlAddr = ["a:443", "b:443"] ∧
    demoUnmeasured.Recommends "a:443" (3 / 2) "b:443" ∧
      demoUnmeasured.Recommends "b:443" (3 / 2) "a:443" := by
  refine ⟨?_, ⟨1, ⟨[], "b:443", 0, none⟩, ?_, rfl⟩, ⟨0, ⟨[], "a:443", 0, none⟩, ?_, rfl⟩⟩
  all_goals decide +kernel

end TunnelCat.Router
