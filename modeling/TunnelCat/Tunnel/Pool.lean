import Mathlib.Algebra.Order.Field.Rat
import Mathlib.Tactic.Linarith
import Mathlib.Tactic.Positivity
import TunnelCat.Lib.WeightedChoice

/-!
# Picking a dialer

A `DialerPool` hands out one of its dialers for every new connection.  A fast control node is to get
more of them than a slow one, and one whose dials fail fewer than one whose dials do not, so a
dialer is picked with a probability proportional to its weight: one over its round trip time, scaled
by how many of its dials succeed.  A dialer that has not been measured counts as one that takes a
second, and no failure ratio takes more than nine tenths of the weight away.

Two loops of `Pick` go through the slots and skip those that are draining.  The first adds up the
weights, the second subtracts them from a random part of the sum until nothing is left; a third one
is there for what rounding leaves over.  In exact arithmetic the second loop is the weighted choice
of the library over the slots that are not draining (`pickLoop_eq_choose`), and the third is not
reached.

The weights are read twice.  They are the same both times here: the round trip time and the failure
ratio of a dialer are fields of it.
-/

set_option autoImplicit false

open WeightedChoice

namespace TunnelCat.Pool

/-! ## The pool -/

/-- `dialerState`. -/
inductive DialerState where
  /-- `dialerStandby`. -/
  | standby
  /-- `dialerDraining`. -/
  | draining
  deriving DecidableEq, Repr

/-- What `Pick` reads of a `TunnelDialer`. -/
structure Dialer where
  /-- Which dialer it is. -/
  serverURL : String
  /-- `trafficRTTCount`. -/
  trafficRTTCount : ℤ
  /-- `trafficRTTNanos`. -/
  trafficRTTNanos : ℤ
  /-- What `FailRatio` returns during the call. -/
  failRatio : ℚ
  deriving DecidableEq

/-- `dialerSlot`. -/
structure Slot where
  /-- The dialer. -/
  dialer : Dialer
  /-- Its state. -/
  state : DialerState
  deriving DecidableEq

/-- `trafficRTTMinSamples`. -/
def trafficRTTMinSamples : ℤ := 5

/-- `defaultPickRTT`, in nanoseconds. -/
def defaultPickRTT : ℤ := 1000000000

/-- `softMinQuality`. -/
def softMinQuality : ℚ := 1 / 10

/-- `TrafficRTT`. -/
def Dialer.trafficRTT (td : Dialer) : ℤ :=
  if td.trafficRTTCount < trafficRTTMinSamples then 0 else td.trafficRTTNanos

/-- The round trip time `pickWeight` goes by. -/
def Dialer.pickRTT (td : Dialer) : ℤ :=
  if td.trafficRTT ≤ 0 then defaultPickRTT else td.trafficRTT

/-- `pickWeight`. -/
def pickWeight (td : Dialer) : ℚ :=
  let base := 1 / (td.pickRTT : ℚ)
  let quality := 1 - td.failRatio
  let quality := if quality < softMinQuality then softMinQuality else quality
  base * quality

/-- The first loop of `Pick`. -/
def pickTotal (slots : List Slot) : ℚ :=
  slots.foldl
    (fun total s ↦ if s.state ≠ .draining then total + pickWeight s.dialer else total) 0

/-- The second loop of `Pick`. -/
def pickLoop (r : ℚ) : List Slot → Option Dialer
  | [] => none
  | s :: slots =>
    if s.state = .draining then pickLoop r slots
    else if r - pickWeight s.dialer ≤ 0 then some s.dialer
    else pickLoop (r - pickWeight s.dialer) slots

/-- The third loop of `Pick`. -/
def pickLast (slots : List Slot) : Option Dialer :=
  (slots.reverse.find? fun s ↦ s.state ≠ .draining).map Slot.dialer

/-- `Pick`, with what `rand.Float64` returns. -/
def pick (slots : List Slot) (u : ℚ) : Option Dialer :=
  let total := pickTotal slots
  if total = 0 then none
  else
    match pickLoop (u * total) slots with
    | some td => some td
    | none => pickLast slots

/-! ## Weights -/

theorem pickRTT_pos (td : Dialer) : 0 < td.pickRTT := by
  rw [Dialer.pickRTT]
  split
  · decide
  · omega

/-- **No dialer loses all of its weight.** -/
theorem le_pickWeight (td : Dialer) : softMinQuality * (1 / (td.pickRTT : ℚ)) ≤ pickWeight td := by
  have hrtt : (0 : ℚ) < td.pickRTT := Int.cast_pos.mpr (pickRTT_pos td)
  have hquality : softMinQuality ≤
      if 1 - td.failRatio < softMinQuality then softMinQuality else 1 - td.failRatio := by
    split
    · exact le_rfl
    · rename_i h
      exact not_lt.mp h
  rw [pickWeight, mul_comm]
  exact mul_le_mul_of_nonneg_left hquality (one_div_pos.mpr hrtt).le

theorem pickWeight_pos (td : Dialer) : 0 < pickWeight td := by
  have hrtt : (0 : ℚ) < td.pickRTT := Int.cast_pos.mpr (pickRTT_pos td)
  have hmin : (0 : ℚ) < softMinQuality := by
    rw [softMinQuality]
    norm_num
  exact lt_of_lt_of_le (mul_pos hmin (one_div_pos.mpr hrtt)) (le_pickWeight td)

/-! ## The loops -/

/-- The dialers that may be picked, in the order of their slots. -/
def nonDraining (slots : List Slot) : List Dialer :=
  (slots.filter fun s ↦ s.state ≠ .draining).map Slot.dialer

variable {slots : List Slot} {u : ℚ}

theorem nonDraining_cons (s : Slot) (slots : List Slot) :
    nonDraining (s :: slots) =
      if s.state = .draining then nonDraining slots else s.dialer :: nonDraining slots := by
  rw [nonDraining, List.filter_cons]
  by_cases h : s.state = .draining
  · rw [if_pos h, if_neg (by simp [h])]
    rfl
  · rw [if_neg h, if_pos (by simp [h]), List.map_cons]
    rfl

theorem nonDraining_eq_nil_iff : nonDraining slots = [] ↔ ∀ s ∈ slots, s.state = .draining := by
  rw [nonDraining, List.map_eq_nil_iff, List.filter_eq_nil_iff]
  simp

theorem mem_nonDraining {td : Dialer} :
    td ∈ nonDraining slots ↔ ∃ s ∈ slots, s.state ≠ .draining ∧ s.dialer = td := by
  rw [nonDraining, List.mem_map]
  simp [and_assoc]

/-- The first loop adds up the weights of the dialers that may be picked. -/
theorem pickTotal_eq_sumTo (slots : List Slot) :
    pickTotal slots = sumTo pickWeight (nonDraining slots) (nonDraining slots).length := by
  have hacc : ∀ acc : ℚ, slots.foldl (fun total s ↦
      if s.state ≠ .draining then total + pickWeight s.dialer else total) acc =
      acc + sumTo pickWeight (nonDraining slots) (nonDraining slots).length := by
    induction slots with
    | nil => exact fun acc ↦ (add_zero acc).symm
    | cons s slots ih =>
      intro acc
      rw [List.foldl_cons, ih, nonDraining_cons]
      by_cases h : s.state = .draining
      · rw [if_neg (not_not.mpr h), if_pos h]
      · rw [if_pos h, if_neg h, List.length_cons, sumTo_cons_succ, add_assoc]
  rw [pickTotal, hacc, zero_add]

/-- The second loop is a weighted choice. -/
theorem pickLoop_eq_choose (r : ℚ) (slots : List Slot) :
    pickLoop r slots = choose pickWeight r (nonDraining slots) := by
  induction slots generalizing r with
  | nil => rfl
  | cons s slots ih =>
    rw [pickLoop, nonDraining_cons]
    by_cases h : s.state = .draining
    · rw [if_pos h, if_pos h, ih]
    · rw [if_neg h, if_neg h, choose, ih]

theorem weights_pos (slots : List Slot) : ∀ td ∈ nonDraining slots, 0 < pickWeight td :=
  fun td _ ↦ pickWeight_pos td

theorem pickTotal_pos (h : nonDraining slots ≠ []) : 0 < pickTotal slots := by
  rw [pickTotal_eq_sumTo]
  obtain ⟨td, tds, htds⟩ := List.exists_cons_of_ne_nil h
  have hw := weights_pos slots
  rw [htds] at hw ⊢
  rw [List.length_cons, sumTo_cons_succ]
  exact add_pos_of_pos_of_nonneg (pickWeight_pos td)
    (sumTo_nonneg (List.forall_mem_cons.mp hw).2 _)

/-! ## The share of a dialer -/

/-- Where the share of the `i`-th dialer that may be picked begins, and the one before it ends. -/
def cut (slots : List Slot) (i : ℕ) : ℚ :=
  sumTo pickWeight (nonDraining slots) i / pickTotal slots

/-- The share of the `i`-th dialer that may be picked: the numbers above where it begins, and zero
for the first, up to where it ends. -/
def InShare (slots : List Slot) (i : ℕ) (u : ℚ) : Prop :=
  (i = 0 ∨ cut slots i < u) ∧ u ≤ cut slots (i + 1)

theorem inShare_iff_between (h : nonDraining slots ≠ []) (i : ℕ) :
    InShare slots i u ↔ Between pickWeight (nonDraining slots) i (u * pickTotal slots) := by
  have htotal := pickTotal_pos h
  rw [InShare, Between, cut, cut, div_lt_iff₀ htotal, le_div_iff₀ htotal]

theorem mul_pickTotal_le (h : nonDraining slots ≠ []) (hu : u < 1) :
    u * pickTotal slots ≤
      sumTo pickWeight (nonDraining slots) (nonDraining slots).length := by
  rw [← pickTotal_eq_sumTo]
  exact mul_le_of_le_one_left (pickTotal_pos h).le hu.le

/-- The weighted choice is made by the second loop, and the third is not reached. -/
theorem pick_eq_some_iff (h : nonDraining slots ≠ []) (hu : u < 1) {td : Dialer} :
    pick slots u = some td ↔
      ∃ i, ∃ hi : i < (nonDraining slots).length,
        (nonDraining slots)[i] = td ∧ InShare slots i u := by
  have hchoose := choose_eq_some_iff (weights_pos slots) h (mul_pickTotal_le h hu) (a := td)
  obtain ⟨i, hi, hbetween⟩ := exists_between h (mul_pickTotal_le h hu)
  have hsome := choose_of_between (weights_pos slots) hi hbetween
  simp only [inShare_iff_between h]
  rw [← hchoose, pick, if_neg (pickTotal_pos h).ne', pickLoop_eq_choose, hsome]

theorem pick_eq_none (h : nonDraining slots = []) (u : ℚ) : pick slots u = none := by
  have htotal : pickTotal slots = 0 := by rw [pickTotal_eq_sumTo, h, List.length_nil, sumTo_zero]
  rw [pick, if_pos htotal]

theorem pick_eq_none_iff (hu : u < 1) :
    pick slots u = none ↔ ∀ s ∈ slots, s.state = .draining := by
  rw [← nonDraining_eq_nil_iff]
  refine ⟨fun hnone ↦ ?_, fun h ↦ pick_eq_none h u⟩
  by_contra h
  obtain ⟨i, hi, hbetween⟩ := exists_between h (mul_pickTotal_le h hu)
  have hsome := (pick_eq_some_iff h hu).mpr ⟨i, hi, rfl, (inShare_iff_between h i).mpr hbetween⟩
  rw [hnone] at hsome
  cases hsome

theorem existsUnique_inShare (h : nonDraining slots ≠ []) (hu : u < 1) :
    ∃! i, i < (nonDraining slots).length ∧ InShare slots i u := by
  obtain ⟨i, hi, hbetween⟩ := exists_between h (mul_pickTotal_le h hu)
  refine ⟨i, ⟨hi, (inShare_iff_between h i).mpr hbetween⟩, ?_⟩
  rintro j ⟨-, hj⟩
  exact eq_of_between (weights_pos slots) ((inShare_iff_between h j).mp hj) hbetween

theorem cut_succ_sub_cut {i : ℕ} (hi : i < (nonDraining slots).length) :
    cut slots (i + 1) - cut slots i = pickWeight (nonDraining slots)[i] / pickTotal slots := by
  rw [cut, cut, ← sub_div, sumTo_succ hi, add_sub_cancel_left]

/-! ## The result -/

/-- **Picking is a weighted choice**, in exact arithmetic, for every pool and every number below one
that is drawn.

Nothing is picked exactly if every slot is draining, and what is picked is in a slot that is not.
The shares of the dialers that may be picked begin at zero, follow each other without a gap, end at
one, and each has a length proportional to the weight; a dialer is picked exactly for the numbers in
its share.  Every weight is positive, at least a tenth of one over the round trip time. -/
theorem pick_weighted (slots : List Slot) :
    (∀ u, 0 ≤ u → u < 1 →
      (pick slots u = none ↔ ∀ s ∈ slots, s.state = .draining) ∧
      (∀ td, pick slots u = some td → ∃ s ∈ slots, s.state ≠ .draining ∧ s.dialer = td) ∧
      (∀ td, pick slots u = some td ↔
        ∃ i, ∃ hi : i < (nonDraining slots).length,
          (nonDraining slots)[i] = td ∧ InShare slots i u) ∧
      ((nonDraining slots).Nodup → ∀ i (hi : i < (nonDraining slots).length),
        (pick slots u = some (nonDraining slots)[i] ↔ InShare slots i u))) ∧
    (nonDraining slots ≠ [] → cut slots 0 = 0 ∧ cut slots (nonDraining slots).length = 1 ∧
      (∀ i (hi : i < (nonDraining slots).length),
        cut slots (i + 1) - cut slots i = pickWeight (nonDraining slots)[i] / pickTotal slots) ∧
      ∀ u, 0 ≤ u → u < 1 → ∃! i, i < (nonDraining slots).length ∧ InShare slots i u) ∧
    (∀ td : Dialer,
      0 < pickWeight td ∧ softMinQuality * (1 / (td.pickRTT : ℚ)) ≤ pickWeight td) := by
  refine ⟨fun u _ hu ↦ ?_, fun h ↦ ⟨?_, ?_, fun i hi ↦ cut_succ_sub_cut hi,
    fun u _ hu ↦ existsUnique_inShare h hu⟩, fun td ↦ ⟨pickWeight_pos td, le_pickWeight td⟩⟩
  · have hsome : ∀ td, pick slots u = some td ↔
        ∃ i, ∃ hi : i < (nonDraining slots).length,
          (nonDraining slots)[i] = td ∧ InShare slots i u := by
      intro td
      by_cases h : nonDraining slots = []
      · rw [pick_eq_none h]
        refine ⟨fun hnone ↦ (nomatch hnone), ?_⟩
        rintro ⟨i, hi, -⟩
        rw [h] at hi
        exact absurd hi (Nat.not_lt_zero i)
      · exact pick_eq_some_iff h hu
    refine ⟨pick_eq_none_iff hu, fun td htd ↦ ?_, hsome, fun hnodup i hi ↦ ?_⟩
    · obtain ⟨i, hi, rfl, -⟩ := (hsome td).mp htd
      exact mem_nonDraining.mp (List.getElem_mem hi)
    · rw [hsome]
      refine ⟨?_, fun hshare ↦ ⟨i, hi, rfl, hshare⟩⟩
      rintro ⟨j, hj, heq, hshare⟩
      rw [(hnodup.getElem_inj_iff).mp heq] at hshare
      exact hshare
  · rw [cut, sumTo_zero, zero_div]
  · rw [cut, ← pickTotal_eq_sumTo]
    exact div_self (pickTotal_pos h).ne'

/-- Three slots, of which the second is draining: a dialer that has not been measured, and one that
takes half a second and fails all the time. -/
def demoSlots : List Slot :=
  [⟨⟨"https://192.0.2.1:443", 0, 0, 0⟩, .standby⟩, ⟨⟨"https://192.0.2.2:443", 9, 1, 0⟩, .draining⟩,
    ⟨⟨"https://192.0.2.3:443", 5, 500000000, 1⟩, .standby⟩]

/-- The first of them has five sixths of the numbers. -/
theorem pick_weighted_demo :
    cut demoSlots 1 - cut demoSlots 0 = 5 / 6 ∧
      pick demoSlots (1 / 2) = some ⟨"https://192.0.2.1:443", 0, 0, 0⟩ := by
  obtain ⟨hpick, hcut, -⟩ := pick_weighted demoSlots
  refine ⟨((hcut (by decide)).2.2.1 0 (by decide)).trans (by decide +kernel), ?_⟩
  exact ((hpick (1 / 2) (by decide +kernel) (by decide +kernel)).2.2.1 _).mpr
    ⟨0, by decide, by decide +kernel, .inl rfl, by decide +kernel⟩

end TunnelCat.Pool
