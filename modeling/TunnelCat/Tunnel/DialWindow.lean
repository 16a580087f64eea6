import Mathlib.Algebra.Order.Field.Basic
import Mathlib.Algebra.Order.Field.Rat
import Mathlib.Data.List.Basic
import TunnelCat.Lib.Trace

/-!
# The rolling window of dial outcomes

A `TunnelDialer` remembers how its dials of the last thirty seconds went.  Two hooks evict a control
node that fails too often: the first, soft tier when half of the outcomes in the window are
failures, the second, hard tier when four fifths are.  A window is judged only if it holds three
outcomes and goes back ten seconds, so that a burst of failures does not evict anybody.

A hook is not to be called again while things stay bad, so each tier has a flag: the hook is called
when the flag goes up, and the flag comes down when the ratio is below the threshold.  But it is
only looked at by `recordDialOutcome`, for an outcome that is judged.  `EvictionInvariant` is what
holds of every sequence of calls.  A recovery that shows in `FailRatio` alone, since the window has
emptied itself in the meantime, leaves the flag up: the hook is called again if and only if the last
outcome that was judged since is below the threshold.
-/

set_option autoImplicit false

open Trace

namespace TunnelCat.DialWindow

/-! ## The window -/

/-- One second on the clock, which counts nanoseconds. -/
def second : ℤ := 1000000000

/-- `dialWinSize`. -/
def dialWinSize : ℤ := 30 * second

/-- `dialWinMinSamples`. -/
def dialWinMinSamples : ℕ := 3

/-- `dialWinMinSpan`. -/
def dialWinMinSpan : ℤ := 10 * second

/-- `dialOutcome`. -/
structure DialOutcome where
  /-- When it was recorded. -/
  time : ℤ
  /-- How it went. -/
  success : Bool
  deriving DecidableEq, Repr

/-- The two tiers of eviction. -/
inductive Tier where
  /-- Soft: `onFirstFail`, `firstWinFired`. -/
  | first
  /-- Hard: `onDataFail`, `dataWinFired`. -/
  | data
  deriving DecidableEq, Repr

/-- `firstFailRatio` and `dataFailRatio`. -/
def Tier.threshold : Tier → ℚ
  | .first => 1 / 2
  | .data => 4 / 5

/-- The loop that both functions begin with: forget what is older than the window. -/
def prune (now : ℤ) (l : List DialOutcome) : List DialOutcome :=
  l.dropWhile fun o ↦ o.time < now - dialWinSize

/-- How many outcomes are failures. -/
def fails (l : List DialOutcome) : ℕ := l.countP fun o ↦ !o.success

/-- `float64(fails) / float64(total)`. -/
def ratio (l : List DialOutcome) : ℚ := fails l / l.length

/-- The ratio `recordDialOutcome` compares with the thresholds; `none` if there is not enough to
judge by. -/
def evaluate (now : ℤ) (l : List DialOutcome) : Option ℚ :=
  match l with
  | [] => none
  | o :: _ =>
    if dialWinMinSamples ≤ l.length ∧ dialWinMinSpan ≤ now - o.time then some (ratio l) else none

/-- The fields of the `TunnelDialer` under `dialWinMu`. -/
structure Dialer where
  /-- `dialWindow`, the oldest outcome first. -/
  dialWindow : List DialOutcome
  /-- `firstWinFired` and `dataWinFired`. -/
  winFired : Tier → Bool

namespace Dialer

/-- The dialer as it is made. -/
def new : Dialer := ⟨[], fun _ ↦ false⟩

/-- The window with one more outcome. -/
def appended (td : Dialer) (success : Bool) (now : ℤ) : List DialOutcome :=
  prune now td.dialWindow ++ [⟨now, success⟩]

/-- `recordDialOutcome`, with the hooks it fires. -/
def recordDialOutcome (td : Dialer) (success : Bool) (now : ℤ) : Dialer × (Tier → Bool) :=
  let window := td.appended success now
  match evaluate now window with
  | some r => (⟨window, fun t ↦ t.threshold ≤ r⟩, fun t ↦ t.threshold ≤ r && !td.winFired t)
  | none => (⟨window, td.winFired⟩, fun _ ↦ false)

/-- `FailRatio`. -/
def failRatio (td : Dialer) (now : ℤ) : Dialer × ℚ :=
  let window := prune now td.dialWindow
  (⟨window, td.winFired⟩,
    if window.length < dialWinMinSamples then 0
    else
      match window with
      | [] => 0
      | o :: _ => if now - o.time < dialWinMinSpan then 0 else ratio window)

end Dialer

/-! ## Calls -/

/-- A call, with the time it reads from the clock. -/
inductive Call where
  /-- `recordDialOutcome`. -/
  | record (success : Bool) (now : ℤ)
  /-- `FailRatio`. -/
  | failRatio (now : ℤ)
  deriving DecidableEq, Repr

/-- When the call is made. -/
def Call.now : Call → ℤ
  | .record _ now => now
  | .failRatio now => now

/-- The outcomes that a list of calls records. -/
def recorded : List Call → List DialOutcome
  | [] => []
  | .record success now :: cs => ⟨now, success⟩ :: recorded cs
  | .failRatio _ :: cs => recorded cs

theorem recorded_append (cs ds : List Call) : recorded (cs ++ ds) = recorded cs ++ recorded ds := by
  induction cs with
  | nil => rfl
  | cons c cs ih => cases c <;> simp [recorded, ih]

/-- The dialer after a call. -/
def Dialer.after (td : Dialer) : Call → Dialer
  | .record success now => (td.recordDialOutcome success now).1
  | .failRatio now => (td.failRatio now).1

/-- The dialer and the clock. -/
structure State where
  /-- What the clock has reached. -/
  clock : ℤ
  /-- The dialer. -/
  dialer : Dialer

namespace State

/-- A dialer that is made at the time `now`. -/
def start (now : ℤ) : State := ⟨now, .new⟩

/-- A call.  The clock does not go back. -/
def step (s : State) (c : Call) : Option State :=
  if c.now < s.clock then none else some ⟨c.now, s.dialer.after c⟩

/-- The ratio a call judges its outcome by, if it does. -/
def evaluated (s : State) : Call → Option ℚ
  | .record success now => evaluate now (s.dialer.appended success now)
  | .failRatio _ => none

/-- Whether a call fires the hook of a tier. -/
def fires (s : State) : Call → Tier → Bool
  | .record success now, t => (s.dialer.recordDialOutcome success now).2 t
  | .failRatio _, _ => false

variable {s s' u v : State} {c a : Call} {t : Tier} {as bs : List Call}

theorem step_eq_some (h : s.step c = some s') :
    s.clock ≤ c.now ∧ s' = ⟨c.now, s.dialer.after c⟩ := by
  rw [step] at h
  split at h
  · cases h
  · rename_i hclock
    exact ⟨not_lt.mp hclock, (Option.some_inj.mp h).symm⟩

/-- What a call does to the window. -/
theorem dialWindow_after (td : Dialer) (c : Call) :
    (td.after c).dialWindow = prune c.now td.dialWindow ++ recorded [c] := by
  cases c with
  | record success now =>
    rw [Dialer.after, Dialer.recordDialOutcome]
    split <;> rfl
  | failRatio now => exact (List.append_nil _).symm

/-- What a call does to the flags. -/
theorem winFired_after (s : State) (c : Call) (t : Tier) :
    (s.dialer.after c).winFired t =
      ((s.evaluated c).map fun r ↦ decide (t.threshold ≤ r)).getD (s.dialer.winFired t) := by
  cases c with
  | record success now =>
    rw [evaluated, Dialer.after, Dialer.recordDialOutcome]
    split <;> rename_i hev <;> rw [hev] <;> rfl
  | failRatio now => rfl

/-- The hook fires when the flag goes up. -/
theorem fires_iff :
    s.fires c t = true ↔
      (∃ r ∈ s.evaluated c, t.threshold ≤ r) ∧ s.dialer.winFired t = false := by
  cases c with
  | record success now =>
    rw [fires, evaluated, Dialer.recordDialOutcome]
    split <;> rename_i hev <;> simp [hev]
  | failRatio now => simp [fires, evaluated]

end State

/-! ## What the window holds -/

/-- The times ascend. -/
def Ascending (l : List DialOutcome) : Prop := l.Pairwise fun o p ↦ o.time ≤ p.time

/-- The outcomes that belong in the window at a time. -/
def within (now : ℤ) (l : List DialOutcome) : List DialOutcome :=
  l.filter fun o ↦ now - dialWinSize ≤ o.time

theorem within_append (now : ℤ) (l m : List DialOutcome) :
    within now (l ++ m) = within now l ++ within now m := List.filter_append ..

/-- In a list that ascends, stopping at the first outcome that is young enough is enough. -/
theorem prune_eq_within {l : List DialOutcome} (h : Ascending l) (now : ℤ) :
    prune now l = within now l := by
  induction l with
  | nil => rfl
  | cons o l ih =>
    rw [Ascending, List.pairwise_cons] at h
    rw [prune, within, List.dropWhile_cons, List.filter_cons]
    by_cases ho : o.time < now - dialWinSize
    · rw [if_pos (decide_eq_true ho), if_neg (by rw [decide_eq_true_eq]; omega)]
      exact ih h.2
    · rw [if_neg (by rw [decide_eq_true_eq]; exact ho), if_pos (by rw [decide_eq_true_eq]; omega)]
      have hall : l.filter (fun o ↦ decide (now - dialWinSize ≤ o.time)) = l := by
        rw [List.filter_eq_self]
        intro p hp
        have hop := h.1 p hp
        simp only [decide_eq_true_eq]
        omega
      rw [hall]

/-- What is too old stays too old. -/
theorem within_within {now later : ℤ} (h : now ≤ later) (l : List DialOutcome) :
    within later (within now l) = within later l := by
  rw [within, within, List.filter_filter, within]
  refine List.filter_congr fun o _ ↦ ?_
  by_cases ho : later - dialWinSize ≤ o.time
  · simp only [ho, decide_true, Bool.true_and, decide_eq_true_eq]
    omega
  · simp [ho]

theorem within_recorded_singleton (c : Call) : within c.now (recorded [c]) = recorded [c] := by
  have hsize : 0 < dialWinSize := by decide
  cases c with
  | record success now =>
    refine List.filter_eq_self.mpr fun o ho ↦ ?_
    rw [List.mem_singleton.mp ho, decide_eq_true_eq, Call.now]
    dsimp only
    omega
  | failRatio now => rfl

/-- Nothing in the window is from the future, and the times ascend. -/
structure Orderly (s : State) : Prop where
  /-- The oldest outcome comes first. -/
  ascending : Ascending s.dialer.dialWindow
  /-- All of them are in the past. -/
  past : ∀ o ∈ s.dialer.dialWindow, o.time ≤ s.clock

namespace State

variable {s s' u v : State} {c a : Call} {t : Tier} {as bs cs : List Call}

theorem dialWindow_step (hs : Orderly s) (h : s.step c = some s') :
    s'.dialer.dialWindow = within c.now (s.dialer.dialWindow ++ recorded [c]) := by
  obtain ⟨-, rfl⟩ := step_eq_some h
  rw [dialWindow_after, prune_eq_within hs.ascending, within_append, within_recorded_singleton]

theorem orderly_step (hs : Orderly s) (h : s.step c = some s') : Orderly s' := by
  have hwin := dialWindow_step hs h
  obtain ⟨hclock, rfl⟩ := step_eq_some h
  have hrec : ∀ o ∈ recorded [c], o.time = c.now := by
    cases c <;> simp [recorded, Call.now]
  have hsub : ∀ o ∈ within c.now (s.dialer.dialWindow ++ recorded [c]), o.time ≤ c.now := by
    intro o ho
    rcases List.mem_append.mp (List.mem_of_mem_filter ho) with ho | ho
    · exact (hs.past o ho).trans hclock
    · exact (hrec o ho).le
  refine ⟨?_, by rw [hwin]; exact hsub⟩
  rw [hwin]
  refine List.Pairwise.filter _ (List.pairwise_append.mpr ⟨hs.ascending, ?_, ?_⟩)
  · cases c <;> simp [recorded]
  · intro o ho p hp
    rw [hrec p hp]
    exact (hs.past o ho).trans hclock

theorem orderly_start (now : ℤ) : Orderly (start now) :=
  ⟨List.Pairwise.nil, by simp [start, Dialer.new]⟩

variable {now : ℤ} {l : List DialOutcome}

theorem orderly_of_exec (h : exec step (start now) cs = some s) : Orderly s :=
  Trace.inv_of_exec orderly_step (orderly_start now) h

/-- After some calls, and at any later time, the window counts for what it held before and what the
calls have recorded. -/
theorem within_dialWindow_exec (hs : Orderly s) (h : exec step s cs = some s')
    (hnow : s'.clock ≤ now) :
    s.clock ≤ s'.clock ∧
      within now s'.dialer.dialWindow = within now (s.dialer.dialWindow ++ recorded cs) := by
  induction cs generalizing s with
  | nil =>
    rw [exec_nil, Option.some_inj] at h
    subst h
    simp [recorded]
  | cons c cs ih =>
    obtain ⟨u, hu, hus⟩ := Trace.exec_cons_eq_some.mp h
    obtain ⟨hmono, hwin⟩ := ih (orderly_step hs hu) hus
    have hstep := dialWindow_step hs hu
    obtain ⟨hclock, rfl⟩ := step_eq_some hu
    dsimp only at hmono hstep hwin
    refine ⟨hclock.trans hmono, ?_⟩
    rw [hwin, hstep, within_append, within_within (hmono.trans hnow), ← within_append,
      List.append_assoc, ← recorded_append, List.singleton_append]

/-! ## When the hooks fire -/

theorem evaluate_eq_some {r : ℚ} (h : evaluate now l = some r) :
    ∃ o m, l = o :: m ∧ dialWinMinSamples ≤ l.length ∧ dialWinMinSpan ≤ now - o.time ∧
      r = ratio l := by
  cases l with
  | nil => cases h
  | cons o m =>
    rw [evaluate] at h
    split at h
    · rename_i hguard
      exact ⟨o, m, rfl, hguard.1, hguard.2, (Option.some_inj.mp h).symm⟩
    · cases h

/-- A threshold without division. -/
theorem mul_length_le_of_evaluate {r : ℚ} {n d : ℕ} (h : evaluate now l = some r) (hd : 0 < d)
    (hle : (n : ℚ) / d ≤ r) :
    n * l.length ≤ d * fails l := by
  obtain ⟨o, m, rfl, -, -, rfl⟩ := evaluate_eq_some h
  have hlen : (0 : ℚ) < (o :: m).length := by exact_mod_cast Nat.succ_pos m.length
  rw [ratio, div_le_div_iff₀ (by exact_mod_cast hd) hlen, mul_comm (fails (o :: m) : ℚ)] at hle
  exact_mod_cast hle

/-- `FailRatio` judges by the same rule. -/
theorem failRatio_eq (td : Dialer) (now : ℤ) :
    (td.failRatio now).2 = (evaluate now (prune now td.dialWindow)).getD 0 := by
  rw [Dialer.failRatio]
  dsimp only
  cases prune now td.dialWindow with
  | nil => rfl
  | cons o l =>
    rw [evaluate]
    by_cases hlen : (o :: l).length < dialWinMinSamples
    · rw [if_pos hlen, if_neg fun h ↦ absurd h.1 (by omega)]
      rfl
    · rw [if_neg hlen]
      dsimp only
      by_cases hspan : now - o.time < dialWinMinSpan
      · rw [if_pos hspan, if_neg fun h ↦ absurd h.2 (by omega)]
        rfl
      · rw [if_neg hspan, if_pos ⟨by omega, by omega⟩]
        rfl

/-- The outcome is judged by the window the call leaves. -/
theorem evaluated_eq (h : s.step c = some s') {r : ℚ} (hr : s.evaluated c = some r) :
    evaluate c.now s'.dialer.dialWindow = some r := by
  obtain ⟨-, rfl⟩ := step_eq_some h
  rw [dialWindow_after]
  cases c with
  | record success now => exact hr
  | failRatio now => cases hr

/-- The flag of the hard tier is up only if that of the soft tier is. -/
def Nested (s : State) : Prop :=
  s.dialer.winFired .data = true → s.dialer.winFired .first = true

theorem nested_step (hs : s.Nested) (h : s.step c = some s') : s'.Nested := by
  obtain ⟨-, rfl⟩ := step_eq_some h
  rw [Nested, winFired_after, winFired_after]
  cases s.evaluated c with
  | none => exact hs
  | some r =>
    simp only [Option.map_some, Option.getD_some, decide_eq_true_eq]
    intro hdata
    have hle : Tier.first.threshold ≤ Tier.data.threshold := by decide +kernel
    exact hle.trans hdata

theorem winFired_of_fires (ha : s.fires a t = true) (h : s.step a = some s') :
    s'.dialer.winFired t = true := by
  obtain ⟨⟨r, hr, hle⟩, -⟩ := fires_iff.mp ha
  obtain ⟨-, rfl⟩ := step_eq_some h
  rw [winFired_after, hr]
  simpa using hle

/-- A flag comes down in a call that is judged below the threshold. -/
theorem below_of_winFired_step (h : s.step c = some s') (hup : s.dialer.winFired t = true)
    (hdown : s'.dialer.winFired t = false) : ∃ r ∈ s.evaluated c, r < t.threshold := by
  obtain ⟨-, rfl⟩ := step_eq_some h
  rw [winFired_after] at hdown
  cases hev : s.evaluated c with
  | none =>
    rw [hev, Option.map_none, Option.getD_none, hup] at hdown
    cases hdown
  | some r =>
    rw [hev] at hdown
    exact ⟨r, rfl, by simpa using hdown⟩

/-- What is promised of a call `c` in the state `s` that the calls `cs` have led to, and of the
state `s'` after it. -/
structure EvictionInvariant (now₀ : ℤ) (cs : List Call) (s : State) (c : Call) (s' : State) :
    Prop where
  /-- The window is what was recorded in the last thirty seconds. -/
  window : s'.dialer.dialWindow = within c.now (recorded (cs ++ [c]))
  /-- A hook fires only if there is enough to judge by. -/
  guarded : ∀ t, s.fires c t = true → ∃ o l, s'.dialer.dialWindow = o :: l ∧
    3 ≤ s'.dialer.dialWindow.length ∧ 10 * second ≤ c.now - o.time
  /-- The soft hook fires only if half of the outcomes are failures. -/
  soft : s.fires c .first = true →
    s'.dialer.dialWindow.length ≤ 2 * fails s'.dialer.dialWindow
  /-- The hard hook fires only if four fifths of the outcomes are failures. -/
  hard : s.fires c .data = true →
    4 * s'.dialer.dialWindow.length ≤ 5 * fails s'.dialer.dialWindow
  /-- The flag of the hard tier is up only if that of the soft tier is. -/
  flags : s'.Nested
  /-- Between two firings of a hook an outcome was judged to be below its threshold. -/
  between : ∀ t as a bs u, cs = as ++ a :: bs → exec step (start now₀) as = some u →
    u.fires a t = true → s.fires c t = true →
    ∃ bs₁ b bs₂ w r, bs = bs₁ ++ b :: bs₂ ∧
      exec step (start now₀) (as ++ a :: bs₁) = some w ∧ w.evaluated b = some r ∧
      r < t.threshold
  /-- `FailRatio` at the same instant returns the ratio the outcome was judged by. -/
  failRatio : (∃ success, c = .record success c.now) →
    (s'.dialer.failRatio c.now).2 = (s.evaluated c).getD 0

/-- **The eviction window**: in every sequence of calls at times that do not go back, every call
does what is promised. -/
theorem eviction_invariant (now₀ : ℤ) {cs : List Call}
    (h : exec step (start now₀) cs = some s) :
    s.Nested ∧ ∀ c s', s.step c = some s' → EvictionInvariant now₀ cs s c s' := by
  have hnested : s.Nested := Trace.inv_of_exec nested_step (by simp [Nested, start, Dialer.new]) h
  refine ⟨hnested, fun c s' hc ↦ ?_⟩
  have hwindow : s'.dialer.dialWindow = within c.now (recorded (cs ++ [c])) := by
    obtain ⟨hclock, -⟩ := step_eq_some hc
    obtain ⟨-, hwin⟩ := within_dialWindow_exec (orderly_start now₀) h hclock
    rw [dialWindow_step (orderly_of_exec h) hc, within_append, hwin, ← within_append,
      recorded_append]
    rfl
  have hjudged : ∀ t, s.fires c t = true → ∃ r, evaluate c.now s'.dialer.dialWindow = some r ∧
      t.threshold ≤ r := by
    intro t ht
    obtain ⟨⟨r, hr, hle⟩, -⟩ := fires_iff.mp ht
    exact ⟨r, evaluated_eq hc hr, hle⟩
  refine ⟨hwindow, ?_, ?_, ?_, nested_step hnested hc, ?_, ?_⟩
  · intro t ht
    obtain ⟨r, hr, -⟩ := hjudged t ht
    obtain ⟨o, l, hcons, hlen, hspan, -⟩ := evaluate_eq_some hr
    exact ⟨o, l, hcons, hlen, hspan⟩
  · intro ht
    obtain ⟨r, hr, hle⟩ := hjudged .first ht
    have hhalf : ((1 : ℕ) : ℚ) / (2 : ℕ) ≤ r := by simpa [Tier.threshold] using hle
    simpa using mul_length_le_of_evaluate hr two_pos hhalf
  · intro ht
    obtain ⟨r, hr, hle⟩ := hjudged .data ht
    have hfifths : ((4 : ℕ) : ℚ) / (5 : ℕ) ≤ r := by simpa [Tier.threshold] using hle
    exact mul_length_le_of_evaluate hr (by omega) hfifths
  · intro t as a bs u hcs hu ha ht
    obtain ⟨u', hu', hrest⟩ := Trace.exec_append.mp (hcs ▸ h)
    rw [hu, Option.some_inj] at hu'
    subst hu'
    obtain ⟨v, hv, hvs⟩ := Trace.exec_cons_eq_some.mp hrest
    have hup := winFired_of_fires ha hv
    have hdown := (fires_iff.mp ht).2
    obtain ⟨bs₁, b, bs₂, w, w', hbs, hw, hstep, -, hw_up, hw_down⟩ :=
      exists_step_of_exec (P := fun s ↦ s.dialer.winFired t = false) (by simp [hup]) hdown hvs
    obtain ⟨r, hr, hlt⟩ := below_of_winFired_step hstep (by simpa using hw_up) hw_down
    exact ⟨bs₁, b, bs₂, w, r, hbs,
      Trace.exec_append.mpr ⟨u, hu, Trace.exec_cons_eq_some.mpr ⟨v, hv, hw⟩⟩, hr, hlt⟩
  · rintro ⟨success, hrec⟩
    have hasc := (orderly_step (orderly_of_exec h) hc).ascending
    have hpruned : prune c.now s'.dialer.dialWindow = s'.dialer.dialWindow := by
      rw [prune_eq_within hasc, hwindow, within_within le_rfl]
    rw [failRatio_eq, hpruned]
    obtain ⟨-, rfl⟩ := step_eq_some hc
    rw [dialWindow_after, hrec]
    rfl

/-- Three failures over ten seconds, and a look at the ratio. -/
theorem eviction_invariant_demo :
    ∃ s s', exec step (start 0) [.record false 0, .record false (5 * second)] = some s ∧
      s.step (.record false (10 * second)) = some s' ∧
      EvictionInvariant 0 [.record false 0, .record false (5 * second)] s
        (.record false (10 * second)) s' :=
  ⟨_, _, rfl, rfl, (eviction_invariant 0 rfl).2 _ _ rfl⟩

/-! ## Firing again -/

/-- The ratio of the last outcome that was judged in a run. -/
def lastEvaluated : State → List Call → Option ℚ
  | _, [] => none
  | s, c :: cs => ((s.step c).bind fun s' ↦ lastEvaluated s' cs).or (s.evaluated c)

/-- The flag tells how the last outcome that was judged turned out. -/
theorem winFired_exec (h : exec step s cs = some s') (t : Tier) :
    s'.dialer.winFired t =
      ((lastEvaluated s cs).map fun r ↦ decide (t.threshold ≤ r)).getD (s.dialer.winFired t) := by
  induction cs generalizing s with
  | nil =>
    rw [exec_nil, Option.some_inj] at h
    subst h
    rfl
  | cons c cs ih =>
    obtain ⟨u, hu, hus⟩ := Trace.exec_cons_eq_some.mp h
    have hlast := ih hus
    rw [lastEvaluated, hu, Option.bind_some]
    obtain ⟨-, rfl⟩ := step_eq_some hu
    rw [hlast, winFired_after]
    cases lastEvaluated ⟨c.now, s.dialer.after c⟩ cs <;> rfl

/-- **A hook fires again** at an outcome that is judged at its threshold or above if and only if the
last outcome that was judged since it fired, at `a`, is below. -/
theorem fires_again_iff (ha : u.fires a t = true) (hv : u.step a = some v)
    (hs : exec step v bs = some s) {r : ℚ} (hr : s.evaluated c = some r)
    (hle : t.threshold ≤ r) :
    s.fires c t = true ↔ ∃ q ∈ lastEvaluated v bs, q < t.threshold := by
  have hjudged : ∃ r ∈ s.evaluated c, t.threshold ≤ r := ⟨r, hr, hle⟩
  rw [fires_iff, winFired_exec hs t, winFired_of_fires ha hv, and_iff_right hjudged]
  cases lastEvaluated v bs <;> simp

end State

namespace Demo

/-- Three failures over ten seconds, which fire both hooks. -/
def degraded : List Call := [.record false 0, .record false (5 * second)]

/-- The third of them. -/
def third : Call := .record false (10 * second)

/-- Four successes, the last of which is judged by three failures out of seven. -/
def recovering : List Call :=
  [.record true (12 * second), .record true (14 * second), .record true (16 * second),
    .record true (18 * second)]

/-- One more failure, which makes it four out of eight. -/
def relapsing : Call := .record false (20 * second)

/-- Nothing happens for a while, `FailRatio` is asked, and then there are failures again. -/
def quiet : List Call :=
  [.failRatio (60 * second), .record false (70 * second), .record false (75 * second)]

/-- The third failure after the pause. -/
def sixth : Call := .record false (80 * second)

end Demo

namespace State

theorem fires_again_iff_demo :
    ∃ u v s, exec step (start 0) Demo.degraded = some u ∧ u.step Demo.third = some v ∧
      exec step v Demo.recovering = some s ∧ s.fires Demo.relapsing .first = true := by
  have hrun : (exec step (start 0) Demo.degraded).bind (fun u ↦
      (u.step Demo.third).bind fun v ↦ (exec step v Demo.recovering).map fun s ↦
        (u.fires Demo.third .first, s.evaluated Demo.relapsing,
          lastEvaluated v Demo.recovering)) = some (true, some (1 / 2), some (3 / 7)) := by
    decide +kernel
  obtain ⟨u, hu, hrun⟩ := Option.bind_eq_some_iff.mp hrun
  obtain ⟨v, hv, hrun⟩ := Option.bind_eq_some_iff.mp hrun
  obtain ⟨s, hs, hfacts⟩ := Option.map_eq_some_iff.mp hrun
  simp only [Prod.mk.injEq] at hfacts
  obtain ⟨hfires, hjudged, hlast⟩ := hfacts
  exact ⟨u, v, s, hu, hv, hs, (fires_again_iff hfires hv hs hjudged (by decide +kernel)).mpr
    ⟨3 / 7, hlast, by decide +kernel⟩⟩

/-- Both hooks have fired, the window has emptied itself and `FailRatio` is zero; the next outcome
that is judged has nothing but failures, and no hook fires. -/
theorem quiet_not_rearmed :
    (exec step (start 0) Demo.degraded).bind (fun u ↦
      (u.step Demo.third).bind fun v ↦ (exec step v Demo.quiet).map fun s ↦
        ([Tier.first, .data].map (u.fires Demo.third), (v.dialer.failRatio (60 * second)).2,
          s.evaluated Demo.sixth, [Tier.first, .data].map (s.fires Demo.sixth))) =
      some ([true, true], 0, some 1, [false, false]) := by
  decide +kernel

end State

end TunnelCat.DialWindow
