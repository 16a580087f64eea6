import Mathlib.Data.List.Basic

/-!
# Runs of a step function

A concurrent program is modelled as a state type `σ`, an event type `ε` and a partial function
`step : σ → ε → Option σ`.  An event says *which* goroutine moves and *what* its environment
answers — the bytes a request returned, whether a write succeeded — so all the nondeterminism of
the program sits in the list of events, and the step function itself computes.  `none` means the
event is not possible in that state.

`Trace.exec` runs a list of events.  Whatever is true of `exec step s es` for every list `es` is
true of every interleaving.  `Trace.Along` restricts the runs: it says that a condition holds of the
state and the event at every step that is taken, and `inv_of_exec_along` is the induction rule that
goes with it.  `inv_of_exec` is the same rule for unrestricted runs, `history_of_exec` is the rule
for invariants that speak of the events so far, `inv_iff_along` is the rule for a condition that is
necessary as well (`inv_iff_and_along` among runs that keep to another condition), `along_of_inv`
makes an invariant a condition of every step, `along_iff_along` compares two conditions,
`forall_states_iff_along` turns a statement about every state of a run into one about its steps, and
`exists_step_of_exec` finds the step in which something has become true.

What is seen of a run from outside often does not follow from its events alone: that a payload was
put into a queue is a matter of the event and of the state in which it happens.  `Trace.observed` is
the list of what is seen in the steps of a run, and `observed_of_exec` is the rule for invariants
that speak of it.
-/

set_option autoImplicit false

namespace Trace

universe u v

variable {σ : Type u} {ε : Type v}

/-- The state a list of events leads to, if every one of them is possible when its turn comes. -/
def exec (step : σ → ε → Option σ) : σ → List ε → Option σ
  | s, [] => some s
  | s, e :: es => (step s e).bind fun t ↦ exec step t es

/-- The condition `C` holds of the state before and the event of every step of the run. -/
def Along (step : σ → ε → Option σ) (C : σ → ε → Prop) : σ → List ε → Prop
  | _, [] => True
  | s, e :: es => C s e ∧ ∀ t, step s e = some t → Along step C t es

variable {step : σ → ε → Option σ} {C : σ → ε → Prop} {P : σ → Prop}

@[simp] theorem exec_nil (s : σ) : exec step s [] = some s := rfl

variable {es : List ε} {s t : σ} {D : σ → ε → Prop}

theorem exec_cons_eq_some {e : ε} :
    exec step s (e :: es) = some t ↔ ∃ u, step s e = some u ∧ exec step u es = some t := by
  rw [exec, Option.bind_eq_some_iff]

theorem exec_append {es fs : List ε} :
    exec step s (es ++ fs) = some t ↔ ∃ u, exec step s es = some u ∧ exec step u fs = some t := by
  induction es generalizing s with
  | nil => simp
  | cons e es ih =>
    rw [List.cons_append]
    simp only [exec_cons_eq_some, ih]
    exact ⟨fun ⟨u, hu, v, hv, ht⟩ ↦ ⟨v, ⟨u, hu, hv⟩, ht⟩,
      fun ⟨v, ⟨u, hu, hv⟩, ht⟩ ↦ ⟨u, hu, v, hv, ht⟩⟩

/-- **Invariants of restricted runs**: what holds initially, and is kept by every step that meets
the condition, holds wherever a run whose steps all meet it ends. -/
theorem inv_of_exec_along (hstep : ∀ {s e t}, P s → C s e → step s e = some t → P t) (hs : P s)
    (hc : Along step C s es) (h : exec step s es = some t) : P t := by
  induction es generalizing s with
  | nil => rw [exec_nil, Option.some_inj] at h; exact h ▸ hs
  | cons e es ih =>
    obtain ⟨u, hu, hut⟩ := exec_cons_eq_some.mp h
    exact ih (hstep hs hc.1 hu) (hc.2 u hu) hut

/-- A restriction on the events alone. -/
theorem along_of_forall_mem {D : ε → Prop} (h : ∀ e ∈ es, D e) (s : σ) :
    Along step (fun _ ↦ D) s es := by
  induction es generalizing s with
  | nil => trivial
  | cons e es ih =>
    exact ⟨h e (List.mem_cons_self ..), fun t _ ↦ ih (fun e he ↦ h e (List.mem_cons_of_mem _ he)) t⟩

/-- **The exact restriction, among runs that keep to another**: if a step leads to the invariant
exactly from the invariant and by the condition, then so does a run.  What it keeps to, and what
follows from that, can be assumed. -/
theorem inv_iff_and_along {I : σ → Prop} {K : σ → ε → Prop}
    (hI : ∀ {s e t}, I s → K s e → step s e = some t → I t)
    (hiff : ∀ {s e t}, I s → K s e → step s e = some t → (P t ↔ P s ∧ C s e)) (hs : I s)
    (hk : Along step K s es) (h : exec step s es = some t) :
    P t ↔ P s ∧ Along step C s es := by
  induction es generalizing s with
  | nil =>
    rw [exec_nil, Option.some_inj] at h
    exact h ▸ ⟨fun hp ↦ ⟨hp, trivial⟩, And.left⟩
  | cons e es ih =>
    obtain ⟨u, hu, hut⟩ := exec_cons_eq_some.mp h
    have honly : ∀ v, step s e = some v → v = u := fun v hv ↦ Option.some_inj.mp (hv.symm.trans hu)
    rw [ih (hI hs hk.1 hu) (hk.2 u hu) hut, hiff hs hk.1 hu, and_assoc]
    refine and_congr_right fun _ ↦ and_congr_right fun _ ↦ ?_
    exact ⟨fun hc v hv ↦ honly v hv ▸ hc, fun hc ↦ hc u hu⟩

/-- **The exact restriction**: if a step keeps the invariant exactly when it meets the condition,
and an invariant that is lost stays lost, then the runs that keep the invariant are those whose
steps all meet the condition. -/
theorem inv_iff_along (hiff : ∀ {s e t}, P s → step s e = some t → (P t ↔ C s e))
    (hlost : ∀ {s e t}, step s e = some t → P t → P s) (hs : P s) (h : exec step s es = some t) :
    P t ↔ Along step C s es := by
  have hall : Along step (fun _ _ ↦ True) s es := along_of_forall_mem (fun _ _ ↦ trivial) s
  have hstep : ∀ {s e t}, True → True → step s e = some t → (P t ↔ P s ∧ C s e) :=
    fun _ _ he ↦ ⟨fun ht ↦ ⟨hlost he ht, (hiff (hlost he ht) he).mp ht⟩,
      fun hp ↦ (hiff hp.1 he).mpr hp.2⟩
  rw [inv_iff_and_along (I := fun _ ↦ True) (fun _ _ _ ↦ trivial) hstep trivial hall h,
    and_iff_right hs]

theorem Along.mono (h : ∀ s e, C s e → D s e) {s : σ} (hc : Along step C s es) :
    Along step D s es := by
  induction es generalizing s with
  | nil => trivial
  | cons e es ih => exact ⟨h s e hc.1, fun t ht ↦ ih (hc.2 t ht)⟩

/-- **What an invariant says of every step**: a condition that follows from an invariant, for events
that keep it, holds along every run of such events. -/
theorem along_of_inv {D : ε → Prop} (hinv : ∀ {s e}, P s → D e → C s e)
    (hstep : ∀ {s e t}, P s → D e → step s e = some t → P t) {s : σ} (hs : P s)
    (hes : ∀ e ∈ es, D e) : Along step C s es := by
  induction es generalizing s with
  | nil => trivial
  | cons e es ih =>
    have he : D e := hes e (List.mem_cons_self ..)
    exact ⟨hinv hs he, fun t ht ↦ ih (hstep hs he ht) fun f hf ↦ hes f (List.mem_cons_of_mem _ hf)⟩

/-- A condition that holds along a run holds of each of its steps. -/
theorem Along.of_split {s u : σ} {e : ε} {pre post : List ε}
    (hc : Along step C s (pre ++ e :: post)) (h : exec step s pre = some u) : C u e := by
  induction pre generalizing s with
  | nil => rw [exec_nil, Option.some_inj] at h; exact h ▸ hc.1
  | cons f pre ih =>
    obtain ⟨v, hv, hvu⟩ := exec_cons_eq_some.mp h
    exact ih (hc.2 v hv) hvu

/-- **Invariants of runs**: what holds initially and is kept by every step holds at the end. -/
theorem inv_of_exec (hstep : ∀ {s e t}, P s → step s e = some t → P t) (hs : P s)
    (h : exec step s es = some t) : P t := by
  have hall : Along step (fun _ _ ↦ True) s es := along_of_forall_mem (fun _ _ ↦ trivial) s
  exact inv_of_exec_along (fun hp _ he ↦ hstep hp he) hs hall h

/-- **Invariants of runs and what happened in them**: what holds initially of no events, and is kept
when a step adds its event, holds of the state and the events at the end. -/
theorem history_of_exec {P : List ε → σ → Prop}
    (hstep : ∀ {es s e t}, P es s → step s e = some t → P (es ++ [e]) t) (hs : P [] s)
    (h : exec step s es = some t) : P es t := by
  have hpre : ∀ {es pre s}, P pre s → exec step s es = some t → P (pre ++ es) t := by
    intro es
    induction es with
    | nil =>
      intro pre s hp h
      rw [exec_nil, Option.some_inj] at h
      rwa [List.append_nil, ← h]
    | cons e es ih =>
      intro pre s hp h
      obtain ⟨u, hu, hut⟩ := exec_cons_eq_some.mp h
      rw [List.append_cons]
      exact ih (hstep hp hu) hut
  exact hpre hs h

/-- What is seen in the steps of a run, one after the other. -/
def observed {α : Type*} (step : σ → ε → Option σ) (look : σ → ε → Option α) : σ → List ε → List α
  | _, [] => []
  | s, e :: es => (look s e).toList ++ ((step s e).elim [] fun t ↦ observed step look t es)

theorem observed_cons {α : Type*} {look : σ → ε → Option α} {s u : σ} {e : ε}
    (h : step s e = some u) (es : List ε) :
    observed step look s (e :: es) = (look s e).toList ++ observed step look u es := by
  rw [observed, h, Option.elim_some]

theorem observed_append {α : Type*} {look : σ → ε → Option α} (h : exec step s es = some t)
    (fs : List ε) :
    observed step look s (es ++ fs) = observed step look s es ++ observed step look t fs := by
  induction es generalizing s with
  | nil =>
    rw [exec_nil, Option.some_inj] at h
    rw [List.nil_append, h]
    rfl
  | cons e es ih =>
    obtain ⟨u, hu, hut⟩ := exec_cons_eq_some.mp h
    rw [List.cons_append, observed_cons hu, observed_cons hu, ih hut, List.append_assoc]

/-- **Invariants of runs and what was seen of them**: what holds initially of nothing seen, and is
kept when a step adds what is seen of it, holds of the state at the end and of all that was seen. -/
theorem observed_of_exec {α : Type*} {look : σ → ε → Option α} {P : List α → σ → Prop}
    (hstep : ∀ {l s e t}, P l s → step s e = some t → P (l ++ (look s e).toList) t) (hs : P [] s)
    (h : exec step s es = some t) :
    P (observed step look s es) t := by
  have hpre : ∀ {es l s}, P l s → exec step s es = some t →
      P (l ++ observed step look s es) t := by
    intro es
    induction es with
    | nil =>
      intro l s hp h
      rw [exec_nil, Option.some_inj] at h
      rwa [observed, List.append_nil, ← h]
    | cons e es ih =>
      intro l s hp h
      obtain ⟨u, hu, hut⟩ := exec_cons_eq_some.mp h
      rw [observed_cons hu, ← List.append_assoc]
      exact ih (hstep hp hu) hut
  exact hpre hs h

/-- **What becomes true becomes true in some step.** -/
theorem exists_step_of_exec (hs : ¬P s) (ht : P t) (h : exec step s es = some t) :
    ∃ pre e post u v, es = pre ++ e :: post ∧ exec step s pre = some u ∧ step u e = some v ∧
      exec step v post = some t ∧ ¬P u ∧ P v := by
  induction es generalizing s with
  | nil =>
    rw [exec_nil, Option.some_inj] at h
    exact absurd (h ▸ ht) hs
  | cons e es ih =>
    obtain ⟨u, hu, hut⟩ := exec_cons_eq_some.mp h
    by_cases hP : P u
    · exact ⟨[], e, es, s, u, rfl, rfl, hu, hut, hs, hP⟩
    · obtain ⟨pre, e', post, v, w, rfl, hpre, hrest⟩ := ih hP hut
      exact ⟨e :: pre, e', post, v, w, rfl, exec_cons_eq_some.mpr ⟨u, hu, hpre⟩, hrest⟩

theorem along_congr (h : ∀ s e, C s e ↔ D s e) (s : σ) (es : List ε) :
    Along step C s es ↔ Along step D s es := by
  induction es generalizing s with
  | nil => exact Iff.rfl
  | cons e es ih => exact and_congr (h s e) (forall₂_congr fun t _ ↦ ih t)

/-- **Restrictions that agree as far as the run gets**: two conditions that are the same for a step
from a state with the invariant, which the first of them keeps, are the same along a run. -/
theorem along_iff_along {E : ε → Prop}
    (hiff : ∀ {s e t}, P s → E e → step s e = some t → (C s e ↔ D s e))
    (hstep : ∀ {s e t}, P s → C s e → step s e = some t → P t) (hs : P s) (hes : ∀ e ∈ es, E e)
    (h : exec step s es = some t) :
    Along step C s es ↔ Along step D s es := by
  induction es generalizing s with
  | nil => exact Iff.rfl
  | cons e es ih =>
    obtain ⟨u, hu, hut⟩ := exec_cons_eq_some.mp h
    have honly : ∀ v, step s e = some v → v = u := fun v hv ↦ Option.some_inj.mp (hv.symm.trans hu)
    have hfirst : C s e ↔ D s e := hiff hs (hes e (List.mem_cons_self ..)) hu
    have hrest : ∀ f ∈ es, E f := fun f hf ↦ hes f (List.mem_cons_of_mem _ hf)
    refine ⟨fun hc ↦ ⟨hfirst.mp hc.1, fun v hv ↦ ?_⟩, fun hd ↦ ⟨hfirst.mpr hd.1, fun v hv ↦ ?_⟩⟩
    · rw [honly v hv]
      exact (ih (hstep hs hc.1 hu) hrest hut).mp (hc.2 u hu)
    · rw [honly v hv]
      exact (ih (hstep hs (hfirst.mpr hd.1) hu) hrest hut).mpr (hd.2 u hu)

/-- **What holds in every state of a run** is what every step of it leads to. -/
theorem forall_states_iff_along {s : σ} (hs : P s) :
    (∀ pre post t, es = pre ++ post → exec step s pre = some t → P t) ↔
      Along step (fun s e ↦ ∀ t, step s e = some t → P t) s es := by
  induction es generalizing s with
  | nil =>
    refine ⟨fun _ ↦ trivial, fun _ pre post t hsplit h ↦ ?_⟩
    rw [(List.nil_eq_append_iff.mp hsplit).1, exec_nil, Option.some_inj] at h
    exact h ▸ hs
  | cons e es ih =>
    refine ⟨fun h ↦ ?_, fun h pre post t hsplit ht ↦ ?_⟩
    · have hnext : ∀ t, step s e = some t → P t := fun t ht ↦
        h [e] es t rfl (exec_cons_eq_some.mpr ⟨t, ht, rfl⟩)
      refine ⟨hnext, fun t ht ↦ (ih (hnext t ht)).mp fun pre post u hsplit hu ↦ ?_⟩
      exact h (e :: pre) post u (by rw [hsplit, List.cons_append])
        (exec_cons_eq_some.mpr ⟨t, ht, hu⟩)
    · cases pre with
      | nil =>
        rw [exec_nil, Option.some_inj] at ht
        exact ht ▸ hs
      | cons f pre =>
        rw [List.cons_append, List.cons.injEq] at hsplit
        obtain ⟨rfl, hsplit⟩ := hsplit
        obtain ⟨u, hu, hut⟩ := exec_cons_eq_some.mp ht
        exact (ih (h.1 u hu)).mpr (h.2 u hu) pre post t hsplit hut

/-- A restriction that can be tested can be tested along a run. -/
instance decidableAlong [∀ s e, Decidable (C s e)] :
    ∀ (s : σ) (es : List ε), Decidable (Along step C s es)
  | _, [] => isTrue trivial
  | s, e :: es =>
    match h : step s e with
    | none => decidable_of_iff (C s e) ⟨fun hc ↦ ⟨hc, fun t ht ↦ by simp [h] at ht⟩, fun hc ↦ hc.1⟩
    | some t =>
      have := decidableAlong t es
      decidable_of_iff (C s e ∧ Along step C t es)
        (and_congr_right fun _ ↦
          ⟨fun ht u hu ↦ by rw [h, Option.some_inj] at hu; exact hu ▸ ht, fun ht ↦ ht t h⟩)

end Trace
