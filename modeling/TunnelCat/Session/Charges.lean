import TunnelCat.Session.Retries

/-!
# What the dialer is charged with

`recordStreamDead` counts against the control node that a connection goes through.  The stream loop
calls it in two ways: `renewStream` calls it each time it grants a new `streamFn`, and `giveUp`
calls it through `onStreamDead`, unless the exit has said that the target is closed.

Both are done by `renewOrGiveUp`, and so only when one of the two counters has come to five
(`Tips`).  From this follows how often it is done in the whole life of a connection, and what must
have gone before (`accounted_of_exec`): the counters count what came last since the last renewal, so
five attempts in a row have failed in the same way.

The counters do not know of `Close`.  It cancels the context of the attempt in progress, which then
fails like any other; and if it is the fifth in a row to do so, the control node is charged for it
(`charged_on_close`).  `streamDead_of_inProgress` says that this is the only way: an attempt in
progress leads to a charge exactly if it completes one of the two counters, and once `closed` is
closed, no other attempt is begun.
-/

set_option autoImplicit false

namespace TunnelCat.Session

/-- How an attempt of the stream loop ends. -/
inductive Fate where
  /-- The stream cannot be opened, for another reason than a 404. -/
  | openError
  /-- The stream is refused with a 404. -/
  | notFound
  /-- The stream opens and dies within `streamMinLifetime`. -/
  | flap
  /-- The stream opens and lives longer. -/
  | lived
  deriving DecidableEq, Repr

namespace Conn

/-- The fate of the attempt that ends with an event. -/
def Event.fate : Event → Option Fate
  | .loop .openFailed => some .openError
  | .loop .notFound => some .notFound
  | .loop (.judge true) => some .flap
  | .loop (.judge false) => some .lived
  | _ => none

/-- The fates of the attempts that have ended in a run. -/
def fates (es : List Event) : List Fate := es.filterMap Event.fate

theorem fates_append (es fs : List Event) : fates (es ++ fs) = fates es ++ fates fs :=
  List.filterMap_append ..

theorem fates_singleton (e : Event) : fates [e] = e.fate.toList := by
  cases h : e.fate <;> simp [fates, h]

/-- What the stream loop is doing. -/
inductive Stage where
  /-- It is between two attempts. -/
  | between
  /-- It is opening a stream. -/
  | opening
  /-- It is reading a stream, or finding out how long it has lived. -/
  | streaming
  /-- It has ended, or there is none. -/
  | over
  deriving DecidableEq, Repr

/-- What the stream loop of a connection is doing. -/
def stage (c : Conn) : Stage :=
  match c.loop with
  | .top | .waiting => .between
  | .opening => .opening
  | .reading | .holding _ _ | .offering _ _ | .ended => .streaming
  | .exiting | .done => .over

variable {c t : Conn} {e : Event}

/-! ## One step -/

/-- The event completes five failures in a row, by the counters. -/
def Tips (c : Conn) : Event → Prop
  | .loop .openFailed => streamMaxOpenErrors ≤ c.openErrors + 1
  | .loop (.judge true) => streamMaxFlaps ≤ c.flaps + 1
  | _ => False

/-- Where the loop is when an attempt fails with the event. -/
def Event.failsIn : Event → Stage
  | .loop .openFailed => .opening
  | _ => .streaming

/-- The dialer has been charged with this, and this many renewals have been granted. -/
def account (c : Conn) : ℕ × ℕ := (c.streamDead, c.renewals)

/-- What an event can do to the stream loop, its counters and the account. -/
inductive Turn (c : Conn) : Event → Conn → Prop where
  /-- Nothing. -/
  | stay {e : Event} {t : Conn} : e.fate = none → t.stage = c.stage → t.openErrors = c.openErrors →
      t.flaps = c.flaps → t.account = c.account → Turn c e t
  /-- An attempt begins. -/
  | begins {e : Event} {t : Conn} : e.fate = none → c.stage = .between → c.closed = false →
      t.stage = .opening → t.openErrors = c.openErrors → t.flaps = c.flaps →
      t.account = c.account → Turn c e t
  /-- A stream opens. -/
  | opens {e : Event} {t : Conn} : e.fate = none → c.stage = .opening → t.stage = .streaming →
      t.openErrors = 0 → t.flaps = c.flaps → t.account = c.account → Turn c e t
  /-- The loop notices that the connection is closed. -/
  | leaves {e : Event} {t : Conn} : e.fate = none → c.stage ≠ .over → t.stage = .over →
      t.account = c.account → Turn c e t
  /-- The exit has closed the connection. -/
  | notFound {t : Conn} : c.stage = .opening → t.stage = .over → t.account = c.account →
      Turn c (.loop .notFound) t
  /-- A stream ends after a while. -/
  | lived {t : Conn} : c.stage = .streaming → t.stage = .between → t.openErrors = c.openErrors →
      t.flaps = 0 → t.account = c.account → Turn c (.loop (.judge false)) t
  /-- A stream cannot be opened. -/
  | refused {t : Conn} : c.stage = .opening → ¬c.Tips (.loop .openFailed) → t.stage = .between →
      t.openErrors = c.openErrors + 1 → t.flaps = 0 → t.account = c.account →
      Turn c (.loop .openFailed) t
  /-- A stream dies early. -/
  | flapped {t : Conn} : c.stage = .streaming → ¬c.Tips (.loop (.judge true)) →
      t.stage = .between → t.openErrors = c.openErrors → t.flaps = c.flaps + 1 →
      t.account = c.account → Turn c (.loop (.judge true)) t
  /-- It was the fifth to fail in a row, and a renewal is granted. -/
  | renewed {e : Event} {t : Conn} : c.Tips e → c.stage = e.failsIn → c.renewals < maxRenewals →
      t.stage = .between → t.openErrors = 0 → t.flaps = 0 →
      t.account = (c.streamDead + 1, c.renewals + 1) → Turn c e t
  /-- It was the fifth to fail in a row, and the loop gives up. -/
  | exhausted {e : Event} {t : Conn} : c.Tips e → c.stage = e.failsIn → maxRenewals ≤ c.renewals →
      t.stage = .over → t.account = (c.streamDead + 1, c.renewals) → Turn c e t

theorem turn_renewOrGiveUp {u : Conn} (htip : c.Tips e)
    (hstage : c.stage = e.failsIn) (hacc : u.account = c.account) :
    Turn c e u.renewOrGiveUp := by
  obtain ⟨hdead, hren⟩ := Prod.mk.inj hacc
  by_cases h : u.renewals < maxRenewals
  · rw [renewOrGiveUp, if_pos h]
    refine .renewed htip hstage (hren ▸ h) rfl rfl rfl ?_
    rw [account, hdead, hren]
  · rw [renewOrGiveUp, if_neg h]
    refine .exhausted htip hstage (not_lt.mp (hren ▸ h)) rfl ?_
    rw [account, ← hdead, ← hren]
    rfl

theorem turn_openFailed (hc : c.loop = .opening) (h : c.loopStep .openFailed = some t) :
    Turn c (.loop .openFailed) t := by
  have hstage : c.stage = .opening := by rw [stage, hc]
  rw [loopStep.eq_def, hc] at h
  dsimp only at h
  split at h <;> rename_i hmax <;> rw [Option.some_inj] at h <;> subst h
  · exact turn_renewOrGiveUp (u := { c with openErrors := c.openErrors + 1, flaps := 0 }) hmax
      hstage rfl
  · exact .refused hstage hmax rfl rfl rfl rfl

theorem turn_judge {short : Bool} (hc : c.loop = .ended) (h : c.loopStep (.judge short) = some t) :
    Turn c (.loop (.judge short)) t := by
  have hstage : c.stage = .streaming := by rw [stage, hc]
  rw [loopStep.eq_def, hc] at h
  cases short with
  | false =>
    cases h
    exact .lived hstage rfl rfl rfl rfl
  | true =>
    dsimp only at h
    rw [if_pos rfl] at h
    split at h <;> rename_i hmax <;> rw [Option.some_inj] at h <;> subst h
    · exact turn_renewOrGiveUp (u := { c with flaps := c.flaps + 1 }) hmax hstage rfl
    · exact .flapped hstage hmax rfl rfl rfl rfl

theorem turn_loopStep {le : LoopEvent} (h : c.loopStep le = some t) : Turn c (.loop le) t := by
  have hwhole := h
  rw [loopStep.eq_def] at h
  split at h <;> rename_i hc
  case h_1 =>
    have hstage : c.stage = .between := by rw [stage, hc]
    cases h
    cases hclosed : c.closed with
    | true => exact .leaves rfl (by rw [hstage]; decide) rfl rfl
    | false => exact .begins rfl hstage hclosed rfl rfl rfl rfl
  case h_2 =>
    cases h
    exact .opens rfl (by rw [stage, hc]) rfl rfl rfl rfl
  case h_3 =>
    cases h
    exact .notFound (by rw [stage, hc]) rfl rfl
  case h_4 => exact turn_openFailed hc hwhole
  case h_5 => cases h; exact .stay rfl (by rw [stage, stage, hc]) rfl rfl rfl
  case h_6 =>
    split at h <;> cases h
    exact .leaves rfl (by rw [stage, hc]; decide) rfl rfl
  case h_7 bs last =>
    split at h <;> cases h
    refine .stay rfl ?_ rfl rfl rfl
    by_cases hbs : bs = []
    · cases last <;> simp [stage, hc, hbs, afterRead]
    · simp [stage, hc, hbs]
  case h_8 bs last i =>
    obtain ⟨q, -, rfl⟩ := Option.map_eq_some_iff.mp h
    exact .stay rfl (by rw [stage, stage, hc]) rfl rfl rfl
  case h_9 ch last =>
    have hafter : ∀ u : Conn, u.loop = afterRead last → u.stage = c.stage := by
      intro u hu
      rw [stage, stage, hu, hc]
      cases last <;> rfl
    split at h
    · split at h <;> cases h
      exact .stay rfl (hafter _ rfl) rfl rfl rfl
    · split at h <;> cases h
      exact .stay rfl (hafter _ rfl) rfl rfl rfl
  case h_10 =>
    have hstage : c.stage = .streaming := by rw [stage, hc]
    split at h <;> cases h
    exact .leaves rfl (by rw [hstage]; decide) rfl rfl
  case h_11 short => exact turn_judge hc hwhole
  case h_12 => cases h; exact .stay rfl (by rw [stage, stage, hc]) rfl rfl rfl
  case h_13 => cases h

theorem turn_of_leavesLoop (he : e.fate = none) (h : c.LeavesLoop t) : Turn c e t := by
  refine .stay he ?_ h.openErrors h.flaps ?_
  · rw [stage, h.loop, stage]
  · rw [account, h.streamDead, h.renewals, account]

/-- **Every step of a connection is a turn of its stream loop.** -/
theorem turn_step (h : c.step e = some t) : Turn c e t := by
  cases e with
  | loop e => exact turn_loopStep h
  | read _ | write _ | sender _ _ | close _ | pool _ =>
    exact turn_of_leavesLoop rfl (leavesLoop_step h nofun)

/-! ## The whole life of a connection -/

/-- The event, if the loop ends with it. -/
def ending (c : Conn) (e : Event) : Option Event :=
  if c.stage ≠ .over ∧ (c.step e).any (fun t ↦ t.stage = .over) = true then some e else none

/-- The events with which the loop ends in a run. -/
def endings (s : Conn) (es : List Event) : List Event := Trace.observed step ending s es

theorem ending_eq (h : c.step e = some t) :
    c.ending e = if c.stage ≠ .over ∧ t.stage = .over then some e else none := by
  simp only [ending, h, Option.any_some, decide_eq_true_eq]

theorem mem_endings {s : Conn} {pre post : List Event} (hpre : Trace.exec step s pre = some c)
    (hstep : c.step e = some t) (hc : c.stage ≠ .over) (ht : t.stage = .over) :
    e ∈ endings s (pre ++ e :: post) := by
  rw [endings, Trace.observed_append hpre, Trace.observed, ending_eq hstep, if_pos ⟨hc, ht⟩]
  simp

/-- The loop ends at most once, and the dialer has been charged for the renewals and for the end, if
that was a failed attempt. -/
structure Books (l : List Event) (c : Conn) : Prop where
  /-- It has not ended. -/
  live : c.stage ≠ .over → l = []
  /-- It has ended once. -/
  ended : c.stage = .over → ∃ e, l = [e]
  /-- What the dialer has been charged with. -/
  dead : c.streamDead = c.renewals + if l.any (fun e ↦ e.attempt.isSome) then 1 else 0
  /-- There are three renewals. -/
  renewals_le : c.renewals ≤ maxRenewals

variable {l : List Event}

/-- The loop goes on, with the same account. -/
theorem Books.goes_on (h : Books l c) (hstep : c.step e = some t) (hc : c.stage ≠ .over)
    (ht : t.stage ≠ .over) (hacc : t.account = c.account) :
    Books (l ++ (c.ending e).toList) t := by
  obtain ⟨hdead, hren⟩ := Prod.mk.inj hacc
  have hl := h.live hc
  rw [ending_eq hstep, if_neg (fun hend ↦ ht hend.2), Option.toList_none, List.append_nil]
  exact ⟨fun _ ↦ hl, fun hover ↦ absurd hover ht, by rw [hdead, hren]; exact h.dead,
    hren ▸ h.renewals_le⟩

/-- The loop ends without a charge. -/
theorem Books.ends (h : Books l c) (hstep : c.step e = some t) (hc : c.stage ≠ .over)
    (ht : t.stage = .over) (hacc : t.account = c.account) (he : e.attempt = none) :
    Books (l ++ (c.ending e).toList) t := by
  obtain ⟨hdead, hren⟩ := Prod.mk.inj hacc
  have hl := h.live hc
  have hbooks := h.dead
  subst hl
  rw [ending_eq hstep, if_pos ⟨hc, ht⟩, Option.toList_some, List.nil_append]
  refine ⟨fun hlive ↦ absurd ht hlive, fun _ ↦ ⟨e, rfl⟩, ?_, hren ▸ h.renewals_le⟩
  simp [hdead, hren, hbooks, he]

theorem attempt_of_fate_eq_none (h : e.fate = none) : e.attempt = none := by
  rw [Event.attempt.eq_def]
  split
  · cases h
  · cases h
  · rfl

theorem attempt_of_tips (h : c.Tips e) : e.attempt.isSome = true := by
  rw [Tips.eq_def] at h
  split at h
  · rfl
  · rfl
  · exact h.elim

theorem fate_of_tips (h : c.Tips e) : e.fate = some .openError ∨ e.fate = some .flap := by
  rw [Tips.eq_def] at h
  split at h
  · exact .inl rfl
  · exact .inr rfl
  · exact h.elim

theorem stage_ne_over (h : c.stage = e.failsIn) : c.stage ≠ .over := by
  rw [h]
  rw [Event.failsIn.eq_def]
  split <;> nofun

theorem Books.step (h : Books l c) (hstep : c.step e = some t) :
    Books (l ++ (c.ending e).toList) t := by
  cases turn_step hstep with
  | stay he hstage _ _ hacc =>
    by_cases hover : c.stage = .over
    · obtain ⟨hdead, hren⟩ := Prod.mk.inj hacc
      rw [ending_eq hstep, if_neg (fun hend ↦ hend.1 hover), Option.toList_none, List.append_nil]
      exact ⟨fun hlive ↦ absurd (hstage.trans hover) hlive, fun _ ↦ h.ended hover,
        by rw [hdead, hren]; exact h.dead, hren ▸ h.renewals_le⟩
    · exact h.goes_on hstep hover (hstage ▸ hover) hacc
  | begins _ hc _ ht _ _ hacc =>
    exact h.goes_on hstep (by rw [hc]; nofun) (by rw [ht]; nofun) hacc
  | opens _ hc ht _ _ hacc => exact h.goes_on hstep (by rw [hc]; nofun) (by rw [ht]; nofun) hacc
  | leaves he hc ht hacc => exact h.ends hstep hc ht hacc (attempt_of_fate_eq_none he)
  | notFound hc ht hacc => exact h.ends hstep (by rw [hc]; nofun) ht hacc rfl
  | lived hc ht _ _ hacc => exact h.goes_on hstep (by rw [hc]; nofun) (by rw [ht]; nofun) hacc
  | refused hc _ ht _ _ hacc => exact h.goes_on hstep (by rw [hc]; nofun) (by rw [ht]; nofun) hacc
  | flapped hc _ ht _ _ hacc => exact h.goes_on hstep (by rw [hc]; nofun) (by rw [ht]; nofun) hacc
  | renewed htip hc hlt ht _ _ hacc =>
    obtain ⟨hdead, hren⟩ := Prod.mk.inj hacc
    have hl := h.live (stage_ne_over hc)
    have hbooks := h.dead
    subst hl
    rw [ending_eq hstep, if_neg (fun hend ↦ by rw [ht] at hend; exact nomatch hend.2),
      Option.toList_none, List.append_nil]
    refine ⟨fun _ ↦ rfl, fun hover ↦ (by rw [ht] at hover; cases hover), ?_, ?_⟩
    · rw [hdead, hren, hbooks]
      rfl
    · rw [hren]
      exact hlt
  | exhausted htip hc hge ht hacc =>
    obtain ⟨hdead, hren⟩ := Prod.mk.inj hacc
    have hl := h.live (stage_ne_over hc)
    have hbooks := h.dead
    subst hl
    rw [ending_eq hstep, if_pos ⟨stage_ne_over hc, ht⟩, Option.toList_some, List.nil_append]
    refine ⟨fun hlive ↦ absurd ht hlive, fun _ ↦ ⟨e, rfl⟩, ?_, hren ▸ h.renewals_le⟩
    simp [hdead, hren, hbooks, attempt_of_tips htip]

/-! ## What the counters count -/

section history

variable {s : Conn} {es : List Event}

/-- The attempts that have ended since some point of the run after the last renewal. -/
def Since (s : Conn) (es : List Event) (c : Conn) (l : List Fate) : Prop :=
  ∃ early late u, es = early ++ late ∧ Trace.exec step s early = some u ∧
    u.renewals = c.renewals ∧ fates late = l

/-- Nothing has ended since now. -/
theorem since_nil (h : Trace.exec step s es = some c) : Since s es c [] :=
  ⟨es, [], c, (List.append_nil es).symm, h, rfl, rfl⟩

theorem Since.concat {l : List Fate} (h : Since s es c l) (hren : t.renewals = c.renewals) :
    Since s (es ++ [e]) t (l ++ e.fate.toList) := by
  obtain ⟨early, late, u, rfl, hu, huc, hl⟩ := h
  refine ⟨early, late ++ [e], u, List.append_assoc .., hu, huc.trans hren.symm, ?_⟩
  rw [fates_append, fates_singleton, hl]

/-- **The counters count what came last**, since the last renewal. -/
structure Counts (s : Conn) (es : List Event) (c : Conn) : Prop where
  /-- The run leads here. -/
  exec : Trace.exec step s es = some c
  /-- Five failures to open a stream are not waited for. -/
  openErrors_lt : c.stage ≠ .over → c.openErrors < streamMaxOpenErrors
  /-- Five short-lived streams are not waited for either. -/
  flaps_lt : c.stage ≠ .over → c.flaps < streamMaxFlaps
  /-- While a stream is open, there are no failures to open one. -/
  openErrors_eq : c.stage = .streaming → c.openErrors = 0
  /-- The last attempts could not open a stream. -/
  openErrors : c.stage ≠ .over → Since s es c (List.replicate c.openErrors .openError)
  /-- The last streams died early. -/
  flaps : c.stage ≠ .over → Since s es c (List.replicate c.flaps .flap)

theorem Counts.over (h : Trace.exec step s es = some c) (hover : c.stage = .over) :
    Counts s es c :=
  ⟨h, fun hne ↦ absurd hover hne, fun hne ↦ absurd hover hne,
    fun hst ↦ absurd (hover.symm.trans hst) nofun, fun hne ↦ absurd hover hne,
    fun hne ↦ absurd hover hne⟩

theorem Counts.step (h : Counts s es c) (hstep : c.step e = some t) : Counts s (es ++ [e]) t := by
  have hexec : Trace.exec Conn.step s (es ++ [e]) = some t :=
    Trace.exec_append.mpr ⟨c, h.exec, Trace.exec_cons_eq_some.mpr ⟨t, hstep, rfl⟩⟩
  have hnil : Since s (es ++ [e]) t [] := since_nil hexec
  -- What is kept by a step with which no attempt ends.
  have hkeep : ∀ {l : List Fate}, e.fate = none → t.account = c.account → Since s es c l →
      Since s (es ++ [e]) t l := by
    intro l he hacc hl
    have hcat := hl.concat (e := e) (Prod.mk.inj hacc).2
    rwa [he, Option.toList_none, List.append_nil] at hcat
  cases turn_step hstep with
  | stay he hstage ho hf hacc =>
    by_cases hover : c.stage = .over
    · exact .over hexec (hstage.trans hover)
    · exact ⟨hexec, fun _ ↦ ho ▸ h.openErrors_lt hover, fun _ ↦ hf ▸ h.flaps_lt hover,
        fun hst ↦ ho ▸ h.openErrors_eq (hstage ▸ hst),
        fun _ ↦ hkeep he hacc (ho ▸ h.openErrors hover),
        fun _ ↦ hkeep he hacc (hf ▸ h.flaps hover)⟩
  | begins he hc _ ht ho hf hacc =>
    have hover : c.stage ≠ .over := by rw [hc]; nofun
    exact ⟨hexec, fun _ ↦ ho ▸ h.openErrors_lt hover, fun _ ↦ hf ▸ h.flaps_lt hover,
      fun hst ↦ absurd (ht.symm.trans hst) nofun,
      fun _ ↦ hkeep he hacc (ho ▸ h.openErrors hover),
      fun _ ↦ hkeep he hacc (hf ▸ h.flaps hover)⟩
  | opens he hc ht ho hf hacc =>
    have hover : c.stage ≠ .over := by rw [hc]; nofun
    exact ⟨hexec, fun _ ↦ ho ▸ Nat.succ_pos 4, fun _ ↦ hf ▸ h.flaps_lt hover, fun _ ↦ ho,
      fun _ ↦ ho ▸ hnil, fun _ ↦ hkeep he hacc (hf ▸ h.flaps hover)⟩
  | leaves _ _ ht _ => exact .over hexec ht
  | notFound _ ht _ => exact .over hexec ht
  | lived hc ht ho hf hacc =>
    have hzero : t.openErrors = 0 := ho.trans (h.openErrors_eq hc)
    exact ⟨hexec, fun _ ↦ hzero ▸ Nat.succ_pos 4, fun _ ↦ hf ▸ Nat.succ_pos 4,
      fun _ ↦ hzero, fun _ ↦ hzero ▸ hnil, fun _ ↦ hf ▸ hnil⟩
  | refused hc htip ht ho hf hacc =>
    have hover : c.stage ≠ .over := by rw [hc]; nofun
    refine ⟨hexec, fun _ ↦ ?_, fun _ ↦ hf ▸ Nat.succ_pos 4,
      fun hst ↦ absurd (ht.symm.trans hst) nofun, fun _ ↦ ?_, fun _ ↦ hf ▸ hnil⟩
    · rw [ho]
      exact not_le.mp htip
    · rw [ho, List.replicate_succ']
      exact (h.openErrors hover).concat (Prod.mk.inj hacc).2
  | flapped hc htip ht ho hf hacc =>
    have hover : c.stage ≠ .over := by rw [hc]; nofun
    have hzero : t.openErrors = 0 := ho.trans (h.openErrors_eq hc)
    refine ⟨hexec, fun _ ↦ hzero ▸ Nat.succ_pos 4, fun _ ↦ ?_, fun _ ↦ hzero, fun _ ↦ hzero ▸ hnil,
      fun _ ↦ ?_⟩
    · rw [hf]
      exact not_le.mp htip
    · rw [hf, List.replicate_succ']
      exact (h.flaps hover).concat (Prod.mk.inj hacc).2
  | renewed _ _ _ ht ho hf _ =>
    exact ⟨hexec, fun _ ↦ ho ▸ Nat.succ_pos 4, fun _ ↦ hf ▸ Nat.succ_pos 4, fun _ ↦ ho,
      fun _ ↦ ho ▸ hnil, fun _ ↦ hf ▸ hnil⟩
  | exhausted _ _ _ ht _ => exact .over hexec ht

theorem counts_of_exec {pipeWidth chanDepth n : ℕ} {pool : BufPool} {resp : Bytes}
    (h : Trace.exec Conn.step (established true pipeWidth chanDepth pool n resp) es = some c) :
    Counts (established true pipeWidth chanDepth pool n resp) es c := by
  refine Trace.history_of_exec Counts.step ?_ h
  exact ⟨rfl, fun _ ↦ Nat.succ_pos 4, fun _ ↦ Nat.succ_pos 4, nofun, fun _ ↦ since_nil rfl,
    fun _ ↦ since_nil rfl⟩

/-- When a counter is complete, the last five attempts have failed in its way. -/
theorem Counts.five (h : Counts s es c) (htip : c.Tips e) (hlive : c.stage ≠ .over) :
    ∃ early late u, es = early ++ late ∧ Trace.exec Conn.step s early = some u ∧
      u.renewals = c.renewals ∧ (fates (late ++ [e]) = List.replicate 5 .openError ∨
        fates (late ++ [e]) = List.replicate 5 .flap) := by
  have ho := h.openErrors_lt hlive
  have hf := h.flaps_lt hlive
  rw [streamMaxOpenErrors] at ho
  rw [streamMaxFlaps] at hf
  rw [Tips.eq_def] at htip
  split at htip
  · rw [streamMaxOpenErrors] at htip
    obtain ⟨early, late, u, hsplit, hu, hren, hlate⟩ := h.openErrors hlive
    refine ⟨early, late, u, hsplit, hu, hren, .inl ?_⟩
    rw [fates_append, hlate, show c.openErrors = 4 by omega]
    rfl
  · rw [streamMaxFlaps] at htip
    obtain ⟨early, late, u, hsplit, hu, hren, hlate⟩ := h.flaps hlive
    refine ⟨early, late, u, hsplit, hu, hren, .inr ?_⟩
    rw [fates_append, hlate, show c.flaps = 4 by omega]
    rfl
  · exact htip.elim

end history

/-- **The account of a run** from `s` to `t`. -/
structure Accounted (s : Conn) (es : List Event) (t : Conn) : Prop where
  /-- The dialer is charged once for each renewal, and once if the loop ends with a failed attempt,
  that is, by exhausting its retries. -/
  dead : t.streamDead =
    t.renewals + if (endings s es).any (fun e ↦ e.attempt.isSome) then 1 else 0
  /-- The loop ends at most once. -/
  once : (endings s es).length ≤ 1
  /-- That makes four charges at most. -/
  le_four : t.streamDead ≤ 4
  /-- A loop that ends on a 404 is not charged for it. -/
  notFound : ∀ pre post u v, es = pre ++ .loop .notFound :: post →
    Trace.exec step s pre = some u → u.step (.loop .notFound) = some v →
    v.stage = .over ∧ v.streamDead = u.streamDead ∧ .loop .notFound ∈ endings s es
  /-- When a renewal is granted or the retries are exhausted, the last five attempts were failures
  to open a stream, or streams that died early, and they were made since the last renewal. -/
  five : ∀ pre e post u v, es = pre ++ e :: post → Trace.exec step s pre = some u →
    u.step e = some v →
    u.renewals < v.renewals ∨ u.stage ≠ .over ∧ v.stage = .over ∧ e.attempt.isSome = true →
    ∃ early late w, pre = early ++ late ∧ Trace.exec step s early = some w ∧
      w.renewals = u.renewals ∧ (fates (late ++ [e]) = List.replicate 5 .openError ∨
        fates (late ++ [e]) = List.replicate 5 .flap)

/-- A step that renews, or with which a failed attempt ends the loop, completes a counter. -/
theorem tips_of_turn (h : Turn c e t) (hcall : c.renewals < t.renewals ∨
    c.stage ≠ .over ∧ t.stage = .over ∧ e.attempt.isSome = true) :
    c.Tips e ∧ c.stage ≠ .over := by
  have hsame : t.account = c.account → ¬c.renewals < t.renewals := fun hacc ↦
    (Prod.mk.inj hacc).2 ▸ Nat.lt_irrefl _
  cases h with
  | stay he hstage _ _ hacc =>
    rcases hcall with hren | ⟨hc, ht, -⟩
    · exact absurd hren (hsame hacc)
    · exact absurd (hstage ▸ ht) hc
  | begins he _ _ ht _ _ hacc =>
    rcases hcall with hren | ⟨-, hover, -⟩
    · exact absurd hren (hsame hacc)
    · exact absurd (ht.symm.trans hover) nofun
  | opens he _ ht _ _ hacc =>
    rcases hcall with hren | ⟨-, hover, -⟩
    · exact absurd hren (hsame hacc)
    · exact absurd (ht.symm.trans hover) nofun
  | leaves he _ _ hacc =>
    rcases hcall with hren | ⟨-, -, hattempt⟩
    · exact absurd hren (hsame hacc)
    · rw [attempt_of_fate_eq_none he] at hattempt
      cases hattempt
  | notFound _ _ hacc =>
    rcases hcall with hren | ⟨-, -, hattempt⟩
    · exact absurd hren (hsame hacc)
    · cases hattempt
  | lived _ ht _ _ hacc | refused _ _ ht _ _ hacc | flapped _ _ ht _ _ hacc =>
    rcases hcall with hren | ⟨-, hover, -⟩
    · exact absurd hren (hsame hacc)
    · exact absurd (ht.symm.trans hover) nofun
  | renewed htip hc => exact ⟨htip, stage_ne_over hc⟩
  | exhausted htip hc => exact ⟨htip, stage_ne_over hc⟩

/-- What a 404 does. -/
theorem turn_notFound (h : Turn c (.loop .notFound) t) :
    c.stage = .opening ∧ t.stage = .over ∧ t.streamDead = c.streamDead ∧
      t.renewals = c.renewals := by
  cases h with
  | notFound hc ht hacc => exact ⟨hc, ht, Prod.mk.inj hacc⟩
  | stay he | begins he | opens he | leaves he => cases he
  | renewed htip | exhausted htip => exact htip.elim

/-- **What the dialer is charged with** in the life of a connection. -/
theorem accounted_of_exec {pipeWidth chanDepth n : ℕ} {pool : BufPool} {resp : Bytes}
    {es : List Event} {t : Conn}
    (h : Trace.exec step (established true pipeWidth chanDepth pool n resp) es = some t) :
    Accounted (established true pipeWidth chanDepth pool n resp) es t := by
  have hbooks : Books (endings (established true pipeWidth chanDepth pool n resp) es) t :=
    Trace.observed_of_exec Books.step ⟨fun _ ↦ rfl, nofun, rfl, Nat.zero_le _⟩ h
  refine ⟨hbooks.dead, ?_, ?_, ?_, ?_⟩
  · by_cases hover : t.stage = .over
    · obtain ⟨e, he⟩ := hbooks.ended hover
      rw [he, List.length_singleton]
    · rw [hbooks.live hover]
      exact Nat.zero_le _
  · have hren := hbooks.renewals_le
    have hdead := hbooks.dead
    rw [maxRenewals] at hren
    split at hdead <;> omega
  · intro pre post u v hes hu hv
    obtain ⟨hopening, hover, hdead, -⟩ := turn_notFound (turn_step hv)
    refine ⟨hover, hdead, ?_⟩
    rw [hes]
    exact mem_endings hu hv (by rw [hopening]; decide) hover
  · intro pre e post u v hes hu hv hcall
    obtain ⟨htip, hlive⟩ := tips_of_turn (turn_step hv) hcall
    exact (counts_of_exec hu).five htip hlive

/-- Four times five streams cannot be opened: three renewals are granted, and then the loop ends. -/
theorem accounted_of_exec_demo :
    ∃ t, Trace.exec step (established true 8 64 .empty 1 [])
        (refusedFive ++ refusedFive ++ refusedFive ++ refusedFive) = some t ∧ t.streamDead = 4 ∧
      Accounted (established true 8 64 .empty 1 [])
        (refusedFive ++ refusedFive ++ refusedFive ++ refusedFive) t := by
  have hrun : (Trace.exec step (established true 8 64 .empty 1 [])
      (refusedFive ++ refusedFive ++ refusedFive ++ refusedFive)).map streamDead = some 4 := by
    decide +kernel
  obtain ⟨t, ht, hdead⟩ := Option.map_eq_some_iff.mp hrun
  exact ⟨t, ht, hdead, accounted_of_exec ht⟩

/-! ## Close -/

/-- An attempt is in progress: a stream is being opened or read. -/
def inProgress (c : Conn) : Prop := c.stage = .opening ∨ c.stage = .streaming

instance (c : Conn) : Decidable c.inProgress := inferInstanceAs (Decidable (_ ∨ _))

/-- An attempt that ends was in progress, and then none is. -/
theorem inProgress_of_turn (h : Turn c e t) (he : e.fate ≠ none) :
    c.inProgress ∧ ¬t.inProgress := by
  have hends : ∀ {u : Conn}, u.stage = .between ∨ u.stage = .over → ¬u.inProgress := by
    rintro u (hu | hu) (hopen | hstream)
    · exact absurd (hu.symm.trans hopen) nofun
    · exact absurd (hu.symm.trans hstream) nofun
    · exact absurd (hu.symm.trans hopen) nofun
    · exact absurd (hu.symm.trans hstream) nofun
  have hfails : c.stage = e.failsIn → c.inProgress := by
    intro hc
    rw [Event.failsIn.eq_def] at hc
    split at hc
    · exact .inl hc
    · exact .inr hc
  cases h with
  | stay hn | begins hn | opens hn | leaves hn => exact absurd hn he
  | notFound hc ht => exact ⟨.inl hc, hends (.inr ht)⟩
  | lived hc ht => exact ⟨.inr hc, hends (.inl ht)⟩
  | refused hc _ ht => exact ⟨.inl hc, hends (.inl ht)⟩
  | flapped hc _ ht => exact ⟨.inr hc, hends (.inl ht)⟩
  | renewed _ hc _ ht => exact ⟨hfails hc, hends (.inl ht)⟩
  | exhausted _ hc _ ht => exact ⟨hfails hc, hends (.inr ht)⟩

/-- What an event can do with which no attempt ends. -/
theorem turn_of_fate_eq_none (h : Turn c e t) (he : e.fate = none) :
    t.account = c.account ∧
      (t.stage = c.stage ∧ t.openErrors = c.openErrors ∧ t.flaps = c.flaps ∨
        c.stage = .between ∧ c.closed = false ∨
        c.stage = .opening ∧ t.stage = .streaming ∧ t.flaps = c.flaps ∨ t.stage = .over) := by
  cases h with
  | stay _ hstage ho hf hacc => exact ⟨hacc, .inl ⟨hstage, ho, hf⟩⟩
  | begins _ hc hopen _ _ _ hacc => exact ⟨hacc, .inr (.inl ⟨hc, hopen⟩)⟩
  | opens _ hc ht _ hf hacc => exact ⟨hacc, .inr (.inr (.inl ⟨hc, ht, hf⟩))⟩
  | leaves _ _ ht hacc => exact ⟨hacc, .inr (.inr (.inr ht))⟩
  | notFound | lived | refused | flapped => cases he
  | renewed htip | exhausted htip =>
    rcases fate_of_tips htip with hf | hf <;> exact absurd (he.symm.trans hf) nofun

/-- **Once the connection is closed, no attempt is begun**: at most the one that was in progress
ends. -/
theorem length_fates_of_closed {es : List Event} (hc : c.closed = true)
    (h : Trace.exec step c es = some t) : (fates es).length ≤ 1 := by
  have hinv : t.closed = true ∧ (fates es = [] ∨ (fates es).length = 1 ∧ ¬t.inProgress) := by
    refine Trace.history_of_exec
      (P := fun es u ↦ u.closed = true ∧ (fates es = [] ∨ (fates es).length = 1 ∧ ¬u.inProgress))
      ?_ ⟨hc, .inl rfl⟩ h
    rintro es u e v ⟨hu, hfates⟩ hstep
    refine ⟨closed_step hstep hu, ?_⟩
    rw [fates_append, fates_singleton]
    have hturn := turn_step hstep
    by_cases he : e.fate = none
    · rw [he, Option.toList_none, List.append_nil]
      refine hfates.imp_right fun ⟨hlen, hidle⟩ ↦ ⟨hlen, ?_⟩
      rcases (turn_of_fate_eq_none hturn he).2 with
        ⟨hstage, -⟩ | ⟨-, hopen⟩ | ⟨hopening, -⟩ | hover
      · rwa [inProgress, hstage]
      · exact absurd (hopen.symm.trans hu) nofun
      · exact absurd (.inl hopening) hidle
      · rw [inProgress, hover]
        nofun
    · obtain ⟨hprog, hidle⟩ := inProgress_of_turn hturn he
      obtain ⟨f, hf⟩ := Option.ne_none_iff_exists'.mp he
      have hnone := hfates.resolve_right fun hone ↦ hone.2 hprog
      rw [hnone, hf]
      exact .inr ⟨rfl, hidle⟩
  rcases hinv.2 with hnil | ⟨hone, -⟩
  · rw [hnil]
    exact Nat.zero_le _
  · exact hone.le

/-- The attempt in progress at `c` completes a counter when it ends so. -/
def Fifth (c : Conn) (r : Fate) : Prop :=
  r = .openError ∧ streamMaxOpenErrors ≤ c.openErrors + 1 ∨ r = .flap ∧ streamMaxFlaps ≤ c.flaps + 1

instance (c : Conn) (r : Fate) : Decidable (c.Fifth r) := inferInstanceAs (Decidable (_ ∨ _))

/-- What has become of the attempt in progress at `c`, until another one ends. -/
def Sequel (c : Conn) : List Fate → Conn → Prop
  -- It goes on, and the counters are as they were as far as they matter to it.
  | [], u => u.streamDead = c.streamDead ∧ (u.stage = .over ∨ u.flaps = c.flaps ∧
      (u.stage = .opening ∧ u.openErrors = c.openErrors ∨ u.stage = .streaming))
  | [r], u => u.streamDead = c.streamDead + if c.Fifth r then 1 else 0
  | _ :: _ :: _, _ => True

/-- An attempt ends that was in progress at `c`. -/
theorem sequel_of_ends {u v : Conn} {r : Fate} (hu : c.Sequel [] u) (hturn : Turn u e v)
    (he : e.fate = some r) : c.Sequel [r] v := by
  obtain ⟨hdead, hstage⟩ := hu
  have hsame : v.account = u.account → ¬c.Fifth r → c.Sequel [r] v := by
    intro hacc hr
    rw [Sequel, if_neg hr]
    exact (Prod.mk.inj hacc).1.trans hdead
  -- While a stream is opened, the counters are those of `c`.
  have hopening : u.stage = .opening → u.openErrors = c.openErrors := by
    intro hu
    rcases hstage with hover | ⟨-, ⟨-, heq⟩ | hst⟩
    · exact absurd (hu.symm.trans hover) nofun
    · exact heq
    · exact absurd (hu.symm.trans hst) nofun
  have hflaps : u.stage ≠ .over → u.flaps = c.flaps := fun hu ↦ (hstage.resolve_left hu).1
  have htips : u.Tips e → u.stage = e.failsIn → c.Fifth r := by
    intro htip hu
    have hf := hflaps (stage_ne_over hu)
    rw [Tips.eq_def] at htip
    split at htip
    · cases he
      exact .inl ⟨rfl, hopening hu ▸ htip⟩
    · cases he
      exact .inr ⟨rfl, hf ▸ htip⟩
    · exact htip.elim
  cases hturn with
  | stay hn | begins hn | opens hn | leaves hn => exact absurd (hn.symm.trans he) nofun
  | notFound _ _ hacc =>
    cases he
    exact hsame hacc nofun
  | lived _ _ _ _ hacc =>
    cases he
    exact hsame hacc nofun
  | refused hu htip _ _ _ hacc =>
    cases he
    refine hsame hacc ?_
    rintro (⟨-, hle⟩ | ⟨hr, -⟩)
    · exact htip ((hopening hu).symm ▸ hle : _ ≤ u.openErrors + 1)
    · cases hr
  | flapped hu htip _ _ _ hacc =>
    cases he
    refine hsame hacc ?_
    rintro (⟨hr, -⟩ | ⟨-, hle⟩)
    · cases hr
    · exact htip ((hflaps (by rw [hu]; nofun)).symm ▸ hle : _ ≤ u.flaps + 1)
  | renewed htip hu _ _ _ _ hacc | exhausted htip hu _ _ hacc =>
    rw [Sequel, if_pos (htips htip hu), (Prod.mk.inj hacc).1, hdead]

/-- The attempt goes on. -/
theorem sequel_of_goes_on {u v : Conn} (hu : c.Sequel [] u) (hturn : Turn u e v)
    (he : e.fate = none) : c.Sequel [] v := by
  obtain ⟨hdead, hstage⟩ := hu
  obtain ⟨hacc, hcases⟩ := turn_of_fate_eq_none hturn he
  refine ⟨(Prod.mk.inj hacc).1.trans hdead, ?_⟩
  rcases hcases with ⟨hst, ho, hf⟩ | ⟨hbetween, -⟩ | ⟨hopening, hst, hf⟩ | hover
  · rwa [hst, ho, hf]
  · rw [hbetween] at hstage
    rcases hstage with hno | ⟨-, ⟨hno, -⟩ | hno⟩ <;> cases hno
  · rw [hopening] at hstage
    refine .inr ⟨hf.trans (hstage.resolve_left nofun).1, .inr hst⟩
  · exact .inl hover

theorem sequel_step {rs : List Fate} {u v : Conn} (hu : c.Sequel rs u)
    (hstep : u.step e = some v) : c.Sequel (rs ++ e.fate.toList) v := by
  have hturn := turn_step hstep
  match rs, he : e.fate with
  | [], some r => exact sequel_of_ends hu hturn he
  | [], none => exact sequel_of_goes_on hu hturn he
  | [r], none =>
    obtain ⟨hacc, -⟩ := turn_of_fate_eq_none hturn he
    exact (Prod.mk.inj hacc).1.trans hu
  | [r], some r' => trivial
  | _ :: _ :: _, _ => trivial

theorem sequel_of_exec {es : List Event} (hc : c.inProgress) (h : Trace.exec step c es = some t) :
    c.Sequel (fates es) t := by
  refine Trace.history_of_exec (P := fun es u ↦ c.Sequel (fates es) u) ?_ ?_ h
  · intro es u e v hu hstep
    rw [fates_append, fates_singleton]
    exact sequel_step hu hstep
  · exact ⟨rfl, .inr ⟨rfl, hc.imp_left fun hopening ↦ ⟨hopening, rfl⟩⟩⟩

/-- **What the dialer is charged with for the attempt in progress when `Close` is called**, at any
point of the life of a connection.  No other attempt ends after it; and for this one the dialer is
charged exactly if it was the fifth in a row that could not open a stream, or the fifth in a row
whose stream died early.

The second half does not need `closed` to be closed.  So it also speaks of an attempt that ends
between the `c.cancel()` and the `close(c.closed)` of `Close`. -/
theorem streamDead_of_inProgress {pipeWidth chanDepth n : ℕ} {pool : BufPool} {resp : Bytes}
    {hist es : List Event}
    (hhist : Trace.exec step (established true pipeWidth chanDepth pool n resp) hist = some c)
    (hc : c.inProgress) (h : Trace.exec step c es = some t) :
    (es.head? = some (.close .close) → (fates es).length ≤ 1) ∧
      ((fates es).length ≤ 1 → t.streamDead ≤ c.streamDead + 1 ∧
        (t.streamDead = c.streamDead ↔
          ¬(fates es = [.openError] ∧ c.openErrors = 4 ∨ fates es = [.flap] ∧ c.flaps = 4))) := by
  refine ⟨?_, ?_⟩
  · intro hhead
    obtain ⟨fs, rfl⟩ := List.head?_eq_some_iff.mp hhead
    obtain ⟨u, hu, hrun⟩ := Trace.exec_cons_eq_some.mp h
    have hclosed : u.closed = true := by
      rw [step, closeStep.eq_def] at hu
      split at hu
      · cases hu
        rfl
      · rename_i he
        cases he
      · cases hu
    have hfates : fates (.close .close :: fs) = fates fs := rfl
    rw [hfates]
    exact length_fates_of_closed hclosed hrun
  · intro hone
    have hlive : c.stage ≠ .over := by rcases hc with hc | hc <;> rw [hc] <;> decide
    have hcounts := counts_of_exec hhist
    have ho := hcounts.openErrors_lt hlive
    have hf := hcounts.flaps_lt hlive
    have hsequel := sequel_of_exec hc h
    rw [streamMaxOpenErrors] at ho
    rw [streamMaxFlaps] at hf
    rcases hr : fates es with _ | ⟨r, _ | ⟨r', rs⟩⟩
    · rw [hr] at hsequel
      rw [hsequel.1]
      exact ⟨Nat.le_succ _, by simp⟩
    · have hfifth : c.Fifth r ↔ ([r] = [Fate.openError] ∧ c.openErrors = 4 ∨
          [r] = [.flap] ∧ c.flaps = 4) := by
        have hopen : 5 ≤ c.openErrors + 1 ↔ c.openErrors = 4 := by omega
        have hflap : 5 ≤ c.flaps + 1 ↔ c.flaps = 4 := by omega
        simp only [Fifth, streamMaxOpenErrors, streamMaxFlaps, List.cons.injEq, and_true, hopen,
          hflap]
      rw [hr] at hsequel
      rw [← hfifth, hsequel]
      split <;> rename_i hr <;> simp [hr]
    · rw [hr, List.length_cons, List.length_cons] at hone
      omega

/-- Four streams in a row could not be opened, and a fifth is being opened. -/
def fifthOpening : List Event :=
  [refused, refused, refused, refused].flatMap (· ++ [.loop .wake]) ++ [.loop .check]

/-- **A clean shutdown counts as a control failure.**  `Close` cancels the request that would open
the stream; this is the fifth open error in a row, so `renewStream` is called, and it charges the
dialer. -/
theorem charged_on_close :
    ∃ c t, Trace.exec step (established true 8 64 .empty 1 []) fifthOpening = some c ∧
      c.inProgress ∧ c.streamDead = 0 ∧
      Trace.exec step c [.close .close, .loop .openFailed] = some t ∧ t.streamDead = 1 := by
  have hrun : (Trace.exec step (established true 8 64 .empty 1 []) fifthOpening).any (fun c ↦
      decide (c.inProgress ∧ c.streamDead = 0) &&
        (Trace.exec step c [.close .close, .loop .openFailed]).any (·.streamDead == 1)) = true := by
    decide +kernel
  obtain ⟨c, hc, hclose⟩ := (Option.any_eq_true _ _).mp hrun
  obtain ⟨hprog, hclose⟩ := Bool.and_eq_true_iff.mp hclose
  obtain ⟨hprog, hdead⟩ := of_decide_eq_true hprog
  obtain ⟨t, ht, hcharged⟩ := (Option.any_eq_true _ _).mp hclose
  exact ⟨c, t, hc, hprog, hdead, ht, beq_iff_eq.mp hcharged⟩

/-- After one failure it does not. -/
theorem streamDead_of_inProgress_demo :
    ∃ c t, Trace.exec step (established true 8 64 .empty 1 [])
        (refused ++ [.loop .wake, .loop .check]) = some c ∧ c.inProgress ∧
      Trace.exec step c [.close .close, .loop .openFailed] = some t ∧
      t.streamDead = c.streamDead := by
  have hrun : (Trace.exec step (established true 8 64 .empty 1 [])
      (refused ++ [.loop .wake, .loop .check])).any (fun c ↦
        decide (c.inProgress ∧ c.openErrors = 1) &&
          (Trace.exec step c [.close .close, .loop .openFailed]).isSome) = true := by
    decide +kernel
  obtain ⟨c, hc, hclose⟩ := (Option.any_eq_true _ _).mp hrun
  obtain ⟨hprog, hclose⟩ := Bool.and_eq_true_iff.mp hclose
  obtain ⟨hprog, hopen⟩ := of_decide_eq_true hprog
  obtain ⟨t, ht⟩ := Option.isSome_iff_exists.mp hclose
  have hcharge := (streamDead_of_inProgress hc hprog ht).2 (Nat.le_refl 1)
  refine ⟨c, t, hc, hprog, ht, hcharge.2.mpr ?_⟩
  rintro (⟨-, hfour⟩ | ⟨hflap, -⟩)
  · omega
  · cases hflap

end Conn

end TunnelCat.Session
