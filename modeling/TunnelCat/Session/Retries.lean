import TunnelCat.Session.Conn

/-!
# How long the stream loop keeps trying

The stream loop opens a stream, reads it to its end and opens the next one.  Two counters are to end
this when the path is broken: five streams in a row that cannot be opened, or five in a row that die
within a second, and the loop asks for a new `streamFn`; it is given three, and then it gives up and
closes the channel.

The two counters undo each other.  A stream that opens sets the count of failed openings back, and
a failed opening sets the count of short-lived streams back, although no stream has lived any longer
in the meantime.  A path that fails in both ways by turns keeps both of them below five, and the
loop never ends.

`Retry` is what the loop's decisions depend on, `move_step` says how the steps of a connection act
on it.  Each time the way of failing changes, at most four attempts are forgotten, and that is all
that is lost: with `k` changes the loop gives up after `20 + 4 * k` attempts.
-/

set_option autoImplicit false

open Trace

namespace TunnelCat.Session

/-- How an attempt of the stream loop fails. -/
inductive Attempt where
  /-- The stream cannot be opened, for another reason than a 404. -/
  | openError
  /-- The stream opens and dies within `streamMinLifetime`. -/
  | flap
  deriving DecidableEq, Repr

/-- How often the way of failing changes. -/
def switches : List Attempt → ℕ
  | a :: b :: l => (if a = b then 0 else 1) + switches (b :: l)
  | _ => 0

theorem switches_concat (l : List Attempt) (a : Attempt) :
    switches (l ++ [a]) = switches l + if l.getLast?.any (· ≠ a) then 1 else 0 := by
  induction l with
  | nil => rfl
  | cons b l ih =>
    cases l with
    | nil => simp [switches]
    | cons b' l =>
      rw [List.cons_append, List.cons_append, switches, ← List.cons_append, ih, switches,
        List.getLast?_cons_cons, Nat.add_assoc]

namespace Conn

/-- The attempt that has failed with an event. -/
def Event.attempt : Event → Option Attempt
  | .loop .openFailed => some .openError
  | .loop (.judge true) => some .flap
  | _ => none

/-- The attempts that have failed in a run. -/
def attempts (es : List Event) : List Attempt := es.filterMap Event.attempt

/-- No stream lives for `streamMinLifetime`, and none is refused with a 404. -/
def Event.Early (e : Event) : Prop := e ≠ .loop (.judge false) ∧ e ≠ .loop .notFound

/-! ## What the loop decides by -/

/-- What the stream loop is about. -/
inductive Phase where
  /-- Between two streams. -/
  | between
  /-- A stream is open, or its life is being judged. -/
  | streaming
  /-- It has ended, and the channel is closed or about to be. -/
  | over
  /-- There is none. -/
  | idle
  deriving DecidableEq, Repr

/-- What the decisions of the stream loop depend on. -/
structure Retry where
  /-- What it is about. -/
  phase : Phase
  /-- Its consecutive failures to open a stream. -/
  openErrors : ℕ
  /-- Its consecutive short-lived streams. -/
  flaps : ℕ
  /-- How often it was given a new `streamFn`. -/
  renewals : ℕ
  deriving DecidableEq, Repr

/-- The phase of a connection's stream loop. -/
def phase (c : Conn) : Phase :=
  match c.loop with
  | .top | .opening | .waiting => .between
  | .reading | .holding _ _ | .offering _ _ | .ended => .streaming
  | .exiting => .over
  | .done => if c.chanClosed then .over else .idle

/-- What the stream loop of a connection decides by. -/
def retry (c : Conn) : Retry := ⟨c.phase, c.openErrors, c.flaps, c.renewals⟩

namespace Retry

/-- `tryRenew`, and `giveUp` when it fails. -/
def renewOrGiveUp (r : Retry) : Retry :=
  if r.renewals < maxRenewals then ⟨.between, 0, 0, r.renewals + 1⟩ else { r with phase := .over }

/-- A stream could not be opened. -/
def openFailed (r : Retry) : Retry :=
  if streamMaxOpenErrors ≤ r.openErrors + 1 then
    renewOrGiveUp { r with openErrors := r.openErrors + 1, flaps := 0 }
  else { r with phase := .between, openErrors := r.openErrors + 1, flaps := 0 }

/-- A stream died early. -/
def flapped (r : Retry) : Retry :=
  if streamMaxFlaps ≤ r.flaps + 1 then renewOrGiveUp { r with flaps := r.flaps + 1 }
  else { r with phase := .between, flaps := r.flaps + 1 }

/-- What an event can do to the stream loop. -/
inductive Move (r : Retry) : Event → Retry → Prop where
  /-- Nothing. -/
  | stay {e : Event} : e.attempt = none → Move r e r
  /-- A stream opens. -/
  | opened {e : Event} : e.attempt = none → r.phase = .between →
      Move r e { r with phase := .streaming, openErrors := 0 }
  /-- A stream cannot be opened. -/
  | openFailed : r.phase = .between → Move r (.loop .openFailed) r.openFailed
  /-- A stream dies early. -/
  | flapped : r.phase = .streaming → Move r (.loop (.judge true)) r.flapped
  /-- A stream ends after a while. -/
  | lived : Move r (.loop (.judge false)) { r with phase := .between, flaps := 0 }
  /-- The loop ends. -/
  | leave {e : Event} : e.attempt = none → Move r e { r with phase := .over }

end Retry

variable {c t : Conn} {e : Event}

theorem retry_renewOrGiveUp (c : Conn) :
    c.renewOrGiveUp.retry = c.retry.renewOrGiveUp := by
  by_cases h : c.renewals < maxRenewals
  · rw [Conn.renewOrGiveUp, if_pos h, Retry.renewOrGiveUp,
      if_pos (show c.retry.renewals < _ from h)]
    rfl
  · rw [Conn.renewOrGiveUp, if_neg h, Retry.renewOrGiveUp,
      if_neg (show ¬c.retry.renewals < _ from h)]
    rfl

/-- A step that leaves the counters alone and stays in the phase. -/
theorem move_stay (he : e.attempt = none) {p : Phase} (hc : c.phase = p)
    (ht : t.retry = ⟨p, c.openErrors, c.flaps, c.renewals⟩) : Retry.Move c.retry e t.retry := by
  have hsame : t.retry = c.retry := by rw [ht, ← hc]; rfl
  rw [hsame]
  exact .stay he

theorem move_openFailed (hc : c.loop = .opening) (h : c.loopStep .openFailed = some t) :
    Retry.Move c.retry (.loop .openFailed) t.retry := by
  have hphase : c.phase = .between := by rw [phase, hc]
  have hmove : t.retry = c.retry.openFailed := by
    simp only [loopStep, hc] at h
    split at h <;> rename_i hmax <;> rw [Option.some_inj] at h <;> subst h
    · rw [retry_renewOrGiveUp, Retry.openFailed, if_pos (show _ ≤ c.retry.openErrors + 1 from hmax),
        show c.retry.phase = .between from hphase]
      rfl
    · rw [Retry.openFailed, if_neg (show ¬_ ≤ c.retry.openErrors + 1 from hmax)]
      rfl
  rw [hmove]
  exact .openFailed hphase

theorem move_judge (hc : c.loop = .ended) {short : Bool} (h : c.loopStep (.judge short) = some t) :
    Retry.Move c.retry (.loop (.judge short)) t.retry := by
  have hphase : c.phase = .streaming := by rw [phase, hc]
  cases short with
  | false =>
    simp only [loopStep, hc, Bool.false_eq_true, if_false, Option.some_inj] at h
    subst h
    exact .lived
  | true =>
    have hmove : t.retry = c.retry.flapped := by
      simp only [loopStep, hc, if_true] at h
      split at h <;> rename_i hmax <;> rw [Option.some_inj] at h <;> subst h
      · rw [retry_renewOrGiveUp, Retry.flapped, if_pos (show _ ≤ c.retry.flaps + 1 from hmax),
          show c.retry.phase = .streaming from hphase]
        rfl
      · rw [Retry.flapped, if_neg (show ¬_ ≤ c.retry.flaps + 1 from hmax)]
        rfl
    rw [hmove]
    exact .flapped hphase

theorem move_loopStep {le : LoopEvent} (h : c.loopStep le = some t) :
    Retry.Move c.retry (.loop le) t.retry := by
  have hmove := h
  unfold loopStep at h
  split at h <;> rename_i hc
  case h_1 =>
    rw [Option.some_inj] at h
    subst h
    by_cases hclosed : c.closed = true
    · simp only [hclosed, if_true]
      exact .leave rfl
    · simp only [hclosed]
      exact move_stay rfl (p := .between) (by rw [phase, hc]) rfl
  case h_2 =>
    cases h
    exact .opened rfl (by rw [retry, phase, hc])
  case h_3 => cases h; exact .leave rfl
  case h_4 => exact move_openFailed hc hmove
  case h_5 => cases h; exact move_stay rfl (p := .between) (by rw [phase, hc]) rfl
  case h_6 =>
    split at h
    · cases h; exact .leave rfl
    · cases h
  case h_7 bs last =>
    split at h
    · cases h
      refine move_stay rfl (p := .streaming) (by rw [phase, hc]) ?_
      by_cases hbs : bs = []
      · simp only [hbs, if_true]
        cases last <;> rfl
      · simp only [hbs, if_false]
        rfl
    · cases h
  case h_8 bs last i =>
    obtain ⟨q, -, rfl⟩ := Option.map_eq_some_iff.mp h
    exact move_stay rfl (p := .streaming) (by rw [phase, hc]) rfl
  case h_9 ch last =>
    have hphase : c.phase = .streaming := by rw [phase, hc]
    split at h
    · split at h
      · cases h; exact move_stay rfl hphase (by cases last <;> rfl)
      · cases h
    · split at h
      · cases h; exact move_stay rfl hphase (by cases last <;> rfl)
      · cases h
  case h_10 =>
    split at h
    · cases h; exact .leave rfl
    · cases h
  case h_11 short => exact move_judge hc hmove
  case h_12 => cases h; exact .leave rfl
  case h_13 => cases h

theorem move_of_leavesLoop (he : e.attempt = none) (h : c.LeavesLoop t) :
    Retry.Move c.retry e t.retry := by
  have hphase : t.phase = c.phase := by rw [phase, h.loop, h.chanClosed, phase]
  have hsame : t.retry = c.retry := by
    rw [retry, hphase, h.openErrors, h.flaps, h.renewals, retry]
  rw [hsame]
  exact .stay he

/-- Every step of a connection is a move of its stream loop. -/
theorem move_step (h : c.step e = some t) : Retry.Move c.retry e t.retry := by
  cases e with
  | loop e => exact move_loopStep h
  | read _ | write _ | sender _ _ | close _ | pool _ =>
    exact move_of_leavesLoop rfl (leavesLoop_step h nofun)

/-! ## What the attempts have been spent on -/

namespace Retry

/-- How many of the attempts have not been paid for yet, by a renewal or by a change in the way of
failing, when `last` is how the last of them failed. -/
def unpaid (r : Retry) (last : Option Attempt) : ℕ :=
  match r.phase, last with
  | .over, _ => 5
  | .streaming, some .openError => 4
  | _, some .openError => r.openErrors
  | _, some .flap => r.flaps
  | _, none => 0

/-- A renewal pays for five attempts and a change in the way of failing for four. -/
structure Budget (r : Retry) (l : List Attempt) : Prop where
  /-- There are three renewals. -/
  renewals_le : r.renewals ≤ maxRenewals
  /-- The loop was started. -/
  started : r.phase ≠ .idle
  /-- Five failures to open a stream are not waited for. -/
  openErrors_lt : r.phase ≠ .over → r.openErrors < streamMaxOpenErrors
  /-- Five short-lived streams are not waited for either. -/
  flaps_lt : r.phase ≠ .over → r.flaps < streamMaxFlaps
  /-- After a failure to open a stream there are no short-lived streams. -/
  flaps_eq : r.phase ≠ .over → l.getLast? ≠ some .flap → r.flaps = 0
  /-- After a short-lived stream there are no failures to open one. -/
  openErrors_eq : r.phase ≠ .over → l.getLast? ≠ some .openError → r.openErrors = 0
  /-- While a stream is open there are none. -/
  openErrors_eq_streaming : r.phase = .streaming → r.openErrors = 0
  /-- All attempts are accounted for. -/
  length_le : l.length ≤ 5 * r.renewals + 4 * switches l + r.unpaid l.getLast?

variable {r r' : Retry} {l : List Attempt}

theorem Budget.unpaid_le (h : r.Budget l) (hr : r.phase ≠ .over) : r.unpaid l.getLast? ≤ 4 := by
  have ho := h.openErrors_lt hr
  have hf := h.flaps_lt hr
  rw [streamMaxOpenErrors] at ho
  rw [streamMaxFlaps] at hf
  unfold unpaid
  split <;> first | omega | exact absurd ‹_› hr

theorem Budget.leave (h : r.Budget l) : Budget { r with phase := .over } l := by
  refine ⟨h.renewals_le, nofun, nofun, nofun, nofun, nofun, nofun, ?_⟩
  have hlen := h.length_le
  by_cases hr : r.phase = .over
  · simpa [unpaid, hr] using hlen
  · have hle := h.unpaid_le hr
    simp only [unpaid]
    omega

theorem Budget.opened (h : r.Budget l) (hr : r.phase = .between) :
    Budget { r with phase := .streaming, openErrors := 0 } l := by
  have hne : r.phase ≠ .over := by simp [hr]
  refine ⟨h.renewals_le, nofun, fun _ ↦ Nat.succ_pos 4, fun _ ↦ h.flaps_lt hne,
    fun _ ↦ h.flaps_eq hne, fun _ _ ↦ rfl, fun _ ↦ rfl,
    h.length_le.trans (Nat.add_le_add_left ?_ _)⟩
  have hle := h.unpaid_le hne
  -- Only a stream that could not be opened is forgotten here.
  rcases hl : l.getLast? with _ | _ | _
  · simp [unpaid, hr]
  · rwa [hl] at hle
  · simp [unpaid, hr]

/-- The fifth failure in a row is paid for by a renewal, or it is the last. -/
theorem Budget.renewOrGiveUp (hren : r.renewals ≤ maxRenewals)
    (hlen : l.length ≤ 5 * r.renewals + 4 * switches l + 5) : r.renewOrGiveUp.Budget l := by
  rw [Retry.renewOrGiveUp]
  split
  · rename_i hlt
    refine ⟨hlt, nofun, fun _ ↦ Nat.succ_pos 4, fun _ ↦ Nat.succ_pos 4, fun _ _ ↦ rfl,
      fun _ _ ↦ rfl, nofun, ?_⟩
    dsimp only
    omega
  · exact ⟨hren, nofun, nofun, nofun, nofun, nofun, nofun, hlen⟩

/-- One more attempt: those before it that are not paid for are of its kind, or they are paid for by
the change. -/
theorem Budget.length_concat_le (h : r.Budget l) (hr : r.phase ≠ .over) {a : Attempt} :
    (l ++ [a]).length ≤
      5 * r.renewals + 4 * switches (l ++ [a]) + (r.unpaid (some a) + 1) := by
  have hlen := h.length_le
  have hle := h.unpaid_le hr
  rw [List.length_append, List.length_singleton, switches_concat]
  rcases hl : l.getLast? with _ | b
  · rw [List.getLast?_eq_none_iff] at hl
    rw [hl, List.length_nil]
    omega
  · by_cases hb : b = a
    · rw [hl, hb] at hlen
      rw [hb, if_neg (by simp)]
      omega
    · rw [if_pos (by simpa using hb)]
      omega

theorem Budget.openFailed (h : r.Budget l) (hr : r.phase = .between) :
    r.openFailed.Budget (l ++ [.openError]) := by
  have hne : r.phase ≠ .over := by simp [hr]
  have hlen := h.length_concat_le hne (a := .openError)
  rw [show r.unpaid (some .openError) = r.openErrors by simp only [unpaid, hr]] at hlen
  have hlt := h.openErrors_lt hne
  rw [streamMaxOpenErrors] at hlt
  rw [Retry.openFailed]
  split
  · exact Budget.renewOrGiveUp h.renewals_le (hlen.trans (Nat.add_le_add_left (by omega) _))
  · rename_i hmax
    refine ⟨h.renewals_le, nofun, fun _ ↦ not_le.mp hmax, fun _ ↦ Nat.succ_pos 4, fun _ _ ↦ rfl,
      fun _ hlast ↦ absurd List.getLast?_concat hlast, nofun, ?_⟩
    rw [List.getLast?_concat]
    exact hlen

theorem Budget.flapped (h : r.Budget l) (hr : r.phase = .streaming) :
    r.flapped.Budget (l ++ [.flap]) := by
  have hne : r.phase ≠ .over := by simp [hr]
  have hlen := h.length_concat_le hne (a := .flap)
  rw [show r.unpaid (some .flap) = r.flaps by simp only [unpaid, hr]] at hlen
  have hlt := h.flaps_lt hne
  rw [streamMaxFlaps] at hlt
  rw [Retry.flapped]
  split
  · exact Budget.renewOrGiveUp h.renewals_le (hlen.trans (Nat.add_le_add_left (by omega) _))
  · rename_i hmax
    refine ⟨h.renewals_le, nofun, fun _ ↦ h.openErrors_lt hne, fun _ ↦ not_le.mp hmax,
      fun _ hlast ↦ absurd List.getLast?_concat hlast, fun _ _ ↦ h.openErrors_eq_streaming hr,
      nofun, ?_⟩
    rw [List.getLast?_concat]
    exact hlen

end Retry

theorem attempts_append (es fs : List Event) :
    attempts (es ++ fs) = attempts es ++ attempts fs := List.filterMap_append ..

theorem attempts_singleton (e : Event) : attempts [e] = e.attempt.toList := by
  cases h : e.attempt <;> simp [attempts, h]

/-- A move of the loop keeps the books, unless a stream lives for a while. -/
theorem Retry.Budget.move {r r' : Retry} {es : List Event} (h : r.Budget (attempts es))
    (hearly : e.Early) (hmove : r.Move e r') : r'.Budget (attempts (es ++ [e])) := by
  rw [attempts_append, attempts_singleton]
  cases hmove with
  | stay he => simpa [he] using h
  | opened he hr => simpa [he] using h.opened hr
  | openFailed hr => exact h.openFailed hr
  | flapped hr => exact h.flapped hr
  | lived => exact absurd rfl hearly.1
  | leave he => simpa [he] using h.leave

/-- A loop that is over closes the channel, or has done so. -/
theorem loop_of_over (h : c.phase = .over) :
    c.loop = .exiting ∨ c.loop = .done ∧ c.chanClosed = true := by
  unfold phase at h
  split at h
  case h_8 hexit => exact .inl hexit
  case h_9 hdone =>
    split at h
    · exact .inr ⟨hdone, ‹_›⟩
    · cases h
  all_goals cases h

section runs

variable {pipeWidth chanDepth n : ℕ} {pool : BufPool} {resp : Bytes} {es : List Event}

theorem budget_of_exec
    (h : exec step (established true pipeWidth chanDepth pool n resp) es = some t)
    (hearly : ∀ e ∈ es, e.Early) : t.retry.Budget (attempts es) := by
  refine Trace.history_of_exec (P := fun es c ↦ (∀ e ∈ es, e.Early) → c.retry.Budget (attempts es))
    ?_ ?_ h hearly
  · intro es c e t hbudget hstep hearly
    simp only [List.mem_append, List.mem_singleton, or_imp, forall_and, forall_eq] at hearly
    exact (hbudget hearly.1).move hearly.2 (move_step hstep)
  · intro _
    exact ⟨Nat.zero_le _, nofun, fun _ ↦ Nat.succ_pos 4, fun _ ↦ Nat.succ_pos 4, fun _ _ ↦ rfl,
      fun _ _ ↦ rfl, fun _ ↦ rfl, Nat.zero_le _⟩

/-- **The loop gives up**: if no stream lives for long and the way of failing changes at most `k`
times, then there are at most `20 + 4 * k` attempts, and after so many the loop has ended and the
channel is closed or about to be. -/
theorem gives_up_of_switches_le {k : ℕ}
    (h : exec step (established true pipeWidth chanDepth pool n resp) es = some t)
    (hearly : ∀ e ∈ es, e.Early) (hk : switches (attempts es) ≤ k) :
    (attempts es).length ≤ 20 + 4 * k ∧
      ((attempts es).length = 20 + 4 * k →
        t.loop = .exiting ∨ t.loop = .done ∧ t.chanClosed = true) := by
  have hbudget := budget_of_exec h hearly
  have hlen := hbudget.length_le
  have hren := hbudget.renewals_le
  rw [maxRenewals] at hren
  by_cases hover : t.retry.phase = .over
  · have hunpaid : t.retry.unpaid (attempts es).getLast? = 5 := by simp [Retry.unpaid, hover]
    exact ⟨by omega, fun _ ↦ loop_of_over hover⟩
  · have hunpaid := hbudget.unpaid_le hover
    exact ⟨by omega, fun hlast ↦ by omega⟩

end runs

/-- A stream cannot be opened. -/
def refused : List Event := [.loop .check, .loop .openFailed]

/-- A stream opens and ends at once. -/
def died : List Event :=
  [.loop .check, .loop .opened, .loop (.read [] true), .loop (.judge true)]

/-- Five streams in a row cannot be opened. -/
def refusedFive : List Event :=
  [refused, refused, refused, refused].flatMap (· ++ [.loop .wake]) ++ refused

theorem early_refusedFive : ∀ e ∈ refusedFive, e.Early := by
  simp [refusedFive, refused, Event.Early]

/-- With twenty of them the loop ends, and the channel is closed. -/
theorem gives_up_of_switches_le_demo :
    ∃ t, exec step (established true 8 64 .empty 1 [])
        (refusedFive ++ refusedFive ++ refusedFive ++ refusedFive ++ [.loop .exit]) = some t ∧
      (t.loop = .exiting ∨ t.loop = .done ∧ t.chanClosed = true) := by
  have hrun : (exec step (established true 8 64 .empty 1 [])
      (refusedFive ++ refusedFive ++ refusedFive ++ refusedFive ++ [.loop .exit])).isSome := by
    decide +kernel
  obtain ⟨t, ht⟩ := Option.isSome_iff_exists.mp hrun
  have hearly : ∀ e ∈ refusedFive ++ refusedFive ++ refusedFive ++ refusedFive ++ [.loop .exit],
      e.Early := by
    simp only [List.forall_mem_append]
    have hfive := early_refusedFive
    exact ⟨⟨⟨⟨hfive, hfive⟩, hfive⟩, hfive⟩, by simp [Event.Early]⟩
  exact ⟨t, ht, (gives_up_of_switches_le (k := 0) ht hearly (by decide +kernel)).2
    (by decide +kernel)⟩

/-- A failure to open a stream and a stream that dies early, with the delays in between. -/
def byTurns : List Event := refused ++ [.loop .wake] ++ died ++ [.loop .wake]

/-- What `byTurns` leaves of a new connection: one short-lived stream. -/
def flappedOnce : Conn := { established true 8 64 .empty 1 [] with flaps := 1 }

theorem exec_byTurns (k : ℕ) :
    exec step flappedOnce (List.replicate k byTurns).flatten = some flappedOnce := by
  induction k with
  | zero => rfl
  | succ k ih =>
    rw [List.replicate_succ, List.flatten_cons]
    exact Trace.exec_append.mpr ⟨flappedOnce, rfl, ih⟩

/-- There is no bound on the attempts of a loop whose path fails in both ways by turns. -/
theorem retries_unbounded :
    ¬∃ bound : ℕ, ∀ es t, exec step (established true 8 64 .empty 1 []) es = some t →
      (∀ e ∈ es, e.Early) → (attempts es).length ≤ bound := by
  rintro ⟨bound, hbound⟩
  have hrun : exec step (established true 8 64 .empty 1 [])
      (byTurns ++ (List.replicate bound byTurns).flatten) = some flappedOnce :=
    Trace.exec_append.mpr ⟨flappedOnce, rfl, exec_byTurns bound⟩
  have hearly : ∀ e ∈ byTurns, e.Early := by simp [byTurns, refused, died, Event.Early]
  have hlen : ∀ k, (attempts (List.replicate k byTurns).flatten).length = 2 * k := by
    intro k
    induction k with
    | zero => rfl
    | succ k ih =>
      have htwo : (attempts byTurns).length = 2 := rfl
      rw [List.replicate_succ, List.flatten_cons, attempts_append, List.length_append, ih]
      omega
  have hall := hbound _ _ hrun (by
    intro e he
    rcases List.mem_append.mp he with he | he
    · exact hearly e he
    · obtain ⟨l, hl, he⟩ := List.mem_flatten.mp he
      rw [List.eq_of_mem_replicate hl] at he
      exact hearly e he)
  have hone := hlen (bound + 1)
  rw [List.replicate_succ, List.flatten_cons] at hone
  omega

end Conn

end TunnelCat.Session
