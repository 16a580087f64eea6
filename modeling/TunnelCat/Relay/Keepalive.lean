import TunnelCat.Relay.Steps

/-!
# Missed keepalives

The keepalive loop pings the peer at every tick, and when it has done so three times without a pong
in between, it sets `failed`.  It can leave off in two other ways.  One is `Close`.  The other is a
ping that cannot be written: that is a failure like one of `RoundTrip`, so it is counted in
`failCount`, and the loop returns, whether this was the fifth or not.

So an error that comes alone ends the detection, and the connection does not count as failed
(`unnoticed_of_failing`).  No ping is sent from then on, and the silence of the peer goes unnoticed
as long as no requests fail (`silence_unnoticed`).  `failed_of_quiet` says that it is noticed if
every such error finds at least four failures in a row counted, or `failed` set.

To speak of intervals in which the loop is not there any more, `Watch` sets a clock beside the
connection that counts them since the last pong.
-/

set_option autoImplicit false

open Trace

namespace TunnelCat.Relay

/-- The event is a step of the keepalive loop that waits for the ticker. -/
def Conn.Event.isTick : Conn.Event → Bool
  | .keepalive (.tick _ _) => true
  | _ => false

/-- The frame is read as a pong. -/
def isPong (frame : Bytes) : Bool :=
  (header (frame.take udpRelayMaxFrame)).any fun head ↦ head.2 = udpRelayTypePong

/-- A connection with a clock beside it. -/
structure Watch where
  /-- The connection. -/
  conn : Conn
  /-- How many intervals of the ticker have passed since the last pong. -/
  quiet : ℕ

namespace Watch

/-- A new connection. -/
def new (controlURL : String) : Watch := ⟨.new controlURL, 0⟩

/-- What can happen. -/
inductive Event where
  /-- An interval has passed.  If the keepalive loop is there, it draws an id, and `conn.Write` of
  the ping returns. -/
  | tick (reqID : UInt32) (err : Option String)
  /-- Something else happens at this end. -/
  | act (e : Conn.Event)
  /-- A datagram is read. -/
  | read (k : ℕ) (frame : Bytes)

/-- One step.  An interval is long, so the loop has dealt with one tick when the next comes. -/
def step (w : Watch) : Event → Option Watch
  | .tick reqID err =>
    match w.conn.keepalive with
    | .ticking => (w.conn.keepaliveStep (.tick reqID err)).map fun c ↦ ⟨c, w.quiet + 1⟩
    | .ended => some { w with quiet := w.quiet + 1 }
    | .counting | .failing | .marking => none
  | .act e => if e.isTick then none else (w.conn.step e).map fun c ↦ { w with conn := c }
  | .read k frame =>
    (w.conn.read k frame).map fun c ↦ ⟨c, if isPong frame then 0 else w.quiet⟩

/-- The keepalive loop has dealt with the last tick. -/
def Settled (w : Watch) : Prop := w.conn.keepalive = .ticking ∨ w.conn.keepalive = .ended

instance (w : Watch) : Decidable w.Settled := inferInstanceAs (Decidable (_ ∨ _))

end Watch

/-! ## What the other goroutines leave alone -/

namespace Conn

variable {c c' : Conn}

/-- The keepalive loop and its counter stay as they are. -/
structure Bystands (c c' : Conn) : Prop where
  keepalive : c'.keepalive = c.keepalive
  missedPongs : c'.missedPongs = c.missedPongs
  failed : c.failed = true → c'.failed = true
  stopped : c.stopped = true → c'.stopped = true

theorem bystands_tripStep {i : ℕ} {t : Trip} {e : TripEvent} (h : c.tripStep i t e = some c') :
    c.Bystands c' := by
  rw [tripStep.eq_def] at h
  split at h
  case h_3 =>
    obtain ⟨resp, -, rfl⟩ := Option.map_eq_some_iff.mp h
    exact ⟨rfl, rfl, id, id⟩
  case h_5 =>
    split at h <;> cases h
    exact ⟨rfl, rfl, id, id⟩
  case h_8 =>
    cases h
    exact ⟨rfl, rfl, fun _ ↦ rfl, id⟩
  case h_10 => cases h
  all_goals
    cases h
    exact ⟨rfl, rfl, id, id⟩

theorem bystands_trySend {origin : Origin} {frame : Bytes} {err : Option String} :
    c.Bystands (c.trySend origin frame err) := by
  rw [trySend]
  split <;> exact ⟨rfl, rfl, id, id⟩

theorem bystands_serveStep {j : ℕ} {s : Serve} {e : ServeEvent} (h : c.serveStep j s e = some c') :
    c.Bystands c' := by
  rw [serveStep.eq_def] at h
  split at h
  case h_5 =>
    cases h
    obtain ⟨hkeep, hmissed, hfailed, hstopped⟩ := bystands_trySend
    exact ⟨hkeep, hmissed, hfailed, hstopped⟩
  case h_6 => cases h
  all_goals
    cases h
    exact ⟨rfl, rfl, id, id⟩

theorem bystands_readerStep {e : ReaderEvent} (h : c.readerStep e = some c') : c.Bystands c' := by
  rw [readerStep.eq_def] at h
  split at h
  · obtain ⟨t, -, rfl⟩ := Option.map_eq_some_iff.mp h
    exact ⟨rfl, rfl, id, id⟩
  · cases h
    obtain ⟨hkeep, hmissed, hfailed, hstopped⟩ := bystands_trySend
    exact ⟨hkeep, hmissed, hfailed, hstopped⟩
  · cases h

/-- Only the keepalive loop itself takes it further. -/
theorem bystands_step {e : Event} (he : ∀ k, e ≠ .keepalive k) (h : c.step e = some c') :
    c.Bystands c' := by
  cases e with
  | roundTrip reqID path token body =>
    rw [step, roundTrip] at h
    split at h <;> cases h
    exact ⟨rfl, rfl, id, id⟩
  | trip i e =>
    obtain ⟨t, -, h⟩ := Option.bind_eq_some_iff.mp h
    exact bystands_tripStep h
  | reader e => exact bystands_readerStep h
  | serve j e =>
    obtain ⟨s, -, h⟩ := Option.bind_eq_some_iff.mp h
    exact bystands_serveStep h
  | keepalive e => exact absurd rfl (he e)
  | close =>
    cases h
    exact ⟨rfl, rfl, id, fun _ ↦ rfl⟩

/-- A datagram is read, and a pong resets the counter. -/
structure Hears (c : Conn) (pong : Bool) (c' : Conn) : Prop where
  keepalive : c'.keepalive = c.keepalive
  failed : c'.failed = c.failed
  stopped : c'.stopped = c.stopped
  missedPongs : c.stopped = false → c'.missedPongs = if pong then 0 else c.missedPongs

theorem hears_dispatch (c : Conn) (k : ℕ) (data : Bytes) (reqID : UInt32) (typ : UInt8) :
    c.Hears (typ = udpRelayTypePong) (c.dispatch k data reqID typ) := by
  rw [dispatch]
  split
  · rename_i htyp
    subst htyp
    split <;> exact ⟨rfl, rfl, rfl, fun _ ↦ rfl⟩
  split
  · rename_i htyp
    subst htyp
    split
    · exact ⟨rfl, rfl, rfl, fun _ ↦ rfl⟩
    split <;> exact ⟨rfl, rfl, rfl, fun _ ↦ rfl⟩
  split
  · rename_i htyp
    subst htyp
    exact ⟨rfl, rfl, rfl, fun _ ↦ rfl⟩
  split <;> rename_i htyp
  · exact ⟨rfl, rfl, rfl, fun _ ↦ (if_pos (decide_eq_true htyp)).symm⟩
  · exact ⟨rfl, rfl, rfl, fun _ ↦ (if_neg (by simpa using htyp)).symm⟩

theorem hears_read {k : ℕ} {frame : Bytes} (h : c.read k frame = some c') :
    c.Hears (isPong frame) c' := by
  rw [read] at h
  split at h
  · cases h
  split at h
  · rename_i hstopped
    cases h
    exact ⟨rfl, rfl, rfl, fun hopen ↦ absurd (hopen.symm.trans hstopped) Bool.false_ne_true⟩
  dsimp only at h
  rw [isPong]
  split at h <;> rename_i hhead <;> cases h <;> rw [hhead]
  · obtain ⟨hkeep, hfailed, hstopped, hmissed⟩ := hears_dispatch
      { c with received := c.received ++ [(k, frame.take udpRelayMaxFrame)] } k
      (frame.take udpRelayMaxFrame) _ _
    exact ⟨hkeep, hfailed, hstopped, hmissed⟩
  · exact ⟨rfl, rfl, rfl, fun _ ↦ rfl⟩

end Conn

/-! ## The detection -/

namespace Watch

variable {w w' : Watch} {e : Event}

/-- **What the loop knows of the silence**, on a connection that is not closed. -/
def Aware (w : Watch) : Prop :=
  match w.conn.keepalive with
  | .ticking => w.quiet ≤ w.conn.missedPongs ∧ w.conn.missedPongs < udpRelayKeepaliveMiss
  | .counting => w.quiet ≤ w.conn.missedPongs + 1
  | .failing | .marking => True
  | .ended => w.conn.failed = true

/-- When a ping could not be written, this is the fifth failure in a row, or `failed` is set
already. -/
def Told (w : Watch) : Event → Prop
  | .act (.keepalive .fail) =>
    w.conn.failed = true ∨ udpRelayFailThresh ≤ w.conn.addFailure.failCount
  | _ => True

/-- What a step is. -/
theorem step_cases (h : w.step e = some w') :
    (∃ reqID err, w.conn.keepaliveStep (.tick reqID err) = some w'.conn ∧
        w'.quiet = w.quiet + 1) ∨
      (w.conn.keepalive = .ended ∧ w'.conn = w.conn) ∨
      (∃ k, w.conn.keepaliveStep k = some w'.conn ∧ w'.quiet = w.quiet ∧
        e = .act (.keepalive k)) ∨
      (w.conn.Bystands w'.conn ∧ w'.quiet = w.quiet) ∨
      (∃ frame, w.conn.Hears (isPong frame) w'.conn ∧
        w'.quiet = if isPong frame then 0 else w.quiet) := by
  cases e with
  | tick reqID err =>
    rw [step] at h
    split at h
    · obtain ⟨c, hc, rfl⟩ := Option.map_eq_some_iff.mp h
      exact .inl ⟨reqID, err, hc, rfl⟩
    · rename_i hended
      cases h
      exact .inr (.inl ⟨hended, rfl⟩)
    all_goals cases h
  | act e =>
    rw [step] at h
    split at h
    · cases h
    obtain ⟨c, hc, rfl⟩ := Option.map_eq_some_iff.mp h
    by_cases he : ∃ k, e = .keepalive k
    · obtain ⟨k, rfl⟩ := he
      exact .inr (.inr (.inl ⟨k, hc, rfl, rfl⟩))
    · exact .inr (.inr (.inr (.inl ⟨Conn.bystands_step (fun k hk ↦ he ⟨k, hk⟩) hc, rfl⟩)))
  | read k frame =>
    obtain ⟨c, hc, rfl⟩ := Option.map_eq_some_iff.mp h
    exact .inr (.inr (.inr (.inr ⟨frame, Conn.hears_read hc, rfl⟩)))

/-- The keepalive loop does not touch `stopCh`. -/
theorem stopped_keepaliveStep {c c' : Conn} {k : Conn.KeepaliveEvent}
    (h : c.keepaliveStep k = some c') : c'.stopped = c.stopped := by
  rw [Conn.keepaliveStep.eq_def] at h
  split at h
  case h_3 =>
    split at h <;> cases h
    rfl
  case h_7 => cases h
  all_goals
    cases h
    rfl

/-- The connection is not opened again. -/
theorem stopped_step (h : w.step e = some w') (hw : w.conn.stopped = true) :
    w'.conn.stopped = true := by
  rcases step_cases h with ⟨_, _, hk, -⟩ | ⟨-, hc⟩ | ⟨_, hk, -⟩ | ⟨hb, -⟩ | ⟨_, hh, -⟩
  · exact (stopped_keepaliveStep hk).trans hw
  · rw [hc]
    exact hw
  · exact (stopped_keepaliveStep hk).trans hw
  · exact hb.stopped hw
  · exact hh.stopped.trans hw

/-- A step of the loop itself. -/
theorem aware_keepaliveStep {k : Conn.KeepaliveEvent} (h : w.Aware)
    (htold : w.Told (.act (.keepalive k))) (hopen : w.conn.stopped = false)
    (hstep : w.conn.keepaliveStep k = some w'.conn) (hquiet : w'.quiet = w.quiet) : w'.Aware := by
  rw [Aware] at h ⊢
  rw [hquiet]
  rw [Conn.keepaliveStep.eq_def] at hstep
  split at hstep
  case h_1 _ hkeep =>
    rw [hkeep] at h
    rw [← Option.some_inj.mp hstep]
    exact h.1.trans (Nat.le_succ _)
  case h_2 =>
    rw [← Option.some_inj.mp hstep]
    trivial
  case h_3 =>
    rw [hopen] at hstep
    cases hstep
  case h_4 hkeep =>
    rw [hkeep] at h
    rw [← Option.some_inj.mp hstep]
    by_cases hmiss : udpRelayKeepaliveMiss ≤ w.conn.missedPongs + 1
    · simp only [if_pos hmiss]
    · simp only [if_neg hmiss]
      exact ⟨h, not_le.mp hmiss⟩
  case h_5 =>
    rw [← Option.some_inj.mp hstep]
    by_cases hfive : udpRelayFailThresh ≤ w.conn.addFailure.failCount
    · simp only [if_pos hfive]
    · simp only [if_neg hfive]
      exact htold.resolve_right hfive
  case h_6 =>
    rw [← Option.some_inj.mp hstep]
    rfl
  case h_7 => cases hstep

/-- A tick. -/
theorem aware_tick {reqID : UInt32} {err : Option String} (h : w.Aware)
    (hstep : w.conn.keepaliveStep (.tick reqID err) = some w'.conn)
    (hquiet : w'.quiet = w.quiet + 1) : w'.Aware := by
  rw [Aware] at h
  rw [Conn.keepaliveStep.eq_def] at hstep
  cases hkeep : w.conn.keepalive with
  | ticking =>
    rw [hkeep] at h hstep
    cases err with
    | none =>
      rw [Aware, ← Option.some_inj.mp hstep, hquiet]
      exact Nat.succ_le_succ h.1
    | some err =>
      rw [Aware, ← Option.some_inj.mp hstep]
      trivial
  | counting | failing | marking | ended =>
    rw [hkeep] at hstep
    cases hstep

theorem aware_step (h : w.Aware) (htold : w.Told e) (hstep : w.step e = some w')
    (hopen : w.conn.stopped = false) : w'.Aware := by
  rcases step_cases hstep with
    ⟨reqID, err, hk, hquiet⟩ | ⟨hended, hc⟩ | ⟨k, hk, hquiet, rfl⟩ | ⟨hb, hquiet⟩ |
      ⟨frame, hh, hquiet⟩
  · exact aware_tick h hk hquiet
  · rw [Aware, hended] at h
    rw [Aware, hc, hended]
    exact h
  · exact aware_keepaliveStep h htold hopen hk hquiet
  · rw [Aware] at h ⊢
    rw [hb.keepalive, hb.missedPongs, hquiet]
    split at h <;> first | exact h | exact hb.failed h
  · rw [Aware] at h ⊢
    rw [hh.keepalive, hh.missedPongs hopen, hquiet, hh.failed]
    cases isPong frame with
    | false => exact h
    | true =>
      split at h
      · exact ⟨Nat.le_refl 0, Nat.succ_pos 2⟩
      · exact Nat.zero_le _
      · trivial
      · trivial
      · exact h

/-- **Silence is noticed**: on a connection that is not closed, once three intervals have passed
without a pong, `Failed` returns true, if every ping that could not be written was the fifth failure
in a row, or came after `failed` was set. -/
theorem failed_of_quiet {controlURL : String} {es : List Event}
    (hrun : exec step (new controlURL) es = some w) (hopen : w.conn.stopped = false)
    (htold : Along step Told (new controlURL) es) (hsettled : w.Settled)
    (hquiet : udpRelayKeepaliveMiss ≤ w.quiet) : w.conn.failed = true := by
  have haware : w.conn.stopped = false → w.Aware := by
    refine Trace.inv_of_exec_along (P := fun w ↦ w.conn.stopped = false → w.Aware) (C := Told)
      ?_ ?_ htold hrun
    · intro w e w' hw htold hstep hopen'
      have hopen : w.conn.stopped = false := by
        by_contra hne
        exact absurd (hopen'.symm.trans (stopped_step hstep (Bool.eq_true_of_not_eq_false hne)))
          nofun
      exact aware_step (hw hopen) htold hstep hopen
    · exact fun _ ↦ ⟨Nat.le_refl 0, Nat.succ_pos 2⟩
  have hw := haware hopen
  rw [Aware] at hw
  rcases hsettled with hticking | hended
  · rw [hticking] at hw
    exact absurd (hquiet.trans hw.1) (not_le.mpr hw.2)
  · rw [hended] at hw
    exact hw

/-- A ping is written, and the missing pong is counted. -/
def ping (reqID : UInt32) : List Event := [.tick reqID none, .act (.keepalive .count)]

/-- Three pings go unanswered. -/
theorem failed_of_quiet_demo :
    ∃ w, exec step (new "") (ping 1 ++ ping 2 ++ ping 3 ++ [.act (.keepalive .mark)]) =
      some w ∧ w.quiet = 3 ∧ w.conn.failed = true := by
  have hrun : (exec step (new "")
      (ping 1 ++ ping 2 ++ ping 3 ++ [.act (.keepalive .mark)])).any (fun w ↦
        decide (w.conn.stopped = false ∧ w.Settled ∧ w.quiet = 3)) = true := by
    decide +kernel
  obtain ⟨w, hw, hend⟩ := (Option.any_eq_true _ _).mp hrun
  obtain ⟨hopen, hsettled, hquiet⟩ := of_decide_eq_true hend
  have htold : ∀ e ∈ ping 1 ++ ping 2 ++ ping 3 ++ [Event.act (.keepalive .mark)],
      ∀ w : Watch, w.Told e := by
    simp [ping, Told]
  refine ⟨w, hw, hquiet, failed_of_quiet hw hopen ?_ hsettled hquiet.ge⟩
  exact (Trace.along_of_forall_mem htold _).mono fun w _ he ↦ he w

/-- **The detection ends with an error that comes alone.**  Wherever a ping could not be written,
and this is not the fifth failure in a row, three more intervals may pass, and the connection does
not count as failed. -/
theorem unnoticed_of_failing (hw : w.conn.keepalive = .failing)
    (hbelow : w.conn.addFailure.failCount < udpRelayFailThresh) (hfailed : w.conn.failed = false) :
    ∃ w', exec step w
        [.act (.keepalive .fail), .tick 0 none, .tick 0 none, .tick 0 none] = some w' ∧
      w'.conn.stopped = w.conn.stopped ∧ w'.Settled ∧ udpRelayKeepaliveMiss ≤ w'.quiet ∧
      w'.conn.failed = false := by
  have hfail : w.step (.act (.keepalive .fail)) =
      some { w with conn := { w.conn.addFailure with keepalive := .ended } } := by
    rw [step, if_neg nofun, Conn.step, Conn.keepaliveStep.eq_def, hw]
    dsimp only
    rw [if_neg (not_le.mpr hbelow)]
    rfl
  refine ⟨⟨{ w.conn.addFailure with keepalive := .ended }, w.quiet + 3⟩, ?_, rfl, .inr rfl, ?_,
    hfailed⟩
  · exact Trace.exec_cons_eq_some.mpr ⟨_, hfail, rfl⟩
  · exact Nat.le_add_left 3 w.quiet

/-- **The peer is silent, and nobody notices**: the first ping could not be written. -/
theorem silence_unnoticed :
    ∃ w, exec step (new "") [.tick 1 (some "network is unreachable"), .act (.keepalive .fail),
        .tick 0 none, .tick 0 none, .tick 0 none] = some w ∧
      w.conn.stopped = false ∧ w.Settled ∧ udpRelayKeepaliveMiss ≤ w.quiet ∧
      w.conn.failed = false := by
  obtain ⟨w, hw, hrest⟩ := unnoticed_of_failing
    (w := ⟨{ Conn.new "" with keepalive := .failing }, 1⟩) rfl (by decide) rfl
  exact ⟨w, Trace.exec_cons_eq_some.mpr ⟨_, rfl, hw⟩, hrest⟩

end Watch

end TunnelCat.Relay
