import TunnelCat.Assoc.Session

/-!
# What a step of the session can do

Each goroutine owns a part of the session: `clientUDPAddr` is written by the relay loop only, and
only when it has read a datagram; the drain loops are started by the workers and then go on by
themselves.  The lemmas here say what the others leave alone.

`Relays` and `Works` list what a step of the relay loop and of a worker can be, so that what is
proved of such a step is proved with one case for each.
-/

set_option autoImplicit false

open Function

namespace TunnelCat.Assoc.Session

variable {s t : Session}

/-- What concerns the drain loops, and the destinations of the workers. -/
structure KeepsDrains (s t : Session) : Prop where
  drains : t.drains = s.drains
  drainActive : t.drainActive = s.drainActive
  stopped : t.stopped = s.stopped

/-- Workers keep their destination, and a new one is for the destination it is known under. -/
def KeepsWorkers (s t : Session) : Prop :=
  ∀ k w, t.tunnelWorkers k = some w →
    w.dst.key = k ∨ ∃ w', s.tunnelWorkers k = some w' ∧ w'.dst = w.dst

theorem KeepsWorkers.rfl : s.KeepsWorkers s := fun _ w hw ↦ .inr ⟨w, hw, Eq.refl _⟩

variable {k : Key} {w : Worker}

theorem keepsWorkers_of_update (ht : t.tunnelWorkers = update s.tunnelWorkers k (some w))
    (hw : w.dst.key = k ∨ ∃ w', s.tunnelWorkers k = some w' ∧ w'.dst = w.dst) :
    s.KeepsWorkers t := by
  intro j v hv
  rw [ht] at hv
  by_cases hj : j = k
  · subst hj
    rw [update_self, Option.some_inj] at hv
    exact hv ▸ hw
  · rw [update_of_ne hj] at hv
    exact .inr ⟨v, hv, rfl⟩

theorem keepsWorkers_putWorker {r : Session} {w w' : Worker} (hw : s.tunnelWorkers k = some w)
    (hr : r.tunnelWorkers = s.tunnelWorkers)
    (ht : t.tunnelWorkers = update r.tunnelWorkers k (some w')) (hdst : w'.dst = w.dst) :
    s.KeepsWorkers t :=
  keepsWorkers_of_update (hr ▸ ht) (.inr ⟨w, hw, hdst.symm⟩)

/-- What concerns the datagrams that the client sends, and its address. -/
structure Besides (s t : Session) : Prop where
  stats : t.stats = s.stats
  fallbacks : t.fallbacks = s.fallbacks
  now : t.now = s.now
  loop : t.loop = s.loop
  tunnelWorkers : t.tunnelWorkers = s.tunnelWorkers
  sends : t.sends = s.sends
  hired : t.hired = s.hired
  clientUDPAddr : t.clientUDPAddr = s.clientUDPAddr

theorem Besides.rfl : s.Besides s :=
  ⟨Eq.refl _, Eq.refl _, Eq.refl _, Eq.refl _, Eq.refl _, Eq.refl _, Eq.refl _, Eq.refl _⟩

/-! ## The relay loop -/

/-- **A step of the relay loop.** -/
inductive Relays (s : Session) : LoopEvent → Session → Prop where
  /-- It goes to the next datagram. -/
  | moves {e : LoopEvent} {l : LoopState} :
      e = .again ∨ e = .timeout ∨ e = .fail ∨ e = .abandon → l = .top ∨ l = .reading ∨ l = .ended →
      Relays s e { s with loop := l }
  /-- It has read one. -/
  | receives (src : Addr) (data : Bytes) (lookup : Lookup) :
      Relays s (.datagram src data lookup) (s.receive src (data.take bufferSize) lookup)
  | forwards (dst : Addr) (payload : Bytes) : Relays s .forward (s.forward dst payload)
  | routes {dst : Addr} {payload : Bytes} {useTunnel : Bool} {cnt : ℕ} (shouldBypass : Bool) :
      s.loop = .routing dst payload useTunnel cnt →
      Relays s (.route shouldBypass) (s.route dst payload useTunnel cnt shouldBypass)
  | finds {dst : Addr} {payload : Bytes} :
      s.loop = .goSending dst payload → Relays s .findQueue (s.findQueue dst payload)
  | enqueues {dst : Addr} {payload : Bytes} {w : Worker} :
      s.loop = .queueing dst payload → s.tunnelWorkers dst.key = some w →
      Relays s .enqueue
        { s.putWorker dst.key { w with queue := w.queue ++ [payload] } with loop := .top }

theorem relays_of_loopStep {e : LoopEvent} (h : s.loopStep e = some t) : s.Relays e t := by
  rw [loopStep.eq_def] at h
  split at h
  case h_1 =>
    cases h
    refine .moves (.inl rfl) ?_
    cases s.stopped with
    | false => exact .inr (.inl rfl)
    | true => exact .inr (.inr rfl)
  case h_2 =>
    cases h
    exact .moves (.inr (.inl rfl)) (.inl rfl)
  case h_3 =>
    cases h
    exact .moves (.inr (.inr (.inl rfl))) (.inr (.inr rfl))
  case h_4 src data lookup _ =>
    cases h
    exact .receives src data lookup
  case h_5 dst payload _ =>
    cases h
    exact .forwards dst payload
  case h_6 shouldBypass hs =>
    cases h
    exact .routes shouldBypass hs
  case h_7 hs =>
    cases h
    exact .finds hs
  case h_8 hs =>
    obtain ⟨w, hw, h⟩ := Option.bind_eq_some_iff.mp h
    split at h <;> cases h
    exact .enqueues hs hw
  case h_9 =>
    split at h <;> cases h
    exact .moves (.inr (.inr (.inr rfl))) (.inl rfl)
  case h_10 => cases h

/-- What the relay loop keeps while it deals with a datagram. -/
structure Forwards (s t : Session) : Prop extends s.KeepsDrains t where
  workers : s.KeepsWorkers t
  clientUDPAddr : t.clientUDPAddr = s.clientUDPAddr

theorem inbound_spec (s : Session) (src : Addr) (data : Bytes) :
    s.Forwards (s.inbound src data) ∧ (s.inbound src data).loop = .top := by
  rw [inbound]
  split <;> exact ⟨⟨⟨rfl, rfl, rfl⟩, .rfl, rfl⟩, rfl⟩

theorem forward_spec (s : Session) (dst : Addr) (payload : Bytes) :
    s.Forwards (s.forward dst payload) := by
  rw [forward]
  split
  · exact ⟨⟨rfl, rfl, rfl⟩, .rfl, rfl⟩
  split
  · split <;> exact ⟨⟨rfl, rfl, rfl⟩, .rfl, rfl⟩
  · exact ⟨⟨rfl, rfl, rfl⟩, .rfl, rfl⟩

theorem route_spec (s : Session) (dst : Addr) (payload : Bytes) (useTunnel : Bool) (cnt : ℕ)
    (shouldBypass : Bool) : s.Forwards (s.route dst payload useTunnel cnt shouldBypass) := by
  rw [route]
  dsimp only
  split <;> exact ⟨⟨rfl, rfl, rfl⟩, .rfl, rfl⟩

theorem findQueue_spec (s : Session) (dst : Addr) (payload : Bytes) :
    s.Forwards (s.findQueue dst payload) := by
  rw [findQueue]
  split
  · exact ⟨⟨rfl, rfl, rfl⟩, .rfl, rfl⟩
  split
  · exact ⟨⟨rfl, rfl, rfl⟩, .rfl, rfl⟩
  · exact ⟨⟨rfl, rfl, rfl⟩, keepsWorkers_of_update rfl (.inl rfl), rfl⟩

theorem enqueue_spec {dst : Addr} {payload : Bytes} (hw : s.tunnelWorkers dst.key = some w) :
    s.Forwards
      { s.putWorker dst.key { w with queue := w.queue ++ [payload] } with loop := .top } :=
  ⟨⟨rfl, rfl, rfl⟩, keepsWorkers_putWorker hw rfl rfl rfl, rfl⟩

theorem receive_spec (s : Session) (src : Addr) (data : Bytes) (lookup : Lookup) :
    s.KeepsDrains (s.receive src data lookup) ∧ s.KeepsWorkers (s.receive src data lookup) := by
  rw [receive]
  split
  · split <;> exact ⟨⟨rfl, rfl, rfl⟩, .rfl⟩
  · obtain ⟨hkeeps, -⟩ := inbound_spec s src data
    exact ⟨hkeeps.toKeepsDrains, hkeeps.workers⟩

/-- The relay loop lets all of this alone, except that it receives the datagrams that it reads. -/
theorem loopStep_spec {e : LoopEvent} (h : s.loopStep e = some t) :
    (∀ src data lookup, e ≠ .datagram src data lookup) ∧ s.Forwards t ∨
      ∃ src data lookup, e = .datagram src data lookup ∧
        t = s.receive src (data.take bufferSize) lookup := by
  cases relays_of_loopStep h with
  | moves he =>
    rcases he with rfl | rfl | rfl | rfl <;> exact .inl ⟨nofun, ⟨rfl, rfl, rfl⟩, .rfl, rfl⟩
  | receives src data lookup => exact .inr ⟨src, data, lookup, rfl, rfl⟩
  | forwards dst payload => exact .inl ⟨nofun, forward_spec s dst payload⟩
  | routes => exact .inl ⟨nofun, route_spec ..⟩
  | finds => exact .inl ⟨nofun, findQueue_spec ..⟩
  | enqueues _ hw => exact .inl ⟨nofun, enqueue_spec hw⟩

/-! ## Workers -/

theorem deliverFrame_spec (s : Session) (src client : Addr) (frames : List Bytes) :
    s.KeepsDrains (s.deliverFrame src client frames).1 ∧
      s.Besides (s.deliverFrame src client frames).1 := by
  rw [deliverFrame.eq_def]
  split
  · exact ⟨⟨rfl, rfl, rfl⟩, .rfl⟩
  split <;> exact ⟨⟨rfl, rfl, rfl⟩, rfl, rfl, rfl, rfl, rfl, rfl, rfl, rfl⟩

theorem startTunnelDrain_spec (s : Session) (dst : Addr) : s.Besides (s.startTunnelDrain dst) := by
  rw [startTunnelDrain]
  split <;> exact ⟨rfl, rfl, rfl, rfl, rfl, rfl, rfl, rfl⟩

/-- **A step of a worker.** -/
inductive Works (s : Session) (k : Key) (w : Worker) : WorkerEvent → Session → Prop where
  /-- It takes a datagram and passes it to `sendViaTunnel`. -/
  | takes {payload : Bytes} {rest : List Bytes} : w.queue = payload :: rest →
      Works s k w .take { s.putWorker k { w with queue := rest, state := .posting payload } with
        sends := s.sends ++ [(w.dst, payload)] }
  /-- It updates the circuit breaker. -/
  | records (ok : Bool) :
      Works s k w .record ((s.modifyStats w.dst.key (DstStats.recordSend s.now ok)).putWorker k
        { w with state := .waiting })
  /-- It goes on otherwise, and may start the drain loop of its destination. -/
  | goes {e : WorkerEvent} {r : Session} {state : WorkerState} : e ≠ .take → e ≠ .record →
      s.Besides r → e ≠ .start ∧ s.KeepsDrains r ∨ e = .start ∧ r = s.startTunnelDrain w.dst →
      Works s k w e (r.putWorker k { w with state := state })

theorem works_of_workerStep {e : WorkerEvent} (h : s.workerStep k w e = some t) :
    s.Works k w e t := by
  rw [workerStep.eq_def] at h
  split at h
  case h_1 =>
    split at h <;> cases h
    exact .takes ‹_›
  case h_2 =>
    split at h <;> cases h
    exact .goes nofun nofun .rfl (.inl ⟨nofun, rfl, rfl, rfl⟩)
  case h_4 =>
    split at h <;> cases h <;> exact .goes nofun nofun .rfl (.inl ⟨nofun, rfl, rfl, rfl⟩)
  case h_5 client frames _ =>
    cases h
    obtain ⟨hdrains, hbesides⟩ := deliverFrame_spec s w.dst client frames
    exact .goes nofun nofun hbesides (.inl ⟨nofun, hdrains⟩)
  case h_6 =>
    cases h
    exact .goes nofun nofun (startTunnelDrain_spec s w.dst) (.inr ⟨rfl, rfl⟩)
  case h_7 ok _ =>
    cases h
    exact .records ok
  case h_8 => cases h
  all_goals
    cases h
    exact .goes nofun nofun .rfl (.inl ⟨nofun, rfl, rfl, rfl⟩)

/-- A worker lets the drain loops alone, except that it may start one for its destination. -/
theorem workerStep_spec {e : WorkerEvent} (hw : s.tunnelWorkers k = some w)
    (h : s.workerStep k w e = some t) :
    s.KeepsWorkers t ∧ t.clientUDPAddr = s.clientUDPAddr ∧
      (e ≠ .start ∧ s.KeepsDrains t ∨ e = .start ∧ (s.startTunnelDrain w.dst).KeepsDrains t) := by
  cases works_of_workerStep h with
  | takes | records =>
    exact ⟨keepsWorkers_putWorker hw rfl rfl rfl, rfl, .inl ⟨nofun, rfl, rfl, rfl⟩⟩
  | goes _ _ hbesides hdrains =>
    refine ⟨keepsWorkers_putWorker hw hbesides.tunnelWorkers rfl rfl, hbesides.clientUDPAddr, ?_⟩
    rcases hdrains with ⟨hne, hdrains, hactive, hstopped⟩ | ⟨rfl, rfl⟩
    · exact .inl ⟨hne, hdrains, hactive, hstopped⟩
    · exact .inr ⟨rfl, rfl, rfl, rfl⟩

/-! ## Drain loops -/

/-- A drain loop that goes on has not returned; it returns when the session has ended, or when its
poll is cancelled. -/
theorem drainStep_spec {i : ℕ} {d : Drain} {e : DrainEvent} (h : s.drainStep i d e = some t) :
    s.Besides t ∧ t.drainActive = s.drainActive ∧ t.stopped = s.stopped ∧
      ∃ d', t.drains = s.drains.set i d' ∧ d'.dst = d.dst ∧
        (d'.state = .stopped → s.stopped = true) := by
  rw [drainStep.eq_def] at h
  split at h
  case h_1 found _ =>
    cases h
    refine ⟨⟨rfl, rfl, rfl, rfl, rfl, rfl, rfl, rfl⟩, rfl, rfl, _, rfl, rfl, fun hd ↦ ?_⟩
    by_contra hlive
    rw [if_neg hlive] at hd
    cases found <;> cases hd
  case h_4 =>
    split at h <;> cases h <;>
      exact ⟨⟨rfl, rfl, rfl, rfl, rfl, rfl, rfl, rfl⟩, rfl, rfl, _, rfl, rfl, nofun⟩
  case h_5 client frames _ =>
    rw [Option.some_inj] at h
    subst h
    obtain ⟨hdrains, hstats, hchecks, hnow, hloop, hworkers, hsends, hhired, hclient⟩ :=
      deliverFrame_spec s d.dst client frames
    have hset : ∀ d', ((s.deliverFrame d.dst client frames).1.putDrain i d').drains =
        s.drains.set i d' := fun d' ↦ by rw [putDrain, hdrains.drains]
    refine ⟨⟨hstats, hchecks, hnow, hloop, hworkers, hsends, hhired, hclient⟩, hdrains.drainActive,
      hdrains.stopped, _, hset _, rfl, fun hd ↦ ?_⟩
    dsimp only at hd
    split at hd <;> cases hd
  case h_7 =>
    split at h
    · rename_i hstopped
      cases h
      exact ⟨⟨rfl, rfl, rfl, rfl, rfl, rfl, rfl, rfl⟩, rfl, rfl, _, rfl, rfl, fun _ ↦ hstopped⟩
    · cases h
  case h_8 => cases h
  all_goals
    cases h
    exact ⟨⟨rfl, rfl, rfl, rfl, rfl, rfl, rfl, rfl⟩, rfl, rfl, _, rfl, rfl, nofun⟩

end TunnelCat.Assoc.Session
