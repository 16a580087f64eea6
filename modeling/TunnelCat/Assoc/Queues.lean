import TunnelCat.Assoc.Draining
import TunnelCat.Lib.Fifo

/-!
# The order of datagrams in the tunnel

`goSendViaTunnel` puts a datagram into the queue of its destination, and makes the queue and starts
the worker if this is the first.  There are many workers, but each takes from its own queue, and
there is one relay loop, so nobody else can put anything in or make a second queue.

`queueOp` says which operation on the queues a step is, and `refines_step` that the steps of a
session are steps of a family of queues (`Fifo.Does`).  So the ledger of such a family is kept, and
`sent_prefix_accepted` reads it: for every destination, what was passed to `sendViaTunnel` is what
`goSendViaTunnel` accepted, without what is still queued.
-/

set_option autoImplicit false

open Function Trace

namespace TunnelCat.Assoc

namespace Session

variable {s t : Session} {k : Key}

/-- The queues of the workers. -/
def queues (s : Session) (k : Key) : Option (List Bytes) := (s.tunnelWorkers k).map Worker.queue

/-- What a step does to the queues.  `goSendViaTunnel` makes a queue only if it does not drop the
datagram, and it has accepted the datagram when it is in the queue. -/
def queueOp (s : Session) : Event → Option (Fifo.Op Key Bytes)
  | .relay .findQueue =>
    match s.loop with
    | .goSending dst _ =>
      if s.circuitOpen dst.key then none
      else if (s.tunnelWorkers dst.key).isSome then none
      else some (.create dst.key)
    | _ => none
  | .relay .enqueue =>
    match s.loop with
    | .queueing dst payload => some (.push dst.key payload)
    | _ => none
  | .worker k .take =>
    match s.queues k with
    | some (payload :: _) => some (.pop k payload)
    | _ => none
  | _ => none

/-- What is done to the queues in a run. -/
def queueOps (s : Session) (es : List Event) : List (Fifo.Op Key Bytes) :=
  observed step queueOp s es

/-- The payloads that `goSendViaTunnel` accepts for a destination. -/
def accepted (s : Session) (es : List Event) (k : Key) : List Bytes :=
  Fifo.pushed k (s.queueOps es)

/-- The payloads that were passed to `sendViaTunnel` for a destination. -/
def sent (s : Session) (k : Key) : List Bytes :=
  (s.sends.filter fun send ↦ send.1.key = k).map Prod.snd

/-! ## The relay loop -/

/-- Neither the queues change nor what is recorded about them. -/
structure Apart (s t : Session) : Prop where
  tunnelWorkers : t.tunnelWorkers = s.tunnelWorkers
  sends : t.sends = s.sends
  hired : t.hired = s.hired

theorem apart_receive (s : Session) (src : Addr) (data : Bytes) (lookup : Lookup) :
    s.Apart (s.receive src data lookup) := by
  rw [receive]
  split
  · split <;> exact ⟨rfl, rfl, rfl⟩
  · rw [inbound]
    split <;> exact ⟨rfl, rfl, rfl⟩

theorem apart_forward (s : Session) (dst : Addr) (payload : Bytes) :
    s.Apart (s.forward dst payload) := by
  rw [forward]
  split
  · exact ⟨rfl, rfl, rfl⟩
  split
  · split <;> exact ⟨rfl, rfl, rfl⟩
  · exact ⟨rfl, rfl, rfl⟩

theorem apart_route (s : Session) (dst : Addr) (payload : Bytes) (useTunnel : Bool) (cnt : ℕ)
    (shouldBypass : Bool) : s.Apart (s.route dst payload useTunnel cnt shouldBypass) := by
  rw [route]
  dsimp only
  split <;> exact ⟨rfl, rfl, rfl⟩

theorem Besides.apart (h : s.Besides t) : s.Apart t := ⟨h.tunnelWorkers, h.sends, h.hired⟩

variable {w : Worker} {e : Event} {payload : Bytes}

/-- Another queue is there, or another one of them is changed. -/
theorem queues_update (ht : t.tunnelWorkers = update s.tunnelWorkers k (some w)) :
    t.queues = update s.queues k (some w.queue) := by
  funext j
  rw [queues, ht]
  by_cases hj : j = k
  · rw [hj, update_self, update_self, Option.map_some]
  · rw [update_of_ne hj, update_of_ne hj, queues]

/-- **A step of the session is a step of its queues**: what is taken out of a queue is sent to its
destination, and a worker is started for each queue that is made. -/
structure Refines (s : Session) (e : Event) (t : Session) : Prop where
  does : Fifo.Does s.queues (s.queueOp e) t.queues
  sent : ∀ j, t.sent j = s.sent j ++ ((s.queueOp e).bind (Fifo.Op.popped j)).toList
  hired : t.hired.map Addr.key = s.hired.map Addr.key ++
    ((s.queueOp e).bind Fifo.Op.created).toList

theorem refines_of_same (hop : s.queueOp e = none) (hqueues : t.queues = s.queues)
    (hsends : t.sends = s.sends) (hhired : t.hired = s.hired) : s.Refines e t := by
  refine ⟨?_, fun j ↦ ?_, ?_⟩
  · rw [hop, hqueues]
    exact .nothing
  · rw [hop, sent, hsends, Option.bind_none, Option.toList_none, List.append_nil, sent]
  · rw [hop, hhired, Option.bind_none, Option.toList_none, List.append_nil]

theorem Apart.refines (h : s.Apart t) (hop : s.queueOp e = none) : s.Refines e t := by
  refine refines_of_same hop ?_ h.sends h.hired
  funext j
  rw [queues, h.tunnelWorkers, queues]

theorem refines_of_update {op : Fifo.Op Key Bytes} (hop : s.queueOp e = some op)
    (ht : t.tunnelWorkers = update s.tunnelWorkers k (some w))
    (hdoes : Fifo.Does s.queues (some op) (update s.queues k (some w.queue)))
    (hsent : ∀ j, t.sent j = s.sent j ++ (op.popped j).toList)
    (hhired : t.hired.map Addr.key = s.hired.map Addr.key ++ op.created.toList) :
    s.Refines e t := by
  refine ⟨?_, fun j ↦ ?_, ?_⟩
  · rw [hop, queues_update ht]
    exact hdoes
  · rw [hop]
    exact hsent j
  · rw [hop]
    exact hhired

theorem refines_findQueue {dst : Addr} (hs : s.loop = .goSending dst payload) :
    s.Refines (.relay .findQueue) (s.findQueue dst payload) := by
  have hop : s.queueOp (.relay .findQueue) =
      if s.circuitOpen dst.key then none
      else if (s.tunnelWorkers dst.key).isSome then none else some (.create dst.key) := by
    rw [queueOp, hs]
  rw [findQueue]
  cases hopen : s.circuitOpen dst.key with
  | true =>
    rw [hopen, if_pos rfl] at hop
    exact refines_of_same hop rfl rfl rfl
  | false =>
    rw [hopen, if_neg Bool.false_ne_true] at hop
    rw [if_neg Bool.false_ne_true]
    cases hw : s.tunnelWorkers dst.key with
    | some w =>
      rw [hw, Option.isSome_some, if_pos rfl] at hop
      exact refines_of_same hop rfl rfl rfl
    | none =>
      rw [hw, Option.isSome_none, if_neg Bool.false_ne_true] at hop
      have hk : s.queues dst.key = none := by rw [queues, hw, Option.map_none]
      exact refines_of_update hop rfl (.create hk) (fun j ↦ (List.append_nil _).symm)
        List.map_append

theorem refines_enqueue {dst : Addr} (hs : s.loop = .queueing dst payload)
    (hw : s.tunnelWorkers dst.key = some w) :
    s.Refines (.relay .enqueue)
      { s.putWorker dst.key { w with queue := w.queue ++ [payload] } with loop := .top } := by
  have hop : s.queueOp (.relay .enqueue) = some (.push dst.key payload) := by rw [queueOp, hs]
  have hk : s.queues dst.key = some w.queue := by rw [queues, hw, Option.map_some]
  exact refines_of_update hop rfl (.push hk) (fun j ↦ (List.append_nil _).symm)
    (List.append_nil _).symm

theorem refines_loopStep {e : LoopEvent} (h : s.loopStep e = some t) : s.Refines (.relay e) t := by
  cases relays_of_loopStep h with
  | moves he hl =>
    rcases he with rfl | rfl | rfl | rfl <;> exact refines_of_same rfl rfl rfl rfl
  | receives src data lookup => exact (apart_receive s src _ lookup).refines rfl
  | forwards dst payload => exact (apart_forward s dst payload).refines rfl
  | routes shouldBypass => exact (apart_route s _ _ _ _ shouldBypass).refines rfl
  | finds hs => exact refines_findQueue hs
  | enqueues hs hw => exact refines_enqueue hs hw

/-! ## The other goroutines -/

/-- A worker goes on, but not to the next datagram. -/
theorem refines_putWorker {r : Session} {w w' : Worker} {e : WorkerEvent}
    (hw : s.tunnelWorkers k = some w) (hr : s.Apart r) (hqueue : w'.queue = w.queue)
    (hop : s.queueOp (.worker k e) = none) : s.Refines (.worker k e) (r.putWorker k w') := by
  refine refines_of_same hop ?_ hr.sends hr.hired
  have hk : s.queues k = some w'.queue := by rw [queues, hw, Option.map_some, hqueue]
  rw [queues_update (s := s) (k := k) (w := w') (by rw [putWorker, hr.tunnelWorkers]), ← hk,
    update_eq_self]

theorem refines_take {rest : List Bytes} (hw : s.tunnelWorkers k = some w)
    (hqueue : w.queue = payload :: rest) (hdst : w.dst.key = k) :
    s.Refines (.worker k .take)
      { s.putWorker k { w with queue := rest, state := .posting payload } with
        sends := s.sends ++ [(w.dst, payload)] } := by
  have hk : s.queues k = some (payload :: rest) := by rw [queues, hw, Option.map_some, hqueue]
  have hop : s.queueOp (.worker k .take) = some (.pop k payload) := by rw [queueOp, hk]
  refine refines_of_update hop rfl (.pop hk) (fun j ↦ ?_) (List.append_nil _).symm
  rw [Fifo.Op.popped, sent, sent, List.filter_append, List.map_append, List.filter_singleton, hdst]
  by_cases hj : k = j
  · simp [hj]
  · simp [hj]

theorem refines_workerStep {e : WorkerEvent} (hw : s.tunnelWorkers k = some w)
    (hdst : w.dst.key = k) (h : s.workerStep k w e = some t) : s.Refines (.worker k e) t := by
  cases works_of_workerStep h with
  | takes hqueue => exact refines_take hw hqueue hdst
  | records ok => exact refines_putWorker hw ⟨rfl, rfl, rfl⟩ rfl rfl
  | goes htake _ hbesides =>
    refine refines_putWorker hw hbesides.apart rfl ?_
    cases e with
    | take => exact absurd rfl htake
    | stop | posted _ | deliver | start | record => rfl

theorem refines_drainStep {i : ℕ} {d : Drain} {e : DrainEvent} (h : s.drainStep i d e = some t) :
    s.Refines (.drain i e) t :=
  (drainStep_spec h).1.apart.refines rfl

/-- **Every step of a session is a step of its queues.** -/
theorem refines_step (hs : s.Marked) (h : s.step e = some t) : s.Refines e t := by
  cases e with
  | relay e => exact refines_loopStep h
  | worker k e =>
    obtain ⟨w, hw, h⟩ := Option.bind_eq_some_iff.mp h
    exact refines_workerStep hw (hs.workers k w hw) h
  | drain i e =>
    obtain ⟨d, -, h⟩ := Option.bind_eq_some_iff.mp h
    exact refines_drainStep h
  | fallback i =>
    obtain ⟨f, -, h⟩ := Option.bind_eq_some_iff.mp h
    split at h <;> cases h
    exact refines_of_same rfl rfl rfl rfl
  | tick d | stop =>
    cases h
    exact refines_of_same rfl rfl rfl rfl

/-- What is known of a session after a run in which this was done to its queues. -/
structure Booked (ops : List (Fifo.Op Key Bytes)) (s : Session) : Prop where
  marked : s.Marked
  ledger : Fifo.Ledger ops s.queues
  sent : ∀ k, s.sent k = Fifo.popped k ops
  hired : s.hired.map Addr.key = Fifo.created ops

theorem Booked.step {ops : List (Fifo.Op Key Bytes)} (h : Booked ops s)
    (hstep : s.step e = some t) : Booked (ops ++ (s.queueOp e).toList) t := by
  have hrefines := refines_step h.marked hstep
  refine ⟨h.marked.step hstep, h.ledger.step hrefines.does, fun k ↦ ?_, ?_⟩
  · rw [hrefines.sent k, h.sent k, Fifo.popped_append_toList]
  · rw [hrefines.hired, h.hired, Fifo.created_append_toList]

theorem booked_new (tunnelOnly altDNSRouting blockQUIC : Bool) (now : ℤ) :
    Booked [] (new tunnelOnly altDNSRouting blockQUIC now) where
  marked := marked_new ..
  ledger := Fifo.ledger_nil
  sent _ := rfl
  hired := rfl

end Session

/-- **Datagrams to one destination keep their order**: in every run of a session, what was passed to
`sendViaTunnel` for a destination is the beginning of what `goSendViaTunnel` has accepted for it,
and the rest is still queued.  For each destination a worker is started at most once, and it is
there exactly if there is a queue. -/
theorem sent_prefix_accepted {tunnelOnly altDNSRouting blockQUIC : Bool} {now : ℤ}
    {es : List Session.Event} {t : Session}
    (h : exec Session.step (.new tunnelOnly altDNSRouting blockQUIC now) es = some t) :
    (∀ k, t.sent k <+: (Session.new tunnelOnly altDNSRouting blockQUIC now).accepted es k ∧
      (Session.new tunnelOnly altDNSRouting blockQUIC now).accepted es k =
        t.sent k ++ (t.queues k).getD []) ∧
    (t.hired.map Addr.key).Nodup ∧
    ∀ k, k ∈ t.hired.map Addr.key ↔ ∃ w, t.tunnelWorkers k = some w ∧ w.dst.key = k := by
  have hbooked := observed_of_exec Session.Booked.step (Session.booked_new ..) h
  rw [hbooked.hired]
  refine ⟨fun k ↦ ?_, hbooked.ledger.once, fun k ↦ ?_⟩
  · rw [hbooked.sent k]
    exact ⟨hbooked.ledger.popped_prefix k, hbooked.ledger.order k⟩
  · refine (hbooked.ledger.mem_created k).trans ?_
    rw [Session.queues, Option.isSome_map, Option.isSome_iff_exists]
    exact ⟨fun ⟨w, hw⟩ ↦ ⟨w, hw, hbooked.marked.workers k w hw⟩, fun ⟨w, hw, _⟩ ↦ ⟨w, hw⟩⟩

/-- The client sends a datagram to `9.9.9.9:7000`, up to the point where it is in the queue. -/
def offered (payload : UInt8) : List Session.Event :=
  [.relay .again,
    .relay (.datagram ⟨[127, 0, 0, 1], 5000⟩ [0, 0, 0, 1, 9, 9, 9, 9, 27, 88, payload]
      fun _ ↦ .ok []),
    .relay .forward, .relay (.route false), .relay .findQueue, .relay .enqueue]

/-- Two datagrams to the same destination, of which its worker takes one. -/
def twoOffered : List Session.Event :=
  offered 1 ++ offered 2 ++ [.worker ([9, 9, 9, 9], 7000) .take]

/-- Both are accepted, and the first has been sent, by the one worker there is. -/
theorem sent_prefix_accepted_demo :
    ∃ t, exec Session.step (.new false false false 0) twoOffered = some t ∧
      (Session.new false false false 0).accepted twoOffered ([9, 9, 9, 9], 7000) = [[1], [2]] ∧
      t.sent ([9, 9, 9, 9], 7000) = [[1]] ∧ t.hired = [⟨[9, 9, 9, 9], 7000⟩] ∧
      [[1], [2]] = t.sent ([9, 9, 9, 9], 7000) ++ (t.queues ([9, 9, 9, 9], 7000)).getD [] := by
  have hrun : (exec Session.step (.new false false false 0) twoOffered).map (fun t ↦
      (t.sent ([9, 9, 9, 9], 7000), t.hired)) = some ([[1]], [⟨[9, 9, 9, 9], 7000⟩]) := by
    decide +kernel
  obtain ⟨t, ht, hview⟩ := Option.map_eq_some_iff.mp hrun
  obtain ⟨hsent, hhired⟩ := Prod.mk.inj hview
  have haccepted : (Session.new false false false 0).accepted twoOffered ([9, 9, 9, 9], 7000) =
      [[1], [2]] := by
    decide +kernel
  refine ⟨t, ht, haccepted, hsent, hhired, ?_⟩
  rw [← haccepted]
  exact ((sent_prefix_accepted ht).1 _).2

end TunnelCat.Assoc
