import TunnelCat.Assoc.Queues

/-!
# The circuit breaker

After five failures in a row a destination is blocked for five seconds.  `goSendViaTunnel` drops
the datagrams for a blocked destination; but the failures are counted by the worker, at the other
end of the queue, and it does not look whether the destination is blocked before it takes the next
datagram.  So what was accepted before goes out all the same (`sent_while_open`).

The invariant that would be needed is `Quenched`: while a destination is blocked, nothing is queued
for it, and the relay loop is not about to queue anything.  Every step keeps it except the one that
opens the circuit, so `circuitOpen_of_take` asks it of that step alone.  `take_of_not_idle` says
that it has to be asked: otherwise the next datagram is sent at once.
-/

set_option autoImplicit false

open Function Trace

namespace TunnelCat.Assoc

namespace Session

variable {s t : Session} {k : Key} {e : Event}

/-- The destination whose queue the relay loop is about to use. -/
def queueingFor (s : Session) : Option Key :=
  match s.loop with
  | .queueing dst _ => some dst.key
  | _ => none

/-- Nothing is queued for a destination, or about to be. -/
def Idle (s : Session) (k : Key) : Prop := (s.queues k).getD [] = [] ∧ s.queueingFor ≠ some k

instance (s : Session) (k : Key) : Decidable (s.Idle k) := inferInstanceAs (Decidable (_ ∧ _))

/-- While a destination is blocked, nothing is queued for it. -/
def Quenched (s : Session) : Prop := ∀ k, s.circuitOpen k = true → s.Idle k

/-- If the step opens a circuit, nothing is queued for that destination. -/
def OpensIdle (s : Session) : Event → Prop
  | .worker k .record => (s.step (.worker k .record)).any (·.circuitOpen k) = true → s.Idle k
  | _ => True

instance (s : Session) (e : Event) : Decidable (s.OpensIdle e) :=
  match e with
  | .worker k .record => inferInstanceAs (Decidable (_ = true → s.Idle k))
  | .worker _ .take | .worker _ .stop | .worker _ (.posted _) | .worker _ .deliver
  | .worker _ .start | .relay _ | .drain _ _ | .fallback _ | .tick _ | .stop => isTrue trivial

/-! ## When a circuit opens -/

/-- Until when a destination is blocked. -/
def blockedUntil (s : Session) (k : Key) : Option ℤ := (s.stats k).bind DstStats.tunnelBlockedUntil

theorem circuitOpen_iff : s.circuitOpen k = true ↔ ∃ u ∈ s.blockedUntil k, s.now < u := by
  rw [circuitOpen, blockedUntil]
  cases (s.stats k).bind DstStats.tunnelBlockedUntil <;> simp

/-- A circuit stays as it is, except that time passes. -/
theorem circuitOpen_mono (h : t.circuitOpen k = true)
    (hblocked : t.blockedUntil k = s.blockedUntil k) (hnow : s.now ≤ t.now) :
    s.circuitOpen k = true := by
  rw [circuitOpen_iff, hblocked] at h
  obtain ⟨u, hu, hlt⟩ := h
  exact circuitOpen_iff.mpr ⟨u, hu, hnow.trans_lt hlt⟩

theorem blockedUntil_modifyStats {j : Key} {f : DstStats → DstStats}
    (hf : j = k → ∀ st, (f st).tunnelBlockedUntil = st.tunnelBlockedUntil) :
    (s.modifyStats j f).blockedUntil k = s.blockedUntil k := by
  rw [blockedUntil, modifyStats, blockedUntil]
  dsimp only
  by_cases hk : k = j
  · rw [hk, update_self]
    cases s.stats j with
    | none => rfl
    | some st => exact hf hk.symm st
  · rw [update_of_ne hk]

theorem blockedUntil_receive (s : Session) (src : Addr) (data : Bytes) (lookup : Lookup) :
    (s.receive src data lookup).blockedUntil k = s.blockedUntil k ∧
      (s.receive src data lookup).now = s.now := by
  have hrecord : (s.recordRecv src).blockedUntil k = s.blockedUntil k :=
    blockedUntil_modifyStats fun _ _ ↦ rfl
  rw [receive]
  split
  · split <;> exact ⟨rfl, rfl⟩
  · rw [inbound]
    split <;> exact ⟨hrecord, rfl⟩

theorem blockedUntil_forward (s : Session) (dst : Addr) (payload : Bytes) :
    (s.forward dst payload).blockedUntil k = s.blockedUntil k ∧
      (s.forward dst payload).now = s.now := by
  rw [forward]
  split
  · exact ⟨rfl, rfl⟩
  split
  · split <;> exact ⟨rfl, rfl⟩
  · refine ⟨?_, rfl⟩
    rw [blockedUntil, blockedUntil]
    dsimp only
    by_cases hk : k = dst.key
    · rw [hk, update_self]
      cases s.stats dst.key with
      | none => rfl
      | some st => cases hst : st.useTunnel <;> simp [hst]
    · rw [update_of_ne hk]

theorem blockedUntil_loopStep {e : LoopEvent} (h : s.loopStep e = some t) :
    t.blockedUntil k = s.blockedUntil k ∧ t.now = s.now := by
  cases relays_of_loopStep h with
  | moves | enqueues => exact ⟨rfl, rfl⟩
  | receives => exact blockedUntil_receive ..
  | forwards => exact blockedUntil_forward ..
  | routes =>
    rw [route]
    dsimp only
    split <;> exact ⟨rfl, rfl⟩
  | finds =>
    rw [findQueue]
    split
    · exact ⟨rfl, rfl⟩
    split <;> exact ⟨rfl, rfl⟩

/-- A step that leaves the counters alone does not open a circuit. -/
theorem circuitOpen_of_besides (h : s.Besides t) (hk : t.circuitOpen k = true) :
    s.circuitOpen k = true := by
  refine circuitOpen_mono hk ?_ h.now.ge
  rw [blockedUntil, h.stats, blockedUntil]

/-- **Only the worker of a destination opens its circuit.** -/
theorem circuitOpen_of_step (hs : s.Marked) (h : s.step e = some t) (hk : t.circuitOpen k = true) :
    s.circuitOpen k = true ∨ e = .worker k .record := by
  cases e with
  | relay e =>
    obtain ⟨hblocked, hnow⟩ := blockedUntil_loopStep h
    exact .inl (circuitOpen_mono hk hblocked hnow.ge)
  | worker j e =>
    obtain ⟨w, hw, h⟩ := Option.bind_eq_some_iff.mp h
    cases works_of_workerStep h with
    | takes => exact .inl hk
    | records ok =>
      by_cases hj : j = k
      · exact .inr (hj ▸ rfl)
      · refine .inl (circuitOpen_mono hk ?_ le_rfl)
        exact blockedUntil_modifyStats fun hdst ↦ absurd ((hs.workers j w hw).symm.trans hdst) hj
    | goes _ _ hbesides => exact .inl (circuitOpen_of_besides hbesides hk)
  | drain i e =>
    obtain ⟨d, -, h⟩ := Option.bind_eq_some_iff.mp h
    exact .inl (circuitOpen_of_besides (drainStep_spec h).1 hk)
  | fallback i =>
    obtain ⟨f, -, h⟩ := Option.bind_eq_some_iff.mp h
    split at h <;> cases h
    refine .inl (circuitOpen_mono hk ?_ le_rfl)
    refine blockedUntil_modifyStats fun _ st ↦ ?_
    split <;> rfl
  | tick d =>
    cases h
    exact .inl (circuitOpen_mono hk rfl (Int.le_add_of_nonneg_right (Int.natCast_nonneg d)))
  | stop =>
    cases h
    exact .inl hk

/-! ## What is queued meanwhile -/

/-- What is put into a queue is put there by the relay loop. -/
theorem queueingFor_of_push {payload : Bytes} (h : s.queueOp e = some (.push k payload)) :
    s.queueingFor = some k := by
  rw [queueOp.eq_def] at h
  split at h
  · split at h
    · split at h
      · cases h
      split at h <;> cases h
    · cases h
  · split at h
    · rename_i hloop
      rw [queueingFor, hloop]
      cases h
      rfl
    · cases h
  · split at h <;> cases h
  · cases h

theorem queueingFor_receive (s : Session) (src : Addr) (data : Bytes) (lookup : Lookup) :
    (s.receive src data lookup).queueingFor = none := by
  rw [receive]
  split
  · split <;> rfl
  · rw [inbound]
    split <;> rfl

theorem queueingFor_forward (s : Session) (dst : Addr) (payload : Bytes) :
    (s.forward dst payload).queueingFor = none := by
  rw [forward]
  split
  · rfl
  split
  · split <;> rfl
  · rfl

theorem queueingFor_route (s : Session) (dst : Addr) (payload : Bytes) (useTunnel : Bool)
    (cnt : ℕ) (shouldBypass : Bool) :
    (s.route dst payload useTunnel cnt shouldBypass).queueingFor = none := by
  rw [route]
  dsimp only
  split <;> rfl

theorem queueingFor_findQueue {dst : Addr} {payload : Bytes}
    (h : (s.findQueue dst payload).queueingFor = some k) : s.circuitOpen k = false := by
  rw [findQueue] at h
  split at h
  · cases h
  · rename_i hclosed
    have hk : dst.key = k := by
      split at h <;> exact Option.some_inj.mp h
    exact hk ▸ Bool.eq_false_of_not_eq_true hclosed

theorem queueingFor_loopStep {e : LoopEvent} (h : s.loopStep e = some t)
    (ht : t.queueingFor = some k) : e = .findQueue ∧ s.circuitOpen k = false := by
  have hnone : t.queueingFor = none → e = .findQueue ∧ s.circuitOpen k = false :=
    fun hno ↦ absurd (ht.symm.trans hno) nofun
  cases relays_of_loopStep h with
  | moves _ hl => rcases hl with rfl | rfl | rfl <;> exact hnone rfl
  | receives => exact hnone (queueingFor_receive ..)
  | forwards => exact hnone (queueingFor_forward ..)
  | routes => exact hnone (queueingFor_route ..)
  | finds => exact ⟨rfl, queueingFor_findQueue ht⟩
  | enqueues => exact hnone rfl

/-- The relay loop does not begin to queue anything for a blocked destination. -/
theorem queueingFor_step (h : s.step e = some t) (ht : t.queueingFor = some k) :
    s.queueingFor = some k ∨ e = .relay .findQueue ∧ s.circuitOpen k = false := by
  have hkeep : t.loop = s.loop → s.queueingFor = some k := by
    intro hloop
    rwa [queueingFor, hloop] at ht
  cases e with
  | relay e =>
    obtain ⟨rfl, hclosed⟩ := queueingFor_loopStep h ht
    exact .inr ⟨rfl, hclosed⟩
  | worker j e =>
    obtain ⟨w, hw, h⟩ := Option.bind_eq_some_iff.mp h
    cases works_of_workerStep h with
    | takes | records => exact .inl (hkeep rfl)
    | goes _ _ hbesides => exact .inl (hkeep hbesides.loop)
  | drain i e =>
    obtain ⟨d, -, h⟩ := Option.bind_eq_some_iff.mp h
    exact .inl (hkeep (drainStep_spec h).1.loop)
  | fallback i =>
    obtain ⟨f, -, h⟩ := Option.bind_eq_some_iff.mp h
    split at h <;> cases h
    exact .inl (hkeep rfl)
  | tick d | stop =>
    cases h
    exact .inl (hkeep rfl)

/-- Nothing is queued for a destination while it is blocked, or by the step that opens its
circuit. -/
theorem idle_step (hs : s.Marked) (h : s.step e = some t) (hidle : s.Idle k)
    (hcause : s.circuitOpen k = true ∨ e = .worker k .record) : t.Idle k := by
  refine ⟨?_, fun ht ↦ ?_⟩
  · have hdoes := (refines_step hs h).does
    generalize hop : s.queueOp e = op at hdoes
    generalize t.queues = q at hdoes
    cases hdoes with
    | nothing => exact hidle.1
    | @create j hj =>
      by_cases hk : k = j
      · rw [hk, update_self]
        rfl
      · rw [update_of_ne hk]
        exact hidle.1
    | @push j payload l hj =>
      have hne : k ≠ j := fun hk ↦ hidle.2 (hk ▸ queueingFor_of_push hop)
      rw [update_of_ne hne]
      exact hidle.1
    | @pop j payload l hj =>
      have hne : k ≠ j := by
        rintro rfl
        exact absurd hidle.1 (by rw [hj]; nofun)
      rw [update_of_ne hne]
      exact hidle.1
  · rcases queueingFor_step h ht with hs | ⟨rfl, hclosed⟩
    · exact hidle.2 hs
    · rcases hcause with hopen | hrecord
      · exact absurd (hopen.symm.trans hclosed) nofun
      · cases hrecord

theorem quenched_step (hs : s.Marked) (hquenched : s.Quenched) (hidle : s.OpensIdle e)
    (h : s.step e = some t) : t.Quenched := by
  intro k hk
  have hcause := circuitOpen_of_step hs h hk
  refine idle_step hs h ?_ hcause
  rcases hcause with hopen | rfl
  · exact hquenched k hopen
  · refine hidle ?_
    rw [h]
    exact hk

/-- A worker takes what is in its queue. -/
theorem queues_of_take (h : s.step (.worker k .take) = some t) :
    ∃ payload rest, s.queues k = some (payload :: rest) := by
  obtain ⟨w, hw, h⟩ := Option.bind_eq_some_iff.mp h
  cases works_of_workerStep h with
  | takes hqueue => exact ⟨_, _, by rw [queues, hw, Option.map_some, hqueue]⟩
  | goes htake => exact absurd rfl htake

/-- A worker that waits takes what is in its queue. -/
theorem exists_take {w : Worker} (hw : s.tunnelWorkers k = some w) (hwaits : w.state = .waiting)
    (hqueue : w.queue ≠ []) : ∃ t, s.step (.worker k .take) = some t := by
  obtain ⟨payload, rest, hqueue⟩ := List.exists_cons_of_ne_nil hqueue
  refine ⟨{ s.putWorker k { w with queue := rest, state := .posting payload } with
    sends := s.sends ++ [(w.dst, payload)] }, ?_⟩
  rw [step, hw, Option.bind_some, workerStep.eq_def, hwaits]
  dsimp only
  rw [hqueue]

/-- **If something is queued when the circuit opens, it is sent**: the worker may take the next
datagram at once, or as soon as the relay loop has queued the one it holds. -/
theorem take_of_not_idle (h : s.step (.worker k .record) = some t) (hopen : t.circuitOpen k = true)
    (hbusy : ¬s.Idle k) :
    ∃ fs u v, exec step t fs = some u ∧ u.step (.worker k .take) = some v ∧
      u.circuitOpen k = true := by
  obtain ⟨w, hw, h⟩ := Option.bind_eq_some_iff.mp h
  obtain ⟨ok, ht⟩ : ∃ ok, t = (s.modifyStats w.dst.key (DstStats.recordSend s.now ok)).putWorker k
      { w with state := .waiting } := by
    cases works_of_workerStep h with
    | records ok => exact ⟨ok, rfl⟩
    | goes _ hrecord => exact absurd rfl hrecord
  have hworker : t.tunnelWorkers k = some { w with state := .waiting } := by
    rw [ht]
    exact update_self ..
  by_cases hqueue : w.queue = []
  · -- The relay loop holds a datagram for the destination.
    have hfor : s.queueingFor = some k := by
      by_contra hne
      refine hbusy ⟨?_, hne⟩
      rw [queues, hw, Option.map_some, Option.getD_some, hqueue]
    rw [queueingFor] at hfor
    split at hfor
    · rename_i dst payload hloop
      rw [Option.some_inj] at hfor
      subst hfor
      have hput : t.step (.relay .enqueue) =
          some { t.putWorker dst.key { w with queue := [payload], state := .waiting } with
            loop := .top } := by
        have htloop : t.loop = .queueing dst payload := by rw [ht]; exact hloop
        rw [step, loopStep.eq_def, htloop]
        dsimp only
        rw [enqueue, hworker, Option.bind_some]
        dsimp only
        rw [hqueue]
        rfl
      obtain ⟨v, hv⟩ := exists_take
        (s := { t.putWorker dst.key { w with queue := [payload], state := .waiting } with
          loop := .top }) (update_self ..) rfl (List.cons_ne_nil payload [])
      exact ⟨[.relay .enqueue], _, v, Trace.exec_cons_eq_some.mpr ⟨_, hput, rfl⟩, hv, hopen⟩
    · cases hfor
  · obtain ⟨v, hv⟩ := exists_take hworker rfl hqueue
    exact ⟨[], t, v, rfl, hv, hopen⟩

end Session

/-- **An open circuit suppresses sends**: in every run of a session, whenever a worker takes a
datagram and passes it to `sendViaTunnel`, its destination is not blocked, if nothing was queued for
any destination, or about to be, when its circuit was opened. -/
theorem circuitOpen_of_take {tunnelOnly altDNSRouting blockQUIC : Bool} {now : ℤ}
    {es : List Session.Event} {s t : Session} {k : Key}
    (h : exec Session.step (.new tunnelOnly altDNSRouting blockQUIC now) es = some s)
    (hidle : Along Session.step Session.OpensIdle
      (.new tunnelOnly altDNSRouting blockQUIC now) es)
    (htake : s.step (.worker k .take) = some t) : s.circuitOpen k = false := by
  have hs : s.Marked ∧ s.Quenched := by
    refine Trace.inv_of_exec_along (P := fun s ↦ s.Marked ∧ s.Quenched) ?_ ?_ hidle h
    · intro s e t hs he hstep
      exact ⟨hs.1.step hstep, Session.quenched_step hs.1 hs.2 he hstep⟩
    · exact ⟨Session.marked_new .., nofun⟩
  obtain ⟨payload, rest, hqueue⟩ := Session.queues_of_take htake
  by_contra hopen
  have hempty := (hs.2 k (Bool.eq_true_of_not_eq_false hopen)).1
  rw [hqueue] at hempty
  cases hempty

/-- The worker for `9.9.9.9:7000` sends the first datagram in its queue, and fails. -/
def failedSend : List Session.Event :=
  [.worker ([9, 9, 9, 9], 7000) .take, .worker ([9, 9, 9, 9], 7000) (.posted none),
    .worker ([9, 9, 9, 9], 7000) .record]

/-- Five datagrams fail, each before the next comes.  Five seconds later there is another one. -/
def failedOneByOne : List Session.Event :=
  offered 1 ++ failedSend ++ offered 2 ++ failedSend ++ offered 3 ++ failedSend ++ offered 4 ++
    failedSend ++ offered 5 ++ failedSend ++ [.tick 5000000000] ++ offered 6

theorem circuitOpen_of_take_demo :
    ∃ s t, exec Session.step (.new false false false 0) failedOneByOne = some s ∧
      s.step (.worker ([9, 9, 9, 9], 7000) .take) = some t ∧
      s.circuitOpen ([9, 9, 9, 9], 7000) = false := by
  have hrun : (exec Session.step (.new false false false 0) failedOneByOne).any (fun s ↦
      (s.step (.worker ([9, 9, 9, 9], 7000) .take)).isSome) = true := by
    decide +kernel
  have hidle : Along Session.step Session.OpensIdle (.new false false false 0)
      failedOneByOne := by
    decide +kernel
  obtain ⟨s, hs, htake⟩ := (Option.any_eq_true _ _).mp hrun
  obtain ⟨t, ht⟩ := Option.isSome_iff_exists.mp htake
  exact ⟨s, t, hs, ht, circuitOpen_of_take hs hidle ht⟩

/-- Six datagrams are queued, and the first five of them fail. -/
def failedInQueue : List Session.Event :=
  offered 1 ++ offered 2 ++ offered 3 ++ offered 4 ++ offered 5 ++ offered 6 ++ failedSend ++
    failedSend ++ failedSend ++ failedSend ++ failedSend

/-- **The sixth datagram is sent while the circuit is open.** -/
theorem sent_while_open :
    ∃ s t, exec Session.step (.new false false false 0) failedInQueue = some s ∧
      s.circuitOpen ([9, 9, 9, 9], 7000) = true ∧
      s.step (.worker ([9, 9, 9, 9], 7000) .take) = some t ∧
      t.sends = s.sends ++ [(⟨[9, 9, 9, 9], 7000⟩, [6])] := by
  have hrun : (exec Session.step (.new false false false 0) failedInQueue).any (fun s ↦
      s.circuitOpen ([9, 9, 9, 9], 7000) &&
        (s.step (.worker ([9, 9, 9, 9], 7000) .take)).any fun t ↦
          decide (t.sends = s.sends ++ [(⟨[9, 9, 9, 9], 7000⟩, [6])])) = true := by
    decide +kernel
  obtain ⟨s, hs, hopen⟩ := (Option.any_eq_true _ _).mp hrun
  obtain ⟨hopen, htake⟩ := Bool.and_eq_true_iff.mp hopen
  obtain ⟨t, ht, hsends⟩ := (Option.any_eq_true _ _).mp htake
  exact ⟨s, t, hs, hopen, ht, of_decide_eq_true hsends⟩

end TunnelCat.Assoc
