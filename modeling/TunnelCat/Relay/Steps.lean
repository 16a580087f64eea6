import TunnelCat.Relay.Conn

/-!
# What a step of the relay can do

The invariants of the relay are about what the goroutines have in common: the calls of `RoundTrip`
and `pending`, the goroutines that serve, the datagrams written and read, and the count of failures.
For each goroutine one lemma says what a step of it does to these, and `Moved` collects them: every
step that reads no datagram starts a request (`request`), takes a request further (`trip`), puts a
response into a channel (`offer`), takes a goroutine of `serveRequest` further (`serve`), or is a
step of the keepalive loop, a pong or `Close` (`background`).  `Reads` says it for the step that
reads a datagram.
-/

set_option autoImplicit false

open Function

namespace TunnelCat.Relay

/-! ## Requests -/

/-- The entry of the request is not deleted yet. -/
def Trip.inProgress (t : Trip) : Bool :=
  match t.state with
  | .returned _ => false
  | _ => true

/-- The response a request has taken out of its channel. -/
def TripState.holds : TripState → List Resp
  | .succeeded resp => [resp]
  | .leaving (.ok resp) => [resp]
  | .returned (.ok resp) => [resp]
  | _ => []

/-- The responses that have come to a request. -/
def Trip.holds (t : Trip) : List Resp := t.chan.toList ++ t.state.holds

/-- A bound for the number of times the frame has been written. -/
def TripState.written : TripState → ℕ
  | .writing attempt => attempt.val
  | .waiting attempt => attempt.val + 1
  | _ => udpRelayRetries

theorem TripState.written_le (s : TripState) : s.written ≤ udpRelayRetries := by
  cases s with
  | writing attempt => exact attempt.isLt.le
  | waiting attempt => exact attempt.isLt
  | _ => exact le_rfl

namespace Conn

variable {c c' : Conn} {i j : ℕ} {t : Trip} {s : Serve}

/-- The failures that were counted, and whether that takes a request over the threshold. -/
inductive Counts (c c' : Conn) (crosses : Prop) : Prop where
  /-- Nothing is counted. -/
  | none (count : c'.failCount = c.failCount) (log : c'.log = c.log) (no : ¬crosses)
  /-- A failure is counted. -/
  | failure (count : c'.failCount = c.addFailure.failCount) (log : c'.log = c.addFailure.log)
    (reached : crosses → udpRelayFailThresh ≤ c'.failCount)
  /-- The count is reset. -/
  | success (count : c'.failCount = 0) (log : c'.log = c.log ++ [.success]) (no : ¬crosses)

/-- The request `t`, the `i`-th, goes on as `t'`. -/
structure TripMoved (c : Conn) (i : ℕ) (t t' : Trip) (c' : Conn) : Prop where
  trips : c'.trips = c.trips.set i t'
  reader : c'.reader = c.reader
  received : c'.received = c.received
  serves : c'.serves = c.serves
  posts : c'.posts = c.posts
  reqID : t'.reqID = t.reqID
  frame : t'.frame = t.frame
  /-- A response is taken out of the channel or kept. -/
  holds : ∀ resp ∈ t'.holds, resp ∈ t.holds
  /-- The entry is deleted when the call returns. -/
  pending : c'.pending = c.pending ∧ t'.inProgress = t.inProgress ∨
    c'.pending = update c.pending t.reqID none ∧ t.inProgress = true ∧
      t'.inProgress = false
  /-- The frame is written, or it is not. -/
  out : c'.out = c.out ∧ t.state.written ≤ t'.state.written ∨
    c'.out = c.out ++ [⟨.trip i, t.frame⟩] ∧ t'.state.written = t.state.written + 1
  /-- Only a failure takes it over the threshold. -/
  counts : c.Counts c' (∃ err, t'.state = .marking err)
  /-- `failed` is set by those that are. -/
  failed : c'.failed = c.failed ∨ c'.failed = true ∧ ∃ err, t.state = .marking err

/-- A request goes on in another state, and no more happens than that failures are counted or
`failed` is set. -/
theorem TripMoved.of_state {state : TripState} {failCount : ℤ} {log : List Entry} {failed : Bool}
    (hlive : Trip.inProgress { t with state := state } = t.inProgress)
    (hholds : ∀ resp ∈ state.holds, resp ∈ t.state.holds)
    (hwritten : t.state.written ≤ state.written)
    (hcounts : c.Counts { c with failCount := failCount, log := log } (∃ err, state = .marking err))
    (hfailed : failed = c.failed ∨ failed = true ∧ ∃ err, t.state = .marking err) :
    c.TripMoved i t { t with state := state }
      (putTrip { c with failCount := failCount, log := log, failed := failed } i
        { t with state := state }) where
  trips := rfl
  reader := rfl
  received := rfl
  serves := rfl
  posts := rfl
  reqID := rfl
  frame := rfl
  holds resp hresp := by
    rcases List.mem_append.mp hresp with h | h
    · exact List.mem_append_left _ h
    · exact List.mem_append_right _ (hholds resp h)
  pending := .inl ⟨rfl, hlive⟩
  out := .inl ⟨rfl, hwritten⟩
  counts := by
    cases hcounts with
    | none count log no => exact .none count log no
    | failure count log reached => exact .failure count log reached
    | success count log no => exact .success count log no
  failed := hfailed

/-- What a `RoundTrip` does to its own request. -/
theorem tripStep_spec {e : TripEvent} (h : c.tripStep i t e = some c') :
    ∃ t', c.TripMoved i t t' c' := by
  have hwritten := t.state.written_le
  unfold tripStep at h
  split at h <;> rename_i hstate
  case h_1 a =>
    cases h
    refine ⟨_, rfl, rfl, rfl, rfl, rfl, rfl, rfl, ?_, .inl ⟨rfl, ?_⟩, .inr ⟨rfl, ?_⟩,
      .none rfl rfl nofun, .inl rfl⟩ <;>
      simp [Trip.holds, TripState.holds, Trip.inProgress, TripState.written, hstate]
  case h_2 =>
    cases h
    refine ⟨_, .of_state ?_ nofun hwritten (.none rfl rfl nofun) (.inl rfl)⟩
    simp [Trip.inProgress, hstate]
  case h_3 =>
    obtain ⟨resp, hchan, rfl⟩ := Option.map_eq_some_iff.mp h
    refine ⟨_, rfl, rfl, rfl, rfl, rfl, rfl, rfl, ?_, .inl ⟨rfl, ?_⟩, .inl ⟨rfl, hwritten⟩,
      .none rfl rfl nofun, .inl rfl⟩
    · simp [Trip.holds, TripState.holds, hchan]
    · simp [Trip.inProgress, hstate]
  case h_4 a =>
    cases h
    rw [timedOut]
    split
    · refine ⟨_, .of_state ?_ nofun ?_ (.none rfl rfl nofun) (.inl rfl)⟩ <;>
        simp [Trip.inProgress, TripState.written, hstate]
    · refine ⟨_, .of_state ?_ nofun hwritten (.none rfl rfl nofun) (.inl rfl)⟩
      simp [Trip.inProgress, hstate]
  case h_5 =>
    split at h
    · cases h
      refine ⟨_, .of_state ?_ nofun hwritten (.none rfl rfl nofun) (.inl rfl)⟩
      simp [Trip.inProgress, hstate]
    · cases h
  case h_6 =>
    cases h
    refine ⟨_, .of_state ?_ ?_ hwritten (.success rfl rfl nofun) (.inl rfl)⟩ <;>
      simp [TripState.holds, Trip.inProgress, hstate]
  case h_7 err =>
    cases h
    by_cases hmark : udpRelayFailThresh ≤ c.addFailure.failCount
    · rw [if_pos hmark]
      refine ⟨_, .of_state ?_ nofun hwritten (.failure rfl rfl fun _ ↦ hmark) (.inl rfl)⟩
      simp [Trip.inProgress, hstate]
    · rw [if_neg hmark]
      refine ⟨_, .of_state ?_ nofun hwritten (.failure rfl rfl nofun) (.inl rfl)⟩
      simp [Trip.inProgress, hstate]
  case h_8 err =>
    cases h
    refine ⟨_, .of_state ?_ nofun hwritten (.none rfl rfl nofun) (.inr ⟨rfl, err, hstate⟩)⟩
    simp [Trip.inProgress, hstate]
  case h_9 result =>
    cases h
    refine ⟨_, rfl, rfl, rfl, rfl, rfl, rfl, rfl, ?_, .inr ⟨rfl, ?_, rfl⟩, .inl ⟨rfl, hwritten⟩,
      .none rfl rfl nofun, .inl rfl⟩
    · cases result <;> simp [Trip.holds, TripState.holds, hstate]
    · simp [Trip.inProgress, hstate]
  case h_10 => cases h

/-! ## Goroutines that serve -/

/-- The goroutine `s` of `serveRequest`, the `j`-th, goes on as `s'`. -/
structure ServeMoved (c : Conn) (j : ℕ) (s s' : Serve) (c' : Conn) : Prop where
  serves : c'.serves = c.serves.set j s'
  trips : c'.trips = c.trips
  pending : c'.pending = c.pending
  reader : c'.reader = c.reader
  received : c'.received = c.received
  failCount : c'.failCount = c.failCount
  log : c'.log = c.log
  failed : c'.failed = c.failed
  packet : s'.packet = s.packet
  reqID : s'.reqID = s.reqID
  /-- It has started. -/
  started : s'.state ≠ .starting
  /-- It had not ended. -/
  running : ∀ resp, s.state ≠ .done resp
  /-- The request to the control node is made at the start. -/
  posts : c'.posts = c.posts ∨ s.state = .starting ∧ ∃ p : Post, c'.posts = c.posts ++ [p] ∧
    p.packet = s.packet
  /-- The response is written at the end. -/
  out : c'.out = c.out ∨ ∃ resp, s'.state = .done resp ∧
    c'.out = c.out ++ [⟨.serve j, udpEncodeResponse s.reqID resp⟩]

theorem serveStep_spec {e : ServeEvent} (h : c.serveStep j s e = some c') :
    ∃ s', c.ServeMoved j s s' c' := by
  unfold serveStep at h
  split at h <;> rename_i hstate
  case h_1 =>
    cases h
    exact ⟨_, rfl, rfl, rfl, rfl, rfl, rfl, rfl, rfl, rfl, rfl, nofun, by simp [hstate],
      .inr ⟨hstate, _, rfl, rfl⟩, .inl rfl⟩
  case h_5 resp err =>
    cases h
    rw [trySend]
    split
    · exact ⟨_, rfl, rfl, rfl, rfl, rfl, rfl, rfl, rfl, rfl, rfl, nofun, by simp [hstate],
        .inl rfl, .inl rfl⟩
    · exact ⟨_, rfl, rfl, rfl, rfl, rfl, rfl, rfl, rfl, rfl, rfl, nofun, by simp [hstate],
        .inl rfl, .inr ⟨resp, rfl, rfl⟩⟩
  case h_6 => cases h
  all_goals
    cases h
    exact ⟨_, rfl, rfl, rfl, rfl, rfl, rfl, rfl, rfl, rfl, rfl, nofun, by simp [hstate],
      .inl rfl, .inl rfl⟩

/-! ## The keepalive loop, pongs and Close -/

/-- Requests and the goroutines that serve stay as they are. -/
structure Background (c c' : Conn) : Prop where
  trips : c'.trips = c.trips
  pending : c'.pending = c.pending
  serves : c'.serves = c.serves
  received : c'.received = c.received
  posts : c'.posts = c.posts
  reader : c'.reader = c.reader ∨ c'.reader = .idle
  /-- A ping or a pong is written, or nothing. -/
  out : c'.out = c.out ∨ ∃ id,
    c'.out = c.out ++ [⟨.ping, udpEncodeKeepalive id udpRelayTypeKeepalive⟩] ∨
    c'.out = c.out ++ [⟨.pong, udpEncodeKeepalive id udpRelayTypePong⟩]
  counts : c.Counts c' False
  failed : c.failed = true → c'.failed = true

theorem keepaliveStep_spec {e : KeepaliveEvent} (h : c.keepaliveStep e = some c') :
    c.Background c' := by
  unfold keepaliveStep at h
  split at h
  case h_1 reqID _ =>
    cases h
    exact ⟨rfl, rfl, rfl, rfl, rfl, .inl rfl, .inr ⟨reqID, .inl rfl⟩, .none rfl rfl not_false, id⟩
  case h_3 =>
    split at h
    · cases h
      exact ⟨rfl, rfl, rfl, rfl, rfl, .inl rfl, .inl rfl, .none rfl rfl not_false, id⟩
    · cases h
  case h_5 =>
    cases h
    exact ⟨rfl, rfl, rfl, rfl, rfl, .inl rfl, .inl rfl, .failure rfl rfl False.elim, id⟩
  case h_6 =>
    cases h
    exact ⟨rfl, rfl, rfl, rfl, rfl, .inl rfl, .inl rfl, .none rfl rfl not_false, fun _ ↦ rfl⟩
  case h_7 => cases h
  all_goals
    cases h
    exact ⟨rfl, rfl, rfl, rfl, rfl, .inl rfl, .inl rfl, .none rfl rfl not_false, id⟩

/-! ## All of it together -/

/-- A step that reads no datagram. -/
inductive Moved (c : Conn) : Conn → Prop where
  /-- A request starts. -/
  | request {reqID : UInt32} {path token body : Bytes} (free : c.pending reqID = none) :
    Moved c { c with
      pending := update c.pending reqID (some c.trips.length)
      trips := c.trips ++ [⟨reqID, path, token, body, none, .writing firstAttempt⟩] }
  /-- A request goes on. -/
  | trip {i : ℕ} {t t' : Trip} {c' : Conn} (ht : c.trips[i]? = some t)
    (moved : c.TripMoved i t t' c') : Moved c c'
  /-- A response is put into the channel of a request, if there is room. -/
  | offer {i : ℕ} {t : Trip} {resp : Resp} (hreader : c.reader = .holding i resp)
    (ht : c.trips[i]? = some t) :
    Moved c (putTrip { c with reader := .idle } i { t with chan := t.chan <|> some resp })
  /-- A goroutine of `serveRequest` goes on. -/
  | serve {j : ℕ} {s s' : Serve} {c' : Conn} (hs : c.serves[j]? = some s)
    (moved : c.ServeMoved j s s' c') : Moved c c'
  /-- Anything else happens. -/
  | background {c' : Conn} (moved : c.Background c') : Moved c c'

theorem step_moved {e : Event} (h : c.step e = some c') : c.Moved c' := by
  cases e with
  | roundTrip reqID path token body =>
    rw [step, roundTrip] at h
    split at h <;> rename_i hfree <;> cases h
    exact .request hfree
  | trip i e =>
    obtain ⟨t, ht, h⟩ := Option.bind_eq_some_iff.mp h
    obtain ⟨t', hmoved⟩ := tripStep_spec h
    exact .trip ht hmoved
  | reader e =>
    unfold step readerStep at h
    dsimp only at h
    split at h <;> rename_i hreader
    · obtain ⟨t, ht, rfl⟩ := Option.map_eq_some_iff.mp h
      exact .offer hreader ht
    · rename_i id err
      cases h
      rw [trySend]
      split
      · exact .background ⟨rfl, rfl, rfl, rfl, rfl, .inr rfl, .inl rfl, .none rfl rfl not_false,
          fun hf ↦ hf⟩
      · exact .background ⟨rfl, rfl, rfl, rfl, rfl, .inr rfl, .inr ⟨id, .inr rfl⟩,
          .none rfl rfl not_false, fun hf ↦ hf⟩
    · cases h
  | serve j e =>
    obtain ⟨s, hs, h⟩ := Option.bind_eq_some_iff.mp h
    obtain ⟨s', hmoved⟩ := serveStep_spec h
    exact .serve hs hmoved
  | keepalive e => exact .background (keepaliveStep_spec h)
  | close =>
    cases h
    exact .background ⟨rfl, rfl, rfl, rfl, rfl, .inl rfl, .inl rfl, .none rfl rfl not_false, id⟩

/-! ## Reading -/

/-- The read loop reads `data`, the `k`-th datagram of the peer. -/
structure Reads (c : Conn) (k : ℕ) (data : Bytes) (c' : Conn) : Prop where
  trips : c'.trips = c.trips
  pending : c'.pending = c.pending
  out : c'.out = c.out
  posts : c'.posts = c.posts
  failCount : c'.failCount = c.failCount
  log : c'.log = c.log
  failed : c'.failed = c.failed
  received : c'.received = c.received ++ [(k, data)]
  /-- A response is for the request that has the entry. -/
  holding : ∀ i resp, c'.reader = .holding i resp →
    ∃ id, header data = some (id, udpRelayTypeResponse) ∧ udpDecodeResponse data = some resp ∧
      c.pending id = some i
  /-- For a request a goroutine is started. -/
  serves : c'.serves = c.serves ∨ ∃ s : Serve, c'.serves = c.serves ++ [s] ∧ s.packet = k ∧
    s.state = .starting ∧ header data = some (s.reqID, udpRelayTypeRequest)

theorem read_spec {k : ℕ} {frame : Bytes} (hstep : c.read k frame = some c') :
    c' = { c with reader := .ended } ∨ c.Reads k (frame.take udpRelayMaxFrame) c' := by
  rw [read] at hstep
  split at hstep
  · cases hstep
  rename_i hidle
  rw [ne_eq, not_not] at hidle
  split at hstep
  · cases hstep
    exact .inl rfl
  right
  -- Every branch that leaves the read loop idle and starts nothing is this one.
  have hquiet : ∀ missed, c.Reads k (frame.take udpRelayMaxFrame)
      { c with
        received := c.received ++ [(k, frame.take udpRelayMaxFrame)]
        missedPongs := missed } :=
    fun missed ↦ ⟨rfl, rfl, rfl, rfl, rfl, rfl, rfl, rfl, by simp [hidle], .inl rfl⟩
  dsimp only at hstep
  split at hstep
  · rename_i id typ hhead
    cases hstep
    unfold dispatch
    split
    · rename_i htyp
      rw [htyp] at hhead
      split
      · rename_i resp i hdec hpend
        refine ⟨rfl, rfl, rfl, rfl, rfl, rfl, rfl, rfl, ?_, .inl rfl⟩
        intro j resp' hj
        cases hj
        exact ⟨id, hhead, hdec, hpend⟩
      · exact hquiet _
    split
    · rename_i htyp
      rw [htyp] at hhead
      split
      · exact hquiet _
      split
      · exact ⟨rfl, rfl, rfl, rfl, rfl, rfl, rfl, rfl, by simp [hidle],
          .inr ⟨_, rfl, rfl, rfl, hhead⟩⟩
      · exact hquiet _
    split
    · exact ⟨rfl, rfl, rfl, rfl, rfl, rfl, rfl, rfl, nofun, .inl rfl⟩
    split <;> exact hquiet _
  · cases hstep
    exact hquiet _

/-- Datagrams that were written stay written. -/
theorem out_prefix_of_moved (h : c.Moved c') : c.out <+: c'.out := by
  cases h with
  | request | offer => exact List.prefix_rfl
  | trip ht moved =>
    rcases moved.out with ⟨hout, -⟩ | ⟨hout, -⟩ <;> simp [hout]
  | serve hs moved =>
    rcases moved.out with hout | ⟨resp, -, hout⟩ <;> simp [hout]
  | background moved =>
    rcases moved.out with hout | ⟨id, hout | hout⟩ <;> simp [hout]

/-- `failed` is not reset. -/
theorem failed_of_moved (h : c.Moved c') (hfailed : c.failed = true) : c'.failed = true := by
  cases h with
  | request | offer => exact hfailed
  | trip ht moved =>
    rcases moved.failed with hf | ⟨hf, -⟩
    · exact hf.trans hfailed
    · exact hf
  | serve hs moved => exact moved.failed.trans hfailed
  | background moved => exact moved.failed hfailed

/-- Only reading reads. -/
theorem received_of_moved (h : c.Moved c') : c'.received = c.received := by
  cases h with
  | request | offer => rfl
  | trip ht moved => exact moved.received
  | serve hs moved => exact moved.received
  | background moved => exact moved.received

end Conn

/-! ## Two of them -/

/-- A step of the link is a step of one end, which may be to read what the other has written. -/
theorem Link.step_cases {l l' : Link} {e : Link.Event} (h : l.step e = some l') :
    ∃ s c', l' = update l s c' ∧ ((l s).Moved c' ∨
      ∃ k p, (l s.other).out[k]? = some p ∧ (l s).read k p.frame = some c') := by
  cases e with
  | act s e =>
    obtain ⟨c', hc, rfl⟩ := Option.map_eq_some_iff.mp h
    exact ⟨s, c', rfl, .inl (Conn.step_moved hc)⟩
  | deliver s k =>
    obtain ⟨p, hp, h⟩ := Option.bind_eq_some_iff.mp h
    obtain ⟨c', hc, rfl⟩ := Option.map_eq_some_iff.mp h
    exact ⟨s, c', rfl, .inr ⟨k, p, hp, hc⟩⟩

/-- What a step of the link is for one of the ends. -/
theorem Link.side_cases {l l' : Link} {e : Link.Event} (h : l.step e = some l') (s : Side) :
    l' s = l s ∨ (l s).Moved (l' s) ∨
      ∃ k p, (l s.other).out[k]? = some p ∧ (l s).read k p.frame = some (l' s) := by
  obtain ⟨r, c, rfl, hc⟩ := step_cases h
  by_cases hs : s = r
  · subst hs
    rw [update_self]
    exact .inr hc
  · exact .inl (update_of_ne hs ..)

end TunnelCat.Relay
