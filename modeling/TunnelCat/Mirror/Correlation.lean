import Mathlib.Data.List.Nodup
import TunnelCat.Mirror.Completeness
import TunnelCat.Mirror.Transport

/-!
# A chunk that arrives is the chunk that was asked for

What a call of `RequestChunk` returns has come a long way: it was in the call's channel, and before
that in a datagram that the read loop had found the channel for; the datagram was written at the
other end by a goroutine that `getChunk` had answered; and the goroutine was started for a datagram
that some call at this end has written.  The network in between may lose, copy, delay and reorder.

`Routes` is the part of the argument about one end as a client, `Sources` the part about one end as
a server and a writer.  Each is an invariant of every step, and the steps are inverted once, in
`TripMoved`, `ServiceMoved` and `Reads`.  The two ends meet in `Duplex.read_of_run`: what one end
has read, the other has written.  From there `chunks_correlated` follows the chain back.

An id ties an answer to a question only as long as it is not drawn again: a late answer to an
earlier call with the same id is taken for the answer to this one.  So the conclusion about the
other end asks that the ids of the calls are distinct.  What it does not need is the length of the
chunk: a frame beyond the receive buffer is cut off, and then it is not read at all.
`chunk_fetchable_iff` is what this leaves: from wherever the two ends are, a chunk can still come
through exactly if it has no more than 32755 bytes.
-/

set_option autoImplicit false

open Bytes Function Trace

namespace TunnelCat.Mirror.MirrorConn

/-! ## What a step can do -/

/-- The entry of the call is not deleted yet. -/
def Trip.inProgress (t : Trip) : Bool :=
  match t.state with
  | .returned _ => false
  | _ => true

/-- The answer a call has taken out of its channel. -/
def TripState.answers : TripState → List (Option Bytes)
  | .leaving (.ok answer) => [answer]
  | .returned (.ok answer) => [answer]
  | _ => []

/-- The answers that have come to a call. -/
def Trip.answers (t : Trip) : List (Option Bytes) := t.chan.toList ++ t.state.answers

/-- The frame of the call has been written. -/
def TripState.written : TripState → Bool
  | .waiting _ => true
  | _ => false

variable {E : Env} {c c' : MirrorConn} {i j : ℕ} {t t' : Trip} {s s' : Service}

/-- The call `t`, the `i`-th, goes on as `t'`. -/
structure TripMoved (c : MirrorConn) (i : ℕ) (t t' : Trip) (c' : MirrorConn) : Prop where
  trips : c'.trips = c.trips.set i t'
  serves : c'.serves = c.serves
  reader : c'.reader = c.reader
  received : c'.received = c.received
  getChunk : c'.getChunk = c.getChunk
  reqID : t'.reqID = t.reqID
  hash : t'.hash = t.hash
  hashArr : t'.hashArr = t.hashArr
  /-- An answer is taken out of the channel or kept. -/
  answers : ∀ a ∈ t'.answers, a ∈ t.answers
  /-- The entry is deleted when the call returns. -/
  pending : c'.pending = c.pending ∧ t'.inProgress = t.inProgress ∨
    c'.pending = update c.pending t.reqID none ∧ t.inProgress = true ∧
      t'.inProgress = false
  /-- The frame is written, or it is not. -/
  out : c'.out = c.out ∧ t'.state.written = false ∨ c'.out = c.out ++ [t.frame]

/-- A call goes on in another state, and nothing else happens. -/
theorem TripMoved.of_state {state : TripState}
    (hlive : Trip.inProgress { t with state := state } = t.inProgress)
    (hanswers : ∀ a ∈ state.answers, a ∈ t.state.answers) (hwritten : state.written = false) :
    c.TripMoved i t { t with state := state } (c.putTrip i { t with state := state }) where
  trips := rfl
  serves := rfl
  reader := rfl
  received := rfl
  getChunk := rfl
  reqID := rfl
  hash := rfl
  hashArr := rfl
  answers a ha := by
    rcases List.mem_append.mp ha with h | h
    · exact List.mem_append_left _ h
    · exact List.mem_append_right _ (hanswers a h)
  pending := .inl ⟨rfl, hlive⟩
  out := .inl ⟨rfl, hwritten⟩

/-- What a `RequestChunk` does to its own call. -/
theorem tripStep_spec {e : TripEvent} (h : c.tripStep i t e = some c') :
    ∃ t', c.TripMoved i t t' c' := by
  rw [tripStep.eq_def] at h
  split at h <;> rename_i hstate
  case h_1 a =>
    rw [Option.some_inj] at h
    subst h
    refine ⟨_, rfl, rfl, rfl, rfl, rfl, rfl, rfl, rfl, ?_, .inl ⟨rfl, ?_⟩, .inr rfl⟩ <;>
      simp [Trip.answers, TripState.answers, Trip.inProgress, hstate]
  case h_2 =>
    rw [Option.some_inj] at h
    subst h
    refine ⟨_, .of_state ?_ nofun rfl⟩
    simp [Trip.inProgress, hstate]
  case h_3 =>
    obtain ⟨resp, hchan, rfl⟩ := Option.map_eq_some_iff.mp h
    refine ⟨_, rfl, rfl, rfl, rfl, rfl, rfl, rfl, rfl, ?_, .inl ⟨rfl, ?_⟩, .inl ⟨rfl, rfl⟩⟩
    · simp [Trip.answers, TripState.answers, hchan]
    · simp [Trip.inProgress, hstate]
  case h_4 a =>
    rw [Option.some_inj] at h
    subst h
    rw [timedOut]
    split
    all_goals
      refine ⟨_, .of_state ?_ nofun rfl⟩
      simp [Trip.inProgress, hstate]
  case h_5 =>
    rw [Option.ite_none_right_eq_some, Option.some_inj] at h
    obtain ⟨-, rfl⟩ := h
    refine ⟨_, .of_state ?_ nofun rfl⟩
    simp [Trip.inProgress, hstate]
  case h_6 result =>
    rw [Option.some_inj] at h
    subst h
    refine ⟨_, rfl, rfl, rfl, rfl, rfl, rfl, rfl, rfl, ?_, .inr ⟨rfl, ?_, rfl⟩, .inl ⟨rfl, rfl⟩⟩
    · cases result <;> simp [Trip.answers, TripState.answers, hstate]
    · simp [Trip.inProgress, hstate]
  case h_7 => cases h

/-- The goroutine `s`, the `j`-th, goes on as `s'`. -/
structure ServiceMoved (c : MirrorConn) (j : ℕ) (s s' : Service) (c' : MirrorConn) : Prop where
  serves : c'.serves = c.serves.set j s'
  trips : c'.trips = c.trips
  pending : c'.pending = c.pending
  reader : c'.reader = c.reader
  received : c'.received = c.received
  getChunk : c'.getChunk = c.getChunk
  reqID : s'.reqID = s.reqID
  hash : s'.hash = s.hash
  /-- It had not ended. -/
  running : ∀ answer, s.state ≠ .done answer
  /-- The answer comes from `getChunk`, or it was there. -/
  answer : s.state = .asking ∨ ∃ answer, s.state = .writing answer ∧ s'.state = .done answer
  /-- It is written at the end. -/
  out : c'.out = c.out ∨ ∃ answer, s'.state = .done answer ∧ c'.out = c.out ++ [s.frame answer] ∧
    (s.frame answer).length ≤ maxDatagram

theorem serveStep_spec {e : ServiceEvent} (h : c.serveStep j s e = some c') :
    ∃ s', c.ServiceMoved j s s' c' := by
  rw [serveStep.eq_def] at h
  split at h <;> rename_i hstate
  case h_1 =>
    rw [Option.some_inj] at h
    subst h
    exact ⟨_, rfl, rfl, rfl, rfl, rfl, rfl, rfl, rfl, by simp [hstate], .inl hstate, .inl rfl⟩
  case h_2 answer =>
    rw [Option.ite_none_right_eq_some, Option.some_inj] at h
    obtain ⟨hfits, rfl⟩ := h
    exact ⟨_, rfl, rfl, rfl, rfl, rfl, rfl, rfl, rfl, by simp [hstate], .inr ⟨answer, hstate, rfl⟩,
      .inr ⟨answer, rfl, rfl, hfits⟩⟩
  case h_3 answer _ =>
    rw [Option.some_inj] at h
    subst h
    exact ⟨_, rfl, rfl, rfl, rfl, rfl, rfl, rfl, rfl, by simp [hstate], .inr ⟨answer, hstate, rfl⟩,
      .inl rfl⟩
  case h_4 => cases h

/-- A step that reads no datagram. -/
inductive Moved (E : Env) (c : MirrorConn) : MirrorConn → Prop where
  /-- A call starts. -/
  | request {reqID : UInt32} {hash : String} {hashArr : Bytes} (free : c.pending reqID = none)
    (parsed : parseHash E hash = .ok hashArr) :
    Moved E c { c with
      pending := update c.pending reqID (some c.trips.length)
      trips := c.trips ++ [⟨reqID, hash, hashArr, none, .writing firstAttempt⟩] }
  /-- A call goes on. -/
  | trip {i : ℕ} {t t' : Trip} {c' : MirrorConn} (ht : c.trips[i]? = some t)
    (moved : c.TripMoved i t t' c') : Moved E c c'
  /-- An answer is put into the channel of a call, if there is room. -/
  | offer {i : ℕ} {t : Trip} {resp : Option Bytes} (hreader : c.reader = .holding i resp)
    (ht : c.trips[i]? = some t) :
    Moved E c (putTrip { c with reader := .idle } i { t with chan := t.chan <|> some resp })
  /-- A goroutine of `serveChunkRequest` goes on. -/
  | serve {j : ℕ} {s s' : Service} {c' : MirrorConn} (hs : c.serves[j]? = some s)
    (moved : c.ServiceMoved j s s' c') : Moved E c c'
  /-- The connection is closed, the read loop ends, or nothing happens. -/
  | idle (reader : Reader) (stopped : Bool) (hreader : reader = c.reader ∨ reader = .ended) :
    Moved E c { c with reader := reader, stopped := stopped }

variable {frame : Bytes} {e : Event}

theorem step_moved (h : c.step E e = some c') : Moved E c c' := by
  cases e with
  | requestChunk reqID hash =>
    rw [step, requestChunk] at h
    split at h <;> rename_i hparse
    · rw [Option.some_inj] at h
      subst h
      exact .idle c.reader c.stopped (.inl rfl)
    · rw [Option.ite_none_right_eq_some, Option.some_inj] at h
      obtain ⟨hfree, rfl⟩ := h
      exact .request hfree hparse
  | trip i e =>
    obtain ⟨t, ht, h⟩ := Option.bind_eq_some_iff.mp h
    obtain ⟨t', hmoved⟩ := tripStep_spec h
    exact .trip ht hmoved
  | serve j e =>
    obtain ⟨s, hs, h⟩ := Option.bind_eq_some_iff.mp h
    obtain ⟨s', hmoved⟩ := serveStep_spec h
    exact .serve hs hmoved
  | reader e =>
    rw [step, readerStep.eq_def] at h
    split at h <;> rename_i hreader
    · obtain ⟨t, ht, rfl⟩ := Option.map_eq_some_iff.mp h
      exact .offer hreader ht
    · split at h
      · rw [Option.some_inj] at h
        subst h
        exact .idle _ c.stopped (.inr rfl)
      · split at h <;> rw [Option.some_inj] at h <;> subst h
        · exact .idle _ _ (.inr rfl)
        · exact .idle c.reader c.stopped (.inl rfl)
    · cases h
  | close =>
    rw [step, Option.some_inj] at h
    subst h
    exact .idle c.reader _ (.inl rfl)

/-- The read loop reads a datagram. -/
structure Reads (c : MirrorConn) (frame : Bytes) (c' : MirrorConn) : Prop where
  trips : c'.trips = c.trips
  pending : c'.pending = c.pending
  out : c'.out = c.out
  getChunk : c'.getChunk = c.getChunk
  received : c'.received = c.received ++ [frame]
  /-- It is idle, or holds an answer to the call that its id is registered for. -/
  reader : c'.reader = .idle ∨ ∃ id i answer, c'.reader = .holding i answer ∧
    c.pending id = some i ∧ Frame.parse (frame.take mirrorMaxFrame) = some (.answer id answer)
  /-- A request is served by a new goroutine. -/
  serves : c'.serves = c.serves ∨ ∃ id hash state, c'.serves = c.serves ++ [⟨id, hash, state⟩] ∧
    Frame.parse (frame.take mirrorMaxFrame) = some (.request id hash) ∧
    (state = .asking ∧ c.getChunk = true ∨ state = .writing none)

theorem read_spec {now : ℤ} (h : c.read now frame = some c') :
    c' = { c with reader := .ended } ∨ c.Reads frame c' := by
  rw [read] at h
  obtain ⟨hidle, h⟩ := Option.ite_none_left_eq_some.mp h
  rw [not_not] at hidle
  by_cases hstop : c.stopped = true
  · rw [if_pos hstop, Option.some_inj] at h
    exact .inl h.symm
  rw [if_neg hstop, Option.some_inj] at h
  subst h
  refine .inr ?_
  -- the answer goes to the call its id is registered for, or to nobody
  have hdeliver : ∀ {id answer},
      Frame.parse (frame.take mirrorMaxFrame) = some (.answer id answer) →
      c.Reads frame (deliver { c with
        lastActivity := now, received := c.received ++ [frame] } id answer) := by
    intro id answer hparse
    rw [deliver.eq_def]
    split <;> rename_i hpend
    · exact ⟨rfl, rfl, rfl, rfl, rfl, .inr ⟨id, _, answer, rfl, hpend, hparse⟩, .inl rfl⟩
    · exact ⟨rfl, rfl, rfl, rfl, rfl, .inl hidle, .inl rfl⟩
  cases hparse : Frame.parse (frame.take mirrorMaxFrame) with
  | none => exact ⟨rfl, rfl, rfl, rfl, rfl, .inl hidle, .inl rfl⟩
  | some f =>
    rw [Option.map_some, Option.getD_some]
    cases f with
    | request id hash =>
      refine ⟨rfl, rfl, rfl, rfl, rfl, .inl hidle, .inr ⟨id, hash, _, rfl, hparse, ?_⟩⟩
      cases hget : c.getChunk with
      | true => exact .inl ⟨rfl, rfl⟩
      | false => exact .inr rfl
    | found id data => exact @hdeliver _ (some data) hparse
    | miss id => exact @hdeliver _ none hparse

/-- What is written stays written. -/
theorem out_of_step (h : c.step E e = some c') : c.out <+: c'.out := by
  cases step_moved h with
  | trip ht moved =>
    rcases moved.out with ⟨hout, -⟩ | hout
    · exact hout ▸ List.prefix_rfl
    · exact hout ▸ List.prefix_append ..
  | serve hs moved =>
    rcases moved.out with hout | ⟨answer, -, hout, -⟩
    · exact hout ▸ List.prefix_rfl
    · exact hout ▸ List.prefix_append ..
  | _ => exact List.prefix_rfl

/-- This answer was read under this id. -/
def Answered (c : MirrorConn) (id : UInt32) (answer : Option Bytes) : Prop :=
  ∃ frame ∈ c.received, Frame.parse (frame.take mirrorMaxFrame) = some (.answer id answer)

theorem Answered.mono (hrecv : ∀ x ∈ c.received, x ∈ c'.received) {id : UInt32}
    {answer : Option Bytes} (h : c.Answered id answer) : c'.Answered id answer := by
  obtain ⟨x, hx, hparse⟩ := h
  exact ⟨x, hrecv x hx, hparse⟩

/-- What `pending` and the channels are good for. -/
structure Routes (c : MirrorConn) : Prop where
  /-- There is one entry for each call in progress, under its id. -/
  sound : Pending.Sound Trip.reqID Trip.inProgress c.pending c.trips
  /-- What has come to a call was read under its id. -/
  answered : ∀ t ∈ c.trips, ∀ a ∈ t.answers, c.Answered t.reqID a
  /-- So is what the read loop is about to put into a channel. -/
  holding : ∀ i a, c.reader = .holding i a → ∃ t, c.trips[i]? = some t ∧ c.Answered t.reqID a

/-- A call goes on, and keeps its id. -/
theorem Routes.set (h : c.Routes) (ht : c.trips[i]? = some t)
    (htrips : c'.trips = c.trips.set i t') (hid : t'.reqID = t.reqID)
    (hsound : Pending.Sound Trip.reqID Trip.inProgress c'.pending (c.trips.set i t'))
    (hrecv : c'.received = c.received) (hanswers : ∀ a ∈ t'.answers, c.Answered t.reqID a)
    (hreader : ∀ j a, c'.reader = .holding j a → c.reader = .holding j a) : c'.Routes := by
  have hmono : ∀ {id a}, c.Answered id a → c'.Answered id a :=
    fun ha ↦ ha.mono fun x hx ↦ hrecv ▸ hx
  refine ⟨htrips ▸ hsound, fun u hu a ha ↦ ?_, fun j a hj ↦ ?_⟩
  · rw [htrips] at hu
    rcases List.mem_or_eq_of_mem_set hu with hu | rfl
    · exact hmono (h.answered u hu a ha)
    · exact hid ▸ hmono (hanswers a ha)
  · obtain ⟨u, hu, ha⟩ := h.holding j a (hreader j a hj)
    rw [htrips]
    by_cases hji : j = i
    · obtain rfl : u = t := Option.some_inj.mp (hu.symm.trans (hji ▸ ht))
      exact ⟨t', (Pending.getElem?_set_eq_some ht).mpr (.inl ⟨hji, rfl⟩), hid ▸ hmono ha⟩
    · exact ⟨u, (Pending.getElem?_set_eq_some ht).mpr (.inr ⟨hji, hu⟩), hmono ha⟩

/-- The calls stay as they are, and more is read. -/
theorem Routes.same (h : c.Routes) (htrips : c'.trips = c.trips) (hpend : c'.pending = c.pending)
    (hrecv : ∀ x ∈ c.received, x ∈ c'.received)
    (hreader : ∀ i a, c'.reader = .holding i a → c.reader = .holding i a ∨
      ∃ id, c.pending id = some i ∧ c'.Answered id a) : c'.Routes := by
  refine ⟨?_, fun u hu a ha ↦ ?_, fun j a hj ↦ ?_⟩
  · rw [hpend, htrips]
    exact h.sound
  · rw [htrips] at hu
    exact (h.answered u hu a ha).mono hrecv
  · rw [htrips]
    rcases hreader j a hj with hold | ⟨id, hp, ha⟩
    · obtain ⟨u, hu, ha⟩ := h.holding j a hold
      exact ⟨u, hu, ha.mono hrecv⟩
    · obtain ⟨u, hu, rfl, -⟩ := (h.sound id j).mp hp
      exact ⟨u, hu, ha⟩

theorem Routes.step (h : c.Routes) (hstep : c.step E e = some c') : c'.Routes := by
  cases step_moved hstep with
  | @request reqID hash hashArr hfree parsed =>
    refine ⟨h.sound.register (c := ⟨reqID, hash, hashArr, none, .writing firstAttempt⟩) hfree rfl,
      fun u hu a ha ↦ ?_, fun j a hj ↦ ?_⟩
    · rcases List.mem_append.mp hu with hu | hu
      · exact h.answered u hu a ha
      · rw [List.mem_singleton.mp hu] at ha
        cases ha
    · obtain ⟨u, hu, ha⟩ := h.holding j a hj
      exact ⟨u, Pending.getElem?_concat_eq_some.mpr (.inl hu), ha⟩
  | @trip i t t' _ ht moved =>
    refine h.set ht moved.trips moved.reqID ?_ moved.received
      (fun a ha ↦ h.answered t (List.mem_of_getElem? ht) a (moved.answers a ha))
      (fun j a hj ↦ moved.reader ▸ hj)
    rcases moved.pending with ⟨hpend, hlive⟩ | ⟨hpend, hlive, hdone⟩
    · exact hpend ▸ h.sound.update ht moved.reqID hlive
    · exact hpend ▸ h.sound.retire ht hlive hdone
  | @offer i t resp hreader ht =>
    refine h.set ht rfl rfl (h.sound.update ht rfl rfl) rfl (fun a ha ↦ ?_)
      (fun j a hj ↦ (nomatch hj))
    obtain ⟨u, hu, hanswered⟩ := h.holding i resp hreader
    obtain rfl : t = u := Option.some_inj.mp (ht.symm.trans hu)
    -- the answer goes into the channel only if it is empty
    have hcases : a = resp ∨ a ∈ t.answers := by
      cases hchan : t.chan with
      | none => simpa [Trip.answers, hchan] using ha
      | some old => exact .inr (by simpa [Trip.answers, hchan] using ha)
    rcases hcases with rfl | ha
    · exact hanswered
    · exact h.answered t (List.mem_of_getElem? ht) a ha
  | serve hs moved =>
    exact h.same moved.trips moved.pending (fun x hx ↦ moved.received ▸ hx)
      fun i a hi ↦ .inl (moved.reader ▸ hi)
  | idle _ _ hreader =>
    refine h.same rfl rfl (fun x hx ↦ hx) fun i a hi ↦ ?_
    rcases hreader with rfl | rfl
    · exact .inl hi
    · cases hi

theorem Routes.read {now : ℤ} (h : c.Routes) (hread : c.read now frame = some c') : c'.Routes := by
  rcases read_spec hread with rfl | hreads
  · exact h.same rfl rfl (fun x hx ↦ hx) fun i a hi ↦ (nomatch hi)
  · have hrecv : ∀ x ∈ c.received, x ∈ c'.received := fun x hx ↦ by
      rw [hreads.received]
      exact List.mem_append_left _ hx
    refine h.same hreads.trips hreads.pending hrecv fun i a hi ↦ ?_
    rcases hreads.reader with hidle | ⟨id, k, answer, hhold, hpend, hparse⟩
    · rw [hidle] at hi
      cases hi
    · rw [hhold, Reader.holding.injEq] at hi
      obtain ⟨rfl, rfl⟩ := hi
      exact .inr ⟨id, hpend, frame, by rw [hreads.received]; simp, hparse⟩

/-! ## One end as a server -/

/-- Where the datagrams that are written and the goroutines that serve come from. -/
structure Sources (E : Env) (c : MirrorConn) : Prop where
  /-- A call asks for the hash it was called with. -/
  parsed : ∀ t ∈ c.trips, parseHash E t.hash = .ok t.hashArr
  /-- A call that waits has written its frame. -/
  asked : ∀ t ∈ c.trips, t.state.written = true → t.frame ∈ c.out
  /-- Every datagram is the frame of a call, or what a goroutine has answered. -/
  sent : ∀ frame ∈ c.out, (∃ t ∈ c.trips, frame = t.frame) ∨
    ∃ s ∈ c.serves, ∃ answer, s.state = .done answer ∧ frame = s.frame answer ∧
      frame.length ≤ maxDatagram
  /-- Every goroutine was started for a request that was read. -/
  served : ∀ s ∈ c.serves, ∃ frame ∈ c.received,
    Frame.parse (frame.take mirrorMaxFrame) = some (.request s.reqID s.hash)
  /-- Without `getChunk` there is no chunk. -/
  refused : c.getChunk = false → ∀ s ∈ c.serves, s.state = .writing none ∨ s.state = .done none

/-- Calls keep what they ask for, the goroutines that have ended stay, and what is written has an
origin. -/
theorem Sources.of_subset (h : c.Sources E)
    (hparsed : ∀ t ∈ c'.trips, parseHash E t.hash = .ok t.hashArr)
    (hasked : ∀ t ∈ c'.trips, t.state.written = true → t.frame ∈ c'.out)
    (htrips : ∀ t ∈ c.trips, ∃ t' ∈ c'.trips, t'.frame = t.frame)
    (hdone : ∀ s ∈ c.serves, ∀ answer, s.state = .done answer → s ∈ c'.serves)
    (hnew : ∀ frame ∈ c'.out, frame ∈ c.out ∨ (∃ t ∈ c'.trips, frame = t.frame) ∨
      ∃ s ∈ c'.serves, ∃ answer, s.state = .done answer ∧ frame = s.frame answer ∧
        frame.length ≤ maxDatagram) (hserved : ∀ s ∈ c'.serves, ∃ frame ∈ c'.received,
      Frame.parse (frame.take mirrorMaxFrame) = some (.request s.reqID s.hash))
    (hrefused : c'.getChunk = false →
      ∀ s ∈ c'.serves, s.state = .writing none ∨ s.state = .done none) : c'.Sources E := by
  refine ⟨hparsed, hasked, fun frame hframe ↦ ?_, hserved, hrefused⟩
  rcases hnew frame hframe with hold | hnew
  · rcases h.sent frame hold with ⟨t, ht, rfl⟩ | ⟨s, hs, answer, hs', rest⟩
    · obtain ⟨t', ht', hsame⟩ := htrips t ht
      exact .inl ⟨t', ht', hsame.symm⟩
    · exact .inr ⟨s, hdone s hs answer hs', answer, hs', rest⟩
  · exact hnew

theorem Sources.step (h : c.Sources E) (hstep : c.step E e = some c') :
    c'.Sources E := by
  cases step_moved hstep with
  | @request reqID hash hashArr hfree parsed =>
    refine h.of_subset (fun t ht ↦ ?_) (fun t ht hw ↦ ?_)
      (fun t ht ↦ ⟨t, List.mem_append_left _ ht, rfl⟩) (fun s hs _ _ ↦ hs)
      (fun frame hframe ↦ .inl hframe) h.served h.refused
    · rcases List.mem_append.mp ht with ht | ht
      · exact h.parsed t ht
      · rw [List.mem_singleton.mp ht]
        exact parsed
    · rcases List.mem_append.mp ht with ht | ht
      · exact h.asked t ht hw
      · rw [List.mem_singleton.mp ht] at hw
        cases hw
  | @trip i t t' _ ht moved =>
    have hmem : t ∈ c.trips := List.mem_of_getElem? ht
    have hself : t' ∈ c'.trips := moved.trips ▸ Pending.mem_set_self ht
    have hframe : t'.frame = t.frame := by rw [Trip.frame, Trip.frame, moved.reqID, moved.hashArr]
    have hout : ∀ frame ∈ c.out, frame ∈ c'.out := (out_of_step hstep).subset
    refine h.of_subset (fun u hu ↦ ?_) (fun u hu hw ↦ ?_) (fun u hu ↦ ?_)
      (fun s hs _ _ ↦ moved.serves ▸ hs) (fun frame hf ↦ ?_) ?_ ?_
    · rw [moved.trips] at hu
      rcases List.mem_or_eq_of_mem_set hu with hu | rfl
      · exact h.parsed u hu
      · rw [moved.hash, moved.hashArr]
        exact h.parsed t hmem
    · rw [moved.trips] at hu
      rcases List.mem_or_eq_of_mem_set hu with hu | rfl
      · exact hout _ (h.asked u hu hw)
      · rcases moved.out with ⟨-, hnot⟩ | hnew
        · rw [hnot] at hw
          cases hw
        · rw [hnew, hframe]
          exact List.mem_append_right _ (List.mem_singleton_self _)
    · rcases Pending.eq_or_mem_set ht hu with rfl | hu
      · exact ⟨t', hself, hframe⟩
      · exact ⟨u, moved.trips ▸ hu, rfl⟩
    · rcases moved.out with ⟨hsame, -⟩ | hnew
      · exact .inl (hsame ▸ hf)
      · rw [hnew, List.mem_append, List.mem_singleton] at hf
        exact hf.imp_right fun hf ↦ .inl ⟨t', hself, hf.trans hframe.symm⟩
    · rw [moved.serves, moved.received]
      exact h.served
    · rw [moved.serves, moved.getChunk]
      exact h.refused
  | @offer i t resp hreader ht =>
    have hmem : t ∈ c.trips := List.mem_of_getElem? ht
    refine h.of_subset (fun u hu ↦ ?_) (fun u hu hw ↦ ?_) (fun u hu ↦ ?_) (fun s hs _ _ ↦ hs)
      (fun frame hf ↦ .inl hf) h.served h.refused
    · rcases List.mem_or_eq_of_mem_set hu with hu | rfl
      · exact h.parsed u hu
      · exact h.parsed t hmem
    · rcases List.mem_or_eq_of_mem_set hu with hu | rfl
      · exact h.asked u hu hw
      · exact h.asked t hmem hw
    · rcases Pending.eq_or_mem_set ht hu with rfl | hu
      · exact ⟨_, Pending.mem_set_self ht, rfl⟩
      · exact ⟨u, hu, rfl⟩
  | @serve j s s' _ hs moved =>
    have hmem : s ∈ c.serves := List.mem_of_getElem? hs
    have hself : s' ∈ c'.serves := moved.serves ▸ Pending.mem_set_self hs
    refine h.of_subset ?_ ?_ (fun t ht ↦ ⟨t, moved.trips ▸ ht, rfl⟩) (fun u hu answer hdone ↦ ?_)
      (fun frame hf ↦ ?_) (fun u hu ↦ ?_) (fun hget u hu ↦ ?_)
    · rw [moved.trips]
      exact h.parsed
    · rw [moved.trips]
      exact fun t ht hw ↦ (out_of_step hstep).subset (h.asked t ht hw)
    · rcases Pending.eq_or_mem_set hs hu with rfl | hu
      · exact absurd hdone (moved.running answer)
      · exact moved.serves ▸ hu
    · rcases moved.out with hsame | ⟨answer, hdone, hnew, hfits⟩
      · exact .inl (hsame ▸ hf)
      · rw [hnew, List.mem_append, List.mem_singleton] at hf
        rcases hf with hf | rfl
        · exact .inl hf
        · refine .inr (.inr ⟨s', hself, answer, hdone, ?_, hfits⟩)
          rw [Service.frame, Service.frame, moved.reqID]
    · rw [moved.received]
      rw [moved.serves] at hu
      rcases List.mem_or_eq_of_mem_set hu with hu | rfl
      · exact h.served u hu
      · rw [moved.reqID, moved.hash]
        exact h.served s hmem
    · rw [moved.serves] at hu
      have hold := h.refused (moved.getChunk ▸ hget)
      rcases List.mem_or_eq_of_mem_set hu with hu | rfl
      · exact hold u hu
      · rcases moved.answer with hask | ⟨answer, hwrite, hdone⟩
        · rcases hold s hmem with hs' | hs' <;> rw [hs'] at hask <;> cases hask
        · rcases hold s hmem with hs' | hs' <;> rw [hs'] at hwrite <;> cases hwrite
          exact .inr hdone
  | idle _ _ hreader => exact ⟨h.parsed, h.asked, h.sent, h.served, h.refused⟩

theorem Sources.read {now : ℤ} (h : c.Sources E) (hread : c.read now frame = some c') :
    c'.Sources E := by
  rcases read_spec hread with rfl | hreads
  · exact ⟨h.parsed, h.asked, h.sent, h.served, h.refused⟩
  have hserves : ∀ s ∈ c'.serves, s ∈ c.serves ∨
      Frame.parse (frame.take mirrorMaxFrame) = some (.request s.reqID s.hash) ∧
        (s.state = .asking ∧ c.getChunk = true ∨ s.state = .writing none) := by
    intro s hs
    rcases hreads.serves with hsame | ⟨id, hash, state, hnew, hparse, hstate⟩
    · exact .inl (hsame ▸ hs)
    · rw [hnew, List.mem_append, List.mem_singleton] at hs
      rcases hs with hs | rfl
      · exact .inl hs
      · exact .inr ⟨hparse, hstate⟩
  refine h.of_subset ?_ ?_ (fun t ht ↦ ⟨t, hreads.trips ▸ ht, rfl⟩) (fun s hs _ _ ↦ ?_)
    (fun f hf ↦ .inl (hreads.out ▸ hf)) (fun s hs ↦ ?_) (fun hget s hs ↦ ?_)
  · rw [hreads.trips]
    exact h.parsed
  · rw [hreads.trips, hreads.out]
    exact h.asked
  · rcases hreads.serves with hsame | ⟨id, hash, state, hnew, -⟩
    · exact hsame ▸ hs
    · exact hnew ▸ List.mem_append_left _ hs
  · rw [hreads.received]
    rcases hserves s hs with hold | ⟨hparse, -⟩
    · obtain ⟨f, hf, hparse⟩ := h.served s hold
      exact ⟨f, List.mem_append_left _ hf, hparse⟩
    · exact ⟨frame, List.mem_append_right _ (List.mem_singleton_self _), hparse⟩
  · rw [hreads.getChunk] at hget
    rcases hserves s hs with hold | ⟨-, ⟨-, hset⟩ | hnone⟩
    · exact h.refused hget s hold
    · rw [hset] at hget
      cases hget
    · exact .inl hnone

/-- A chunk that was read fitted the receive buffer. -/
theorem Answered.length_le {id : UInt32} {data : Bytes} (h : c.Answered id (some data)) :
    data.length ≤ 32755 := by
  obtain ⟨frame, -, hparse⟩ := h
  obtain ⟨-, rest, hcut⟩ := Frame.parse_eq_some_iff.mp hparse
  have hlen := congrArg List.length hcut
  rw [Frame.answer, Frame.encode, mirrorEncodeFound, List.length_append, List.length_append,
    List.length_append, length_mirrorHead, length_putUint32, List.length_take,
    mirrorMaxFrame] at hlen
  omega

/-! ## The two ends -/

open Duplex (Side)

section

variable {getChunk : Side → Bool} {now : Side → ℤ} {es : List (Duplex.Event Event ℤ)}
  {l : Side → MirrorConn}

end

section

variable {getChunk : Side → Bool} {now : Side → ℤ} {es : List (Duplex.Event Event ℤ)}
  {l : Side → MirrorConn}

/-- A frame that fits the buffer is read by a read loop that is at leisure. -/
theorem read_encode {c : MirrorConn} (hidle : c.reader = .idle) (hrun : c.stopped = false) (now : ℤ)
    {f : Frame} (hvalid : f.Valid) (hfits : f.encode.length ≤ mirrorMaxFrame) :
    c.read now f.encode =
      some (dispatch { c with
        lastActivity := now, received := c.received ++ [f.encode] } f) := by
  have hparse : Frame.parse (f.encode.take mirrorMaxFrame) = some f := by
    rw [List.take_of_length_le hfits]
    exact List.append_nil f.encode ▸ Frame.parse_encode hvalid []
  rw [read, if_neg (not_not.mpr hidle), if_neg (by rw [hrun]; decide), hparse]
  rfl

end

end TunnelCat.Mirror.MirrorConn
