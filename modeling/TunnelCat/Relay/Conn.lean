import TunnelCat.Lib.Trace
import TunnelCat.Relay.Frame

/-!
# The UDP relay transport

A `UDPRelayConn` sits on a connected UDP socket and is a client and a server at once.  As a client
it makes requests: a `RoundTrip` draws an id that no other request in progress has, registers a
channel with room for one response under it, writes its frame up to three times and waits for the
response in between.  As a server it forwards every request it reads to its control node, in a
goroutine of its own, and writes the response.

The goroutines are all callers of `RoundTrip`, the read loop, one goroutine for each request that is
being served, and the keepalive loop.  A step is one access to a shared variable or one answer of
the environment.  Time is not modelled: a timer may go off at any moment.

`Link` is two of them connected by a network.  It may lose, copy, delay and reorder datagrams, so a
step of the network delivers *some* datagram that the other side has written at some time.
-/

set_option autoImplicit false

open Function

namespace TunnelCat.Relay

/-- `udpRelayRetries`. -/
def udpRelayRetries : ℕ := 3

/-- `udpRelayFailThresh`. -/
def udpRelayFailThresh : ℤ := 5

/-- `udpRelayKeepaliveMiss`. -/
def udpRelayKeepaliveMiss : ℕ := 3

/-! ## The goroutines -/

/-- The first attempt. -/
def firstAttempt : Fin udpRelayRetries := ⟨0, Nat.succ_pos 2⟩

/-- Where a `RoundTrip` is. -/
inductive TripState where
  /-- Before it writes its frame, for the first, second or third time. -/
  | writing (attempt : Fin udpRelayRetries)
  /-- Waiting for the response, for the timer or for `Close`. -/
  | waiting (attempt : Fin udpRelayRetries)
  /-- It has the response, before `failCount` is reset. -/
  | succeeded (resp : Resp)
  /-- It has failed, before `failCount` is incremented. -/
  | failing (err : String)
  /-- It has crossed the threshold, before `failed` is set. -/
  | marking (err : String)
  /-- It returns, before its entry is deleted from `pending`. -/
  | leaving (result : Except String Resp)
  /-- It has returned. -/
  | returned (result : Except String Resp)

/-- A call of `RoundTrip`. -/
structure Trip where
  /-- The id it has drawn. -/
  reqID : UInt32
  /-- The path of the request. -/
  path : Bytes
  /-- The session token. -/
  token : Bytes
  /-- The body. -/
  body : Bytes
  /-- What is in its channel. -/
  chan : Option Resp
  /-- Where it is. -/
  state : TripState

/-- The frame of a request. -/
def Trip.frame (t : Trip) : Bytes := udpEncodeRequest t.reqID t.path t.token t.body

/-- Where a goroutine of `serveRequest` is. -/
inductive ServeState where
  /-- Before the request to the control node. -/
  | starting
  /-- Waiting for its response. -/
  | posting
  /-- Before the response is written. -/
  | responding (resp : Resp)
  /-- It has ended. -/
  | done (resp : Resp)
  deriving DecidableEq

/-- A goroutine of `serveRequest`. -/
structure Serve where
  /-- The datagram it was started for. -/
  packet : ℕ
  /-- The id of the request. -/
  reqID : UInt32
  /-- The path of the request. -/
  path : Bytes
  /-- The session token. -/
  token : Bytes
  /-- The body. -/
  body : Bytes
  /-- Where it is. -/
  state : ServeState
  deriving DecidableEq

/-- Where the read loop is. -/
inductive Reader where
  /-- In `conn.Read`. -/
  | idle
  /-- It has found the channel of trip `i`, before the response is put in. -/
  | holding (i : ℕ) (resp : Resp)
  /-- Before a pong is written. -/
  | ponging (reqID : UInt32)
  /-- It has ended. -/
  | ended
  deriving DecidableEq

/-- Where the keepalive loop is. -/
inductive Keepalive where
  /-- Waiting for the ticker. -/
  | ticking
  /-- A ping is written, before the missing pong is counted. -/
  | counting
  /-- A ping could not be written, before `failCount` is incremented. -/
  | failing
  /-- Before `failed` is set. -/
  | marking
  /-- It has ended. -/
  | ended
  deriving DecidableEq

/-- Who wrote a datagram. -/
inductive Origin where
  /-- The `i`-th call of `RoundTrip`. -/
  | trip (i : ℕ)
  /-- The `j`-th goroutine of `serveRequest`. -/
  | serve (j : ℕ)
  /-- The keepalive loop. -/
  | ping
  /-- The read loop. -/
  | pong
  deriving DecidableEq

/-- A datagram on the network. -/
structure Packet where
  /-- Who wrote it. -/
  origin : Origin
  /-- What it is. -/
  frame : Bytes
  deriving DecidableEq

/-- A request to the control node. -/
structure Post where
  /-- The datagram it was made for. -/
  packet : ℕ
  /-- Its path. -/
  path : Bytes
  /-- The session token in its header. -/
  token : Bytes
  /-- Its body. -/
  body : Bytes
  deriving DecidableEq

/-- A change of `failCount`. -/
inductive Entry where
  /-- `recordFailure`. -/
  | failure
  /-- A `RoundTrip` that succeeds. -/
  | success
  deriving DecidableEq

/-- `UDPRelayConn`. -/
structure Conn where
  /-- `controlURL`, empty if it is no server. -/
  controlURL : String
  /-- `pending`: which call of `RoundTrip` has the channel for an id. -/
  pending : UInt32 → Option ℕ
  /-- The calls of `RoundTrip`. -/
  trips : List Trip
  /-- `failCount`, an `int32`. -/
  failCount : ℤ
  /-- `failed`. -/
  failed : Bool
  /-- `missedPongs`. -/
  missedPongs : ℕ
  /-- Whether `stopCh` is closed. -/
  stopped : Bool
  /-- The read loop. -/
  reader : Reader
  /-- The goroutines of `serveRequest`. -/
  serves : List Serve
  /-- The keepalive loop. -/
  keepalive : Keepalive
  /-- Record: the datagrams written. -/
  out : List Packet
  /-- Record: the datagrams read, with their number among those that the peer has written. -/
  received : List (ℕ × Bytes)
  /-- Record: the requests made to the control node. -/
  posts : List Post
  /-- Record: what happened to `failCount`. -/
  log : List Entry

namespace Conn

/-- `NewUDPRelayConn`. -/
def new (controlURL : String) : Conn where
  controlURL := controlURL
  pending _ := none
  trips := []
  failCount := 0
  failed := false
  missedPongs := 0
  stopped := false
  reader := .idle
  serves := []
  keepalive := .ticking
  out := []
  received := []
  posts := []
  log := []

/-- A datagram is written. -/
def send (c : Conn) (origin : Origin) (frame : Bytes) : Conn :=
  { c with out := c.out ++ [⟨origin, frame⟩] }

/-- A datagram is written, unless there is an error. -/
def trySend (c : Conn) (origin : Origin) (frame : Bytes) (err : Option String) : Conn :=
  if err.isSome then c else c.send origin frame

/-- `failCount.Add(1)`. -/
def addFailure (c : Conn) : Conn :=
  { c with failCount := (c.failCount + 1).bmod (2 ^ 32), log := c.log ++ [.failure] }

/-- `failCount.Store(0)`. -/
def resetFailures (c : Conn) : Conn := { c with failCount := 0, log := c.log ++ [.success] }

/-- `failed.Swap(true)`. -/
def markFailed (c : Conn) : Conn := { c with failed := true }

/-- Trip `i` goes on as `t`. -/
def putTrip (c : Conn) (i : ℕ) (t : Trip) : Conn := { c with trips := c.trips.set i t }

/-! ## RoundTrip -/

/-- `RoundTrip` up to the release of `mu`, with the id it has drawn. -/
def roundTrip (c : Conn) (reqID : UInt32) (path token body : Bytes) : Option Conn :=
  match c.pending reqID with
  | some _ => none
  | none =>
    some { c with
      pending := update c.pending reqID (some c.trips.length)
      trips := c.trips ++ [⟨reqID, path, token, body, none, .writing firstAttempt⟩] }

/-- What a `RoundTrip` does next. -/
inductive TripEvent where
  /-- `conn.Write` returns. -/
  | write (err : Option String)
  /-- Take the response out of the channel. -/
  | receive
  /-- The timer goes off. -/
  | timeout
  /-- Notice that the connection is closed. -/
  | stop
  /-- Reset `failCount`. -/
  | succeed
  /-- Increment `failCount`. -/
  | fail
  /-- Set `failed`. -/
  | mark
  /-- Delete the entry and return. -/
  | leave

/-- Where a trip goes on after its timer went off: it writes again, or its attempts are used up. -/
def timedOut (attempt : Fin udpRelayRetries) : TripState :=
  if h : attempt.val + 1 < udpRelayRetries then .writing ⟨attempt.val + 1, h⟩
  else .failing "udp-relay: 3 retries exhausted"

/-- `RoundTrip` from its first write on. -/
def tripStep (c : Conn) (i : ℕ) (t : Trip) (e : TripEvent) : Option Conn :=
  match t.state, e with
  | .writing a, .write none =>
    some ((c.send (.trip i) t.frame).putTrip i { t with state := .waiting a })
  | .writing _, .write (some err) =>
    some (c.putTrip i { t with state := .failing ("udp-relay write: " ++ err) })
  | .waiting _, .receive =>
    t.chan.map fun resp ↦ c.putTrip i { t with chan := none, state := .succeeded resp }
  | .waiting a, .timeout => some (c.putTrip i { t with state := timedOut a })
  | .waiting _, .stop =>
    if c.stopped then some (c.putTrip i { t with state := .leaving (.error "udp-relay: closed") })
    else none
  | .succeeded resp, .succeed =>
    some (c.resetFailures.putTrip i { t with state := .leaving (.ok resp) })
  | .failing err, .fail =>
    some (c.addFailure.putTrip i { t with
      state := if udpRelayFailThresh ≤ c.addFailure.failCount then .marking err
        else .leaving (.error err) })
  | .marking err, .mark =>
    some (c.markFailed.putTrip i { t with state := .leaving (.error err) })
  | .leaving result, .leave =>
    some (putTrip { c with pending := update c.pending t.reqID none } i
      { t with state := .returned result })
  | _, _ => none

/-! ## The read loop -/

/-- A frame with this header has been read. -/
def dispatch (c : Conn) (k : ℕ) (data : Bytes) (reqID : UInt32) (typ : UInt8) : Conn :=
  if typ = udpRelayTypeResponse then
    match udpDecodeResponse data, c.pending reqID with
    | some resp, some i => { c with reader := .holding i resp }
    | _, _ => c
  else if typ = udpRelayTypeRequest then
    if c.controlURL = "" then c
    else
      match udpDecodeRequest data with
      | some (path, token, body) =>
        { c with serves := c.serves ++ [⟨k, reqID, path, token, body, .starting⟩] }
      | none => c
  else if typ = udpRelayTypeKeepalive then { c with reader := .ponging reqID }
  else if typ = udpRelayTypePong then { c with missedPongs := 0 }
  else c

/-- The read loop reads the `k`-th datagram of the peer, up to the next access to a shared variable
or to the socket. -/
def read (c : Conn) (k : ℕ) (frame : Bytes) : Option Conn :=
  if c.reader ≠ .idle then none
  else if c.stopped then some { c with reader := .ended }
  else
    let data := frame.take udpRelayMaxFrame
    let c := { c with received := c.received ++ [(k, data)] }
    match header data with
    | some (reqID, typ) => some (c.dispatch k data reqID typ)
    | none => some c

/-- What the read loop does next. -/
inductive ReaderEvent where
  /-- Put the response into the channel, if there is room. -/
  | offer
  /-- `conn.Write` of a pong returns. -/
  | pong (err : Option String)

/-- The read loop after a frame was read. -/
def readerStep (c : Conn) (e : ReaderEvent) : Option Conn :=
  match c.reader, e with
  | .holding i resp, .offer =>
    c.trips[i]?.map fun t ↦
      putTrip { c with reader := .idle } i { t with chan := t.chan <|> some resp }
  | .ponging reqID, .pong err =>
    some { c.trySend .pong (udpEncodeKeepalive reqID udpRelayTypePong) err with reader := .idle }
  | _, _ => none

/-! ## Serving -/

/-- What a goroutine of `serveRequest` does next. -/
inductive ServeEvent where
  /-- Make the request to the control node, if one can be made for that path. -/
  | forward (ok : Bool)
  /-- Its response comes. -/
  | answer (reply : Except String Resp)
  /-- `conn.Write` of the response returns. -/
  | write (err : Option String)

/-- Goroutine `j` goes on as `s`. -/
def putServe (c : Conn) (j : ℕ) (s : Serve) : Conn := { c with serves := c.serves.set j s }

/-- The response to a request that could not be forwarded. -/
def unavailable : Resp := ⟨503, []⟩

/-- `serveRequest` and `forwardToControl`. -/
def serveStep (c : Conn) (j : ℕ) (s : Serve) (e : ServeEvent) : Option Conn :=
  match s.state, e with
  | .starting, .forward true =>
    some (putServe { c with posts := c.posts ++ [⟨s.packet, s.path, s.token, s.body⟩] } j
      { s with state := .posting })
  | .starting, .forward false => some (c.putServe j { s with state := .responding unavailable })
  | .posting, .answer (.ok resp) => some (c.putServe j { s with state := .responding resp })
  | .posting, .answer (.error _) =>
    some (c.putServe j { s with state := .responding unavailable })
  | .responding resp, .write err =>
    some ((c.trySend (.serve j) (udpEncodeResponse s.reqID resp) err).putServe j
      { s with state := .done resp })
  | _, _ => none

/-! ## The keepalive loop, and all of it together -/

/-- What the keepalive loop does next. -/
inductive KeepaliveEvent where
  /-- The ticker goes off, an id is drawn and `conn.Write` of the ping returns. -/
  | tick (reqID : UInt32) (err : Option String)
  /-- Count the missing pong. -/
  | count
  /-- Increment `failCount`. -/
  | fail
  /-- Set `failed`. -/
  | mark
  /-- Notice that the connection is closed. -/
  | stop

/-- `keepaliveLoop`. -/
def keepaliveStep (c : Conn) (e : KeepaliveEvent) : Option Conn :=
  match c.keepalive, e with
  | .ticking, .tick reqID none =>
    some { c.send .ping (udpEncodeKeepalive reqID udpRelayTypeKeepalive) with
      keepalive := .counting }
  | .ticking, .tick _ (some _) => some { c with keepalive := .failing }
  | .ticking, .stop => if c.stopped then some { c with keepalive := .ended } else none
  | .counting, .count =>
    some { c with
      missedPongs := c.missedPongs + 1
      keepalive := if udpRelayKeepaliveMiss ≤ c.missedPongs + 1 then .marking else .ticking }
  | .failing, .fail =>
    some { c.addFailure with
      keepalive := if udpRelayFailThresh ≤ c.addFailure.failCount then .marking else .ended }
  | .marking, .mark => some { c.markFailed with keepalive := .ended }
  | _, _ => none

/-- Who does what. -/
inductive Event where
  /-- `RoundTrip` is called. -/
  | roundTrip (reqID : UInt32) (path token body : Bytes)
  /-- A `RoundTrip` goes on. -/
  | trip (i : ℕ) (e : TripEvent)
  /-- The read loop goes on. -/
  | reader (e : ReaderEvent)
  /-- A goroutine of `serveRequest` goes on. -/
  | serve (j : ℕ) (e : ServeEvent)
  /-- The keepalive loop goes on. -/
  | keepalive (e : KeepaliveEvent)
  /-- `Close` is called. -/
  | close

/-- A step of the connection that reads no datagram. -/
def step (c : Conn) : Event → Option Conn
  | .roundTrip reqID path token body => c.roundTrip reqID path token body
  | .trip i e => c.trips[i]?.bind fun t ↦ c.tripStep i t e
  | .reader e => c.readerStep e
  | .serve j e => c.serves[j]?.bind fun s ↦ c.serveStep j s e
  | .keepalive e => c.keepaliveStep e
  | .close => some { c with stopped := true }

end Conn

/-! ## Two of them -/

/-- The two ends. -/
inductive Side where
  | client | server
  deriving DecidableEq

/-- The other end. -/
def Side.other : Side → Side
  | .client => .server
  | .server => .client

/-- Two connected transports. -/
abbrev Link : Type := Side → Conn

namespace Link

/-- The two ends with the control nodes they forward to. -/
def new (controlURL : Side → String) : Link := fun s ↦ .new (controlURL s)

/-- What can happen. -/
inductive Event where
  /-- One of the ends takes a step. -/
  | act (s : Side) (e : Conn.Event)
  /-- The network delivers to one end the `k`-th datagram that the other has written. -/
  | deliver (s : Side) (k : ℕ)

/-- One step. -/
def step (l : Link) : Event → Option Link
  | .act s e => ((l s).step e).map fun c ↦ update l s c
  | .deliver s k =>
    (l s.other).out[k]?.bind fun p ↦ ((l s).read k p.frame).map fun c ↦ update l s c

end Link

end TunnelCat.Relay
