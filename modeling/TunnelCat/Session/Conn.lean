import TunnelCat.Lib.BufPool
import TunnelCat.Lib.Trace
import TunnelCat.Tunnel.Frame

/-!
# A tunnel connection

`TunnelConn` is a `net.Conn` over HTTP requests.  Up to five kinds of goroutine work on one: the
caller of `Read`, the caller of `Write`, the senders that a pipelined `Write` leaves behind, the
stream loop, and whoever calls `Close`.  They share the read buffer, the sequence counter, a
channel, a semaphore and an error cell, and they share a pool of chunk buffers with every other
connection of the process.

The state below has the shared variables and, for each goroutine, the point it has reached.  A step
is one access to a shared variable or one answer of the environment, so a run is an interleaving.
`readStep` is `Read` in both of its modes, `writeStep` and `senderStep` are `Write` in both of its
modes, `loopStep` is the goroutine of `startStreamLoop` together with the `renewStream` that `Dial`
installs, and `closeStep` is `Close`.  `dial` is the state `Dial` hands out.

The last fields of the state are records of what happened.  No step reads them.
-/

set_option autoImplicit false

namespace TunnelCat.Session

/-- `tunnelPipelineWidth`. -/
def tunnelPipelineWidth : ℕ := 8

/-- `streamMaxFlaps`. -/
def streamMaxFlaps : ℕ := 5

/-- `streamMaxOpenErrors`. -/
def streamMaxOpenErrors : ℕ := 5

/-- `maxRenewals` of `Dial`. -/
def maxRenewals : ℕ := 3

/-- The length of a chunk buffer and of the buffer a stream is read into. -/
def chunkSize : ℕ := 65536

/-- `net.ErrClosed`. -/
def errClosedText : String := "use of closed network connection"

/-- A slice of a pooled buffer. -/
structure Chunk where
  /-- The buffer. -/
  buf : ℕ
  /-- How much of it. -/
  len : ℕ
deriving DecidableEq, Repr

/-- Where the caller of `Read` is. -/
inductive Reader where
  /-- Outside of `Read`. -/
  | idle
  /-- Called with a buffer of `n` bytes, before the lock. -/
  | entered (n : ℕ)
  /-- Streaming: waiting for the channel or for `Close`. -/
  | selecting (n : ℕ)
  /-- Streaming: a chunk has come out of the channel. -/
  | received (n : ℕ) (ch : Chunk)
  /-- Streaming: `k` bytes are copied, the rest goes to the read buffer. -/
  | copied (ch : Chunk) (k : ℕ)
  /-- Streaming: the buffer goes back to the pool. -/
  | putting (ch : Chunk)
  /-- Polling: at the top of the loop, before the check for `Close`. -/
  | polling (n : ℕ)
  /-- Polling: before the number of the poll is drawn. -/
  | numbering (n : ℕ)
  /-- Polling: waiting for the answer to a poll. -/
  | polled (n : ℕ)
  /-- Polling: a poll failed, before the error is returned. -/
  | failed
  /-- Polling: `k` bytes are copied, the tail goes to the read buffer. -/
  | requeueing (k : ℕ) (tail : Bytes)
deriving DecidableEq, Repr

/-- Where the caller of `Write` is. -/
inductive Writer where
  /-- Outside of `Write`. -/
  | idle
  /-- Called, before the error cell is read. -/
  | entered (p : Bytes)
  /-- Before the check for `Close`. -/
  | checked (p : Bytes)
  /-- Pipeline: waiting for a slot or for `Close`. -/
  | acquiring (p : Bytes)
  /-- Pipeline: has a slot, before the error cell is read again. -/
  | acquired (p : Bytes)
  /-- Pipeline: found an error, before the slot is released. -/
  | rejected (p : Bytes) (e : String)
  /-- Pipeline: before the number is drawn and the sender started. -/
  | launching (p : Bytes)
  /-- Sync: before the number is drawn. -/
  | numbering (p : Bytes)
  /-- Sync: waiting for the answer. -/
  | awaiting (p : Bytes)
  /-- Sync: the answer goes to the read buffer. -/
  | buffering (p resp : Bytes)
deriving DecidableEq, Repr

/-- The answer that the writer holds. -/
def Writer.holds : Writer → List Bytes
  | .buffering _ resp => [resp]
  | _ => []

/-- Whether a point of `Write` is one of the pipeline, or common to both modes. -/
def Writer.Pipelined : Writer → Prop
  | .numbering _ | .awaiting _ | .buffering _ _ => False
  | _ => True

/-- Where a sender is. -/
inductive SenderState where
  /-- In `send`. -/
  | flying
  /-- `send` failed, before the error is stored. -/
  | failing (e : String)
  /-- Before the slot is released. -/
  | finished
deriving DecidableEq, Repr

/-- The goroutine of a pipelined `Write`. -/
structure Sender where
  /-- Its sequence number. -/
  seq : ℕ
  /-- Its copy of the payload. -/
  data : Bytes
  /-- Where it is. -/
  state : SenderState
deriving DecidableEq, Repr

/-- Where the stream loop is. -/
inductive Loop where
  /-- At the top. -/
  | top
  /-- Opening a stream. -/
  | opening
  /-- Waiting before the next attempt. -/
  | waiting
  /-- In `body.Read`. -/
  | reading
  /-- Some bytes are read; `last` if the stream is over with them. -/
  | holding (bs : Bytes) (last : Bool)
  /-- Waiting for the channel or for `Close`. -/
  | offering (ch : Chunk) (last : Bool)
  /-- The stream is over. -/
  | ended
  /-- Has given up, before the channel is closed. -/
  | exiting
  /-- Not running. -/
  | done
deriving DecidableEq, Repr

/-- Where `Close` is. -/
inductive Closer where
  | idle | notifying | done
deriving DecidableEq, Repr

/-- Who makes a request. -/
inductive Caller where
  | probe | read | write | close
deriving DecidableEq, Repr

/-- A call of `send`. -/
structure Request where
  /-- Who calls. -/
  caller : Caller
  /-- The sequence number. -/
  seq : ℕ
  /-- The payload. -/
  payload : Bytes
deriving DecidableEq, Repr

/-- `TunnelConn`. -/
structure Conn where
  /-- Whether there is a `streamFn`. -/
  streaming : Bool
  /-- The capacity of `pipeSem`, zero if there is none. -/
  pipeWidth : ℕ
  /-- The capacity of `dataChan`. -/
  chanDepth : ℕ
  /-- Whether `closed` is closed. -/
  closed : Bool
  /-- The next sequence number. -/
  seq : ℕ
  /-- The read buffer. -/
  readBuf : Bytes
  /-- What is in `dataChan`. -/
  chan : List Chunk
  /-- Whether it is closed. -/
  chanClosed : Bool
  /-- `chunkPool`. -/
  pool : BufPool
  /-- How many slots of `pipeSem` are taken. -/
  slots : ℕ
  /-- `pipeErr`. -/
  pipeErr : Option String
  /-- The caller of `Read`. -/
  reader : Reader
  /-- The caller of `Write`. -/
  writer : Writer
  /-- The senders. -/
  senders : List Sender
  /-- The stream loop. -/
  loop : Loop
  /-- Its consecutive failures to open a stream. -/
  openErrors : ℕ
  /-- Its consecutive short-lived streams. -/
  flaps : ℕ
  /-- How often it was given a new `streamFn`. -/
  renewals : ℕ
  /-- `Close`. -/
  closer : Closer
  /-- Record: all bytes `Read` has copied to its callers. -/
  delivered : Bytes
  /-- Record: whether `Read` has returned `net.ErrClosed`. -/
  errClosed : Bool
  /-- Record: all bytes read from streams. -/
  streamed : Bytes
  /-- Record: the answers to requests that go to the reader, in the order they came. -/
  responses : List Bytes
  /-- Record: the requests handed to `send`. -/
  sends : List Request
  /-- Record: the calls of `Write` that have returned, with what they returned. -/
  results : List (Bytes × Outcome ℕ)
  /-- Record: how often `recordStreamDead` was called. -/
  streamDead : ℕ

namespace Conn

/-! ## Read -/

/-- What the caller of `Read` does next. -/
inductive ReadEvent where
  /-- Call it with a buffer of `n` bytes. -/
  | call (n : ℕ)
  /-- Look at the read buffer. -/
  | lock
  /-- Take a chunk out of the channel. -/
  | recv
  /-- Notice that the connection is closed. -/
  | shut
  /-- Notice that the channel is closed and empty. -/
  | drained
  /-- Copy from the chunk. -/
  | copy
  /-- Append what did not fit to the read buffer. -/
  | requeue
  /-- Give the buffer back to the pool. -/
  | put
  /-- Check for `Close`. -/
  | check
  /-- Draw a number and send a poll. -/
  | poll
  /-- The answer to the poll comes. -/
  | answer (a : Outcome Bytes)
  /-- Two seconds are over. -/
  | giveUp

/-- `Read`. -/
def readStep (c : Conn) (e : ReadEvent) : Option Conn :=
  match c.reader, e with
  | .idle, .call n => some { c with reader := .entered n }
  | .entered n, .lock =>
    if c.readBuf = [] then
      some { c with reader := if c.streaming then .selecting n else .polling n }
    else
      some { c with
        reader := .idle
        readBuf := c.readBuf.drop n
        delivered := c.delivered ++ c.readBuf.take n }
  | .selecting n, .recv =>
    match c.chan with
    | [] => none
    | ch :: chs => some { c with reader := .received n ch, chan := chs }
  | .selecting _, .shut =>
    if c.closed then some { c with reader := .idle, errClosed := true } else none
  | .selecting _, .drained =>
    if c.chan = [] ∧ c.chanClosed then some { c with reader := .idle, errClosed := true } else none
  | .received n ch, .copy =>
    some { c with
      reader := if n < ch.len then .copied ch n else .putting ch
      delivered := c.delivered ++ (c.pool.read ch.buf ch.len).take n }
  | .copied ch k, .requeue =>
    some { c with
      reader := .putting ch
      readBuf := c.readBuf ++ (c.pool.read ch.buf ch.len).drop k }
  | .putting ch, .put => some { c with reader := .idle, pool := c.pool.put ch.buf }
  | .polling n, .check =>
    if c.closed then some { c with reader := .idle, errClosed := true }
    else some { c with reader := .numbering n }
  | .numbering n, .poll =>
    some { c with
      reader := .polled n
      seq := c.seq + 1
      sends := c.sends ++ [⟨.read, c.seq, []⟩] }
  | .polled n, .answer (.ok resp) =>
    if resp = [] then some { c with reader := .polling n }
    else
      some { c with
        reader := if n < resp.length then .requeueing n (resp.drop n) else .idle
        delivered := c.delivered ++ resp.take n
        responses := c.responses ++ [resp] }
  | .polled _, .answer (.err _) => some { c with reader := .failed }
  | .failed, .shut =>
    if c.closed then some { c with reader := .idle, errClosed := true } else none
  | .failed, .giveUp => some { c with reader := .idle }
  | .requeueing _ tail, .requeue =>
    some { c with reader := .idle, readBuf := c.readBuf ++ tail }
  | _, _ => none

/-! ## Write -/

/-- What the caller of `Write` does next. -/
inductive WriteEvent where
  /-- Call it. -/
  | call (p : Bytes)
  /-- Read the error cell. -/
  | checkErr
  /-- Check for `Close`. -/
  | checkClosed
  /-- Take a slot. -/
  | acquire
  /-- Notice that the connection is closed. -/
  | shut
  /-- Give the slot back. -/
  | release
  /-- Draw a number, start a sender and return. -/
  | launch
  /-- Draw a number and send. -/
  | send
  /-- The answer comes. -/
  | answer (a : Outcome Bytes)
  /-- Append the answer to the read buffer. -/
  | buffer

/-- `Write` returns. -/
def returned (c : Conn) (p : Bytes) (o : Outcome ℕ) : Conn :=
  { c with writer := .idle, results := c.results ++ [(p, o)] }

/-- `Write`. -/
def writeStep (c : Conn) (e : WriteEvent) : Option Conn :=
  match c.writer, e with
  | .idle, .call p => some { c with writer := .entered p }
  | .entered p, .checkErr =>
    match c.pipeErr with
    | some err => some (c.returned p (.err err))
    | none => some { c with writer := .checked p }
  | .checked p, .checkClosed =>
    if c.closed then some (c.returned p (.err errClosedText))
    else some { c with writer := if 0 < c.pipeWidth then .acquiring p else .numbering p }
  | .acquiring p, .acquire =>
    if c.slots < c.pipeWidth then some { c with writer := .acquired p, slots := c.slots + 1 }
    else none
  | .acquiring p, .shut =>
    if c.closed then some (c.returned p (.err errClosedText)) else none
  | .acquired p, .checkErr =>
    match c.pipeErr with
    | some err => some { c with writer := .rejected p err }
    | none => some { c with writer := .launching p }
  | .rejected p err, .release => some (returned { c with slots := c.slots - 1 } p (.err err))
  | .launching p, .launch =>
    some (returned { c with
      seq := c.seq + 1
      senders := c.senders ++ [⟨c.seq, p, .flying⟩]
      sends := c.sends ++ [⟨.write, c.seq, p⟩] } p (.ok p.length))
  | .numbering p, .send =>
    some { c with
      writer := .awaiting p
      seq := c.seq + 1
      sends := c.sends ++ [⟨.write, c.seq, p⟩] }
  | .awaiting p, .answer (.ok resp) =>
    if resp = [] then some (c.returned p (.ok p.length))
    else some { c with writer := .buffering p resp, responses := c.responses ++ [resp] }
  | .awaiting p, .answer (.err err) => some (c.returned p (.err err))
  | .buffering p resp, .buffer =>
    some (returned { c with readBuf := c.readBuf ++ resp } p (.ok p.length))
  | _, _ => none

/-- What a sender does next. -/
inductive SenderEvent where
  /-- `send` returns. -/
  | answer (a : Outcome Bytes)
  /-- Store the error, unless there is one. -/
  | store
  /-- Give the slot back. -/
  | release

/-- The goroutine of a pipelined `Write`. -/
def senderStep (c : Conn) (i : ℕ) (e : SenderEvent) : Option Conn :=
  c.senders[i]?.bind fun s ↦
    match s.state, e with
    | .flying, .answer (.ok _) =>
      some { c with senders := c.senders.set i { s with state := .finished } }
    | .flying, .answer (.err err) =>
      some { c with senders := c.senders.set i { s with state := .failing err } }
    | .failing err, .store =>
      some { c with
        senders := c.senders.set i { s with state := .finished }
        pipeErr := c.pipeErr <|> some err }
    | .finished, .release =>
      some { c with senders := c.senders.eraseIdx i, slots := c.slots - 1 }
    | _, _ => none

/-! ## The stream loop -/

/-- What the stream loop does next. -/
inductive LoopEvent where
  /-- Check for `Close`. -/
  | check
  /-- A stream opens. -/
  | opened
  /-- Opening one fails with status 404. -/
  | notFound
  /-- Opening one fails otherwise. -/
  | openFailed
  /-- The delay is over. -/
  | wake
  /-- Notice that the connection is closed. -/
  | shut
  /-- `body.Read` returns. -/
  | read (bs : Bytes) (last : Bool)
  /-- Take a buffer from the pool and fill it. -/
  | get (i : Option ℕ)
  /-- Put the chunk into the channel. -/
  | send
  /-- See whether the stream lived for less than `streamMinLifetime`. -/
  | judge (short : Bool)
  /-- Close the channel. -/
  | exit

/-- `giveUp`. -/
def giveUp (c : Conn) (controlFailure : Bool) : Conn :=
  { c with
    loop := .exiting
    streamDead := if controlFailure then c.streamDead + 1 else c.streamDead }

/-- `tryRenew`, and `giveUp` when it fails. -/
def renewOrGiveUp (c : Conn) : Conn :=
  if c.renewals < maxRenewals then
    { c with
      renewals := c.renewals + 1
      streamDead := c.streamDead + 1
      openErrors := 0
      flaps := 0
      loop := .top }
  else c.giveUp true

/-- Where the loop goes on after a read. -/
def afterRead (last : Bool) : Loop := if last then .ended else .reading

/-- The goroutine of `startStreamLoop`. -/
def loopStep (c : Conn) (e : LoopEvent) : Option Conn :=
  match c.loop, e with
  | .top, .check => some { c with loop := if c.closed then .exiting else .opening }
  | .opening, .opened => some { c with loop := .reading, openErrors := 0 }
  | .opening, .notFound => some (c.giveUp false)
  | .opening, .openFailed =>
    if streamMaxOpenErrors ≤ c.openErrors + 1 then
      some (renewOrGiveUp { c with openErrors := c.openErrors + 1, flaps := 0 })
    else some { c with loop := .waiting, openErrors := c.openErrors + 1, flaps := 0 }
  | .waiting, .wake => some { c with loop := .top }
  | .waiting, .shut => if c.closed then some { c with loop := .exiting } else none
  | .reading, .read bs last =>
    if bs.length ≤ chunkSize then
      some { c with
        loop := if bs = [] then afterRead last else .holding bs last
        streamed := c.streamed ++ bs }
    else none
  | .holding bs last, .get i =>
    (c.pool.get i).map fun (b, p) ↦
      { c with pool := p.write b bs, loop := .offering ⟨b, bs.length⟩ last }
  | .offering ch last, .send =>
    if c.chanDepth = 0 then
      -- Without a buffer a send is handed to a receiver that waits.
      match c.reader with
      | .selecting n => some { c with reader := .received n ch, loop := afterRead last }
      | _ => none
    else if c.chan.length < c.chanDepth then
      some { c with chan := c.chan ++ [ch], loop := afterRead last }
    else none
  | .offering ch _, .shut =>
    if c.closed then some { c with pool := c.pool.put ch.buf, loop := .exiting } else none
  | .ended, .judge short =>
    if short then
      if streamMaxFlaps ≤ c.flaps + 1 then some (renewOrGiveUp { c with flaps := c.flaps + 1 })
      else some { c with loop := .waiting, flaps := c.flaps + 1 }
    else some { c with loop := .top, flaps := 0 }
  | .exiting, .exit => some { c with loop := .done, chanClosed := true }
  | _, _ => none

/-! ## Close, and all of it together -/

/-- What `Close` does next. -/
inductive CloseEvent where
  /-- Close the connection, the first time. -/
  | close
  /-- Send the final request. -/
  | notify

/-- `Close`. -/
def closeStep (c : Conn) (e : CloseEvent) : Option Conn :=
  match c.closer, e with
  | .idle, .close => some { c with closer := .notifying, closed := true }
  | .notifying, .notify =>
    some { c with
      closer := .done
      seq := c.seq + 1
      sends := c.sends ++ [⟨.close, c.seq, []⟩] }
  | _, _ => none

/-- Who does what. -/
inductive Event where
  | read (e : ReadEvent)
  | write (e : WriteEvent)
  | sender (i : ℕ) (e : SenderEvent)
  | loop (e : LoopEvent)
  | close (e : CloseEvent)
  | pool (e : BufPool.Other)

/-- A step of the connection, or of somebody else who uses the pool. -/
def step (c : Conn) : Event → Option Conn
  | .read e => c.readStep e
  | .write e => c.writeStep e
  | .sender i e => c.senderStep i e
  | .loop e => c.loopStep e
  | .close e => c.closeStep e
  | .pool e => (c.pool.other e).map fun p ↦ { c with pool := p }

section Frame

variable {c t : Conn} {e : Event}

/-- The stream loop and what it counts stay as they are, and the connection stays closed. -/
structure LeavesLoop (c t : Conn) : Prop where
  loop : t.loop = c.loop
  chanClosed : t.chanClosed = c.chanClosed
  openErrors : t.openErrors = c.openErrors
  flaps : t.flaps = c.flaps
  renewals : t.renewals = c.renewals
  streamDead : t.streamDead = c.streamDead
  pipeWidth : t.pipeWidth = c.pipeWidth
  closed : c.closed = true → t.closed = true

/-- Only the stream loop changes what it counts. -/
theorem leavesLoop_step (h : c.step e = some t) (he : ∀ le, e ≠ .loop le) : c.LeavesLoop t := by
  cases e with
  | loop e => exact absurd rfl (he e)
  | read e =>
    rw [step, readStep.eq_def] at h
    repeat' split at h
    all_goals cases h <;> exact ⟨rfl, rfl, rfl, rfl, rfl, rfl, rfl, id⟩
  | write e =>
    rw [step, writeStep.eq_def] at h
    repeat' split at h
    all_goals cases h <;> exact ⟨rfl, rfl, rfl, rfl, rfl, rfl, rfl, id⟩
  | sender i e =>
    obtain ⟨s, _, h⟩ := Option.bind_eq_some_iff.mp h
    split at h <;> cases h <;> exact ⟨rfl, rfl, rfl, rfl, rfl, rfl, rfl, id⟩
  | close e =>
    rw [step, closeStep.eq_def] at h
    split at h <;> cases h
    · exact ⟨rfl, rfl, rfl, rfl, rfl, rfl, rfl, fun _ ↦ rfl⟩
    all_goals exact ⟨rfl, rfl, rfl, rfl, rfl, rfl, rfl, id⟩
  | pool e =>
    obtain ⟨p, _, rfl⟩ := Option.map_eq_some_iff.mp h
    exact ⟨rfl, rfl, rfl, rfl, rfl, rfl, rfl, id⟩

theorem renewOrGiveUp_spec (c : Conn) :
    c.renewOrGiveUp.pipeWidth = c.pipeWidth ∧ c.renewOrGiveUp.closed = c.closed := by
  rw [renewOrGiveUp]
  split <;> exact ⟨rfl, rfl⟩

theorem loopStep_spec {le : LoopEvent} (h : c.loopStep le = some t) :
    t.pipeWidth = c.pipeWidth ∧ t.closed = c.closed := by
  rw [loopStep.eq_def] at h
  split at h
  case h_8 =>
    obtain ⟨_, _, rfl⟩ := Option.map_eq_some_iff.mp h
    exact ⟨rfl, rfl⟩
  all_goals repeat' split at h
  all_goals cases h <;> first | exact ⟨rfl, rfl⟩ | exact renewOrGiveUp_spec _

/-- The width of the pipeline does not change. -/
theorem pipeWidth_step (h : c.step e = some t) : t.pipeWidth = c.pipeWidth := by
  cases e with
  | loop e => exact (loopStep_spec h).1
  | read _ | write _ | sender _ _ | close _ | pool _ => exact (leavesLoop_step h nofun).pipeWidth

/-- A connection stays closed. -/
theorem closed_step (h : c.step e = some t) (hc : c.closed = true) : t.closed = true := by
  cases e with
  | loop e => exact (loopStep_spec h).2.trans hc
  | read _ | write _ | sender _ _ | close _ | pool _ => exact (leavesLoop_step h nofun).closed hc

end Frame

/-! ## Dial -/

/-- `newTunnelConn`. -/
def newTunnelConn (streaming : Bool) (pipeWidth chanDepth : ℕ) (pool : BufPool) : Conn where
  streaming := streaming
  pipeWidth := if streaming then pipeWidth else 0
  chanDepth := chanDepth
  closed := false
  seq := 0
  readBuf := []
  chan := []
  chanClosed := false
  pool := pool
  slots := 0
  pipeErr := none
  reader := .idle
  writer := .idle
  senders := []
  loop := .done
  openErrors := 0
  flaps := 0
  renewals := 0
  closer := .idle
  delivered := []
  errClosed := false
  streamed := []
  responses := []
  sends := []
  results := []
  streamDead := 0

/-- An error of the first request. -/
structure DialError where
  /-- Whether it is a `controlHTTPError`. -/
  isHTTP : Bool
  /-- Its text. -/
  text : String

/-- The first request, and how often it was sent: again after an error that is not an answer, as
long as attempts are left. -/
def probe (answer : ℕ → Except DialError Bytes) (k : ℕ) : ℕ → ℕ × Except DialError Bytes
  | 0 => (k + 1, answer k)
  | left + 1 =>
    match answer k with
    | .ok resp => (k + 1, .ok resp)
    | .error e => if e.isHTTP then (k + 1, .error e) else probe answer (k + 1) left

/-- The connection after a first request that was sent `k` times and answered with `resp`. -/
def established (streaming : Bool) (pipeWidth chanDepth : ℕ) (pool : BufPool) (k : ℕ)
    (resp : Bytes) : Conn :=
  { newTunnelConn streaming pipeWidth chanDepth pool with
    readBuf := resp
    responses := [resp]
    sends := List.replicate k ⟨.probe, 0, []⟩
    seq := 1
    loop := if streaming then .top else .done }

/-- `Dial`, where `answer i` is what the `i`-th attempt gets. -/
def dial (target : String) (streaming : Bool) (chanDepth : ℕ) (pool : BufPool)
    (answer : ℕ → Except DialError Bytes) : Except String Conn :=
  match probe answer 0 2 with
  | (k, .ok resp) =>
    .ok (established streaming (if streaming then tunnelPipelineWidth else 0) chanDepth pool k resp)
  | (_, .error e) => .error ("dial " ++ target ++ ": " ++ e.text)

/-- What `Dial` hands out is an established connection, after one to three requests. -/
theorem dial_eq_ok {target : String} {streaming : Bool} {chanDepth : ℕ} {pool : BufPool}
    {answer : ℕ → Except DialError Bytes} {c : Conn}
    (h : dial target streaming chanDepth pool answer = .ok c) :
    ∃ k resp, 1 ≤ k ∧ k ≤ 3 ∧
      c = established streaming (if streaming then tunnelPipelineWidth else 0) chanDepth pool k
        resp := by
  have hprobe : ∀ left k, k + 1 ≤ (probe answer k left).1 ∧
      (probe answer k left).1 ≤ k + left + 1 := by
    intro left
    induction left with
    | zero => intro k; simp [probe]
    | succ left ih =>
      intro k
      rw [probe]
      split
      · exact ⟨le_rfl, by omega⟩
      · split
        · exact ⟨le_rfl, by omega⟩
        · obtain ⟨h₁, h₂⟩ := ih (k + 1)
          exact ⟨by omega, by omega⟩
  obtain ⟨h₁, h₂⟩ := hprobe 2 0
  rw [dial] at h
  split at h
  · rename_i k resp he
    rw [he] at h₁ h₂
    exact ⟨k, resp, h₁, h₂, (Except.ok.inj h).symm⟩
  · exact absurd h (by simp)

/-- The plaintext that the `send` of `Dial` builds for a request. -/
def sendPlain (connID : String) (target : Bytes) (r : Request) : Bytes :=
  buildUploadPlain connID (UInt32.ofNat r.seq) (if r.seq = 0 then target else []) r.payload

end Conn

end TunnelCat.Session
