import Mathlib.Logic.Function.Basic
import TunnelCat.Assoc.Header
import TunnelCat.Lib.Trace

/-!
# A UDP ASSOCIATE session

A `udpAssocSession` relays the datagrams of one SOCKS5 client over one socket.  Its goroutines are

* `relayLoop`, which reads the socket: a datagram with a SOCKS5 header is outbound and is sent to
  its destination, directly or through the tunnel; anything else is inbound and is sent to the
  client;
* for each destination that is reached through the tunnel a `runTunnelWorker`, which takes datagrams
  from a queue and sends them one after the other;
* a `drainLoop`, which polls for datagrams from such a destination;
* a `checkFallback`, which gives up sending directly if there is no answer;
* `watchCtrl`, which ends the session.

A step is one access to a variable that another goroutine writes, or one answer of the environment;
what only one goroutine can see is taken together with the step before.  Writes to the socket never
fail visibly, since the program ignores their errors.  What the DNS cache learns from datagrams is
not part of the model.
-/

set_option autoImplicit false

open Function

namespace TunnelCat.Assoc

/-- `socks5UDPFallbackSent`. -/
def socks5UDPFallbackSent : ℕ := 3

/-- `socks5UDPFallbackTimeout`, in nanoseconds. -/
def socks5UDPFallbackTimeout : ℤ := 3000000000

/-- `tunnelCBThreshold`. -/
def tunnelCBThreshold : ℕ := 5

/-- `tunnelCBCooldown`, in nanoseconds. -/
def tunnelCBCooldown : ℤ := 5000000000

/-- `tunnelWorkerQDepth`. -/
def tunnelWorkerQDepth : ℕ := 64

/-- The length of the receive buffer. -/
def bufferSize : ℕ := 65536

/-- What destinations are known under. -/
abbrev Key : Type := Bytes × ℕ

/-- `dstStats`, without the time of the first datagram, which nothing reads. -/
structure DstStats where
  /-- `sentCount`. -/
  sentCount : ℕ
  /-- `recvCount`. -/
  recvCount : ℕ
  /-- `useTunnel`. -/
  useTunnel : Bool
  /-- `tunnelErrStreak`. -/
  tunnelErrStreak : ℕ
  /-- `tunnelBlockedUntil`, unless it is the zero time. -/
  tunnelBlockedUntil : Option ℤ
  deriving DecidableEq

/-- The zero value. -/
def DstStats.zero : DstStats := ⟨0, 0, false, 0, none⟩

/-- What a worker does to the circuit breaker. -/
def DstStats.recordSend (now : ℤ) (ok : Bool) (st : DstStats) : DstStats :=
  if ok then { st with tunnelErrStreak := 0 }
  else if tunnelCBThreshold ≤ st.tunnelErrStreak + 1 then
    { st with tunnelBlockedUntil := some (now + tunnelCBCooldown), tunnelErrStreak := 0 }
  else { st with tunnelErrStreak := st.tunnelErrStreak + 1 }

/-! ## The goroutines -/

/-- Where `relayLoop` is. -/
inductive LoopState where
  /-- Before it looks whether the session has ended. -/
  | top
  /-- In `ReadFrom`. -/
  | reading
  /-- In `forwardOutbound`, at its beginning. -/
  | forwarding (dst : Addr) (payload : Bytes)
  /-- In `forwardOutbound`, before it asks the bypass manager. -/
  | routing (dst : Addr) (payload : Bytes) (useTunnel : Bool) (cnt : ℕ)
  /-- In `goSendViaTunnel`, at its beginning. -/
  | goSending (dst : Addr) (payload : Bytes)
  /-- In `goSendViaTunnel`, before the datagram is in the queue. -/
  | queueing (dst : Addr) (payload : Bytes)
  /-- It has returned. -/
  | ended
  deriving DecidableEq

/-- Where a `runTunnelWorker` is. -/
inductive WorkerState where
  /-- Waiting for a datagram. -/
  | waiting
  /-- In `sendViaTunnel`, before `PostUDPFrame` returns. -/
  | posting (payload : Bytes)
  /-- In `deliverFrames`. -/
  | delivering (client : Addr) (frames : List Bytes)
  /-- Before `startTunnelDrain`. -/
  | starting
  /-- `sendViaTunnel` has returned. -/
  | recording (ok : Bool)
  /-- It has returned. -/
  | ended
  deriving DecidableEq

/-- A `runTunnelWorker` and its queue. -/
structure Worker where
  /-- The destination. -/
  dst : Addr
  /-- What is in the queue. -/
  queue : List Bytes
  /-- Where it is. -/
  state : WorkerState
  deriving DecidableEq

/-- Where a `drainLoop` is. -/
inductive DrainState where
  /-- Before it looks whether the session has ended. -/
  | checking
  /-- In `DrainUDPFrames`. -/
  | polling
  /-- Waiting before the next attempt. -/
  | sleeping
  /-- In `deliverFrames`. -/
  | delivering (client : Addr) (frames : List Bytes)
  /-- It has returned because the session has ended. -/
  | stopped
  /-- It has returned because the poll was cancelled. -/
  | canceled
  deriving DecidableEq

/-- A `drainLoop`. -/
structure Drain where
  /-- The destination. -/
  dst : Addr
  /-- Where it is. -/
  state : DrainState
  deriving DecidableEq

/-- Whether a `drainLoop` has not returned. -/
def Drain.running (d : Drain) : Bool :=
  match d.state with
  | .stopped | .canceled => false
  | _ => true

/-- `udpAssocSession`. -/
structure Session where
  /-- `tunnelOnly`: there is no bypass manager. -/
  tunnelOnly : Bool
  /-- `altDNSRouting`. -/
  altDNSRouting : Bool
  /-- `blockQUIC`. -/
  blockQUIC : Bool
  /-- The time. -/
  now : ℤ
  /-- `stats`. -/
  stats : Key → Option DstStats
  /-- `clientUDPAddr`. -/
  clientUDPAddr : Option Addr
  /-- `drainActive`. -/
  drainActive : Key → Bool
  /-- `tunnelWorkers`, with the goroutines that take from the queues. -/
  tunnelWorkers : Key → Option Worker
  /-- The relay loop. -/
  loop : LoopState
  /-- The drain loops. -/
  drains : List Drain
  /-- The goroutines of `checkFallback` that sleep, and until when. -/
  fallbacks : List (Key × ℤ)
  /-- Whether `stopCh` is closed. -/
  stopped : Bool
  /-- Record: what was written to the socket, and to which address. -/
  written : List (Bytes × Addr)
  /-- Record: what was passed to `sendViaTunnel`. -/
  sends : List (Addr × Bytes)
  /-- Record: the destinations for which a `runTunnelWorker` was started. -/
  hired : List Addr

namespace Session

/-- `newUDPAssocSession`. -/
def new (tunnelOnly altDNSRouting blockQUIC : Bool) (now : ℤ) : Session where
  tunnelOnly := tunnelOnly
  altDNSRouting := altDNSRouting
  blockQUIC := blockQUIC
  now := now
  stats _ := none
  clientUDPAddr := none
  drainActive _ := false
  tunnelWorkers _ := none
  loop := .top
  drains := []
  fallbacks := []
  stopped := false
  written := []
  sends := []
  hired := []

/-- A datagram is written to the socket. -/
def writeTo (s : Session) (payload : Bytes) (dst : Addr) : Session :=
  { s with written := s.written ++ [(payload, dst)] }

/-- The counters of a destination change, if it has any. -/
def modifyStats (s : Session) (k : Key) (f : DstStats → DstStats) : Session :=
  { s with stats := update s.stats k ((s.stats k).map f) }

/-! ## The relay loop -/

/-- Whether a datagram is taken for one of the client: it has a header with fragment number 0. -/
def outbound (lookup : Lookup) (data : Bytes) : Option (Addr × Bytes) :=
  match parseSOCKS5UDPHeader lookup data with
  | .ok (dst, payload, frag) => if frag = 0 then some (dst, payload) else none
  | .error _ => none

/-- `recordRecv`. -/
def recordRecv (s : Session) (src : Addr) : Session :=
  s.modifyStats src.key fun st ↦ { st with recvCount := st.recvCount + 1 }

/-- A datagram for the client: it is wrapped and sent to the client, if that is known. -/
def inbound (s : Session) (src : Addr) (data : Bytes) : Session :=
  match (s.recordRecv src).clientUDPAddr with
  | none => { s.recordRecv src with loop := .top }
  | some client =>
    { (s.recordRecv src).writeTo (buildSOCKS5UDPHeader src data) client with loop := .top }

/-- `relayLoop` has read a datagram. -/
def receive (s : Session) (src : Addr) (data : Bytes) (lookup : Lookup) : Session :=
  match outbound lookup data with
  | some (dst, payload) =>
    if s.blockQUIC ∧ dst.port = 443 then { s with loop := .top }
    else { s with clientUDPAddr := some src, loop := .forwarding dst payload }
  | none => s.inbound src data

/-- `forwardOutbound`, up to the release of `mu`. -/
def forward (s : Session) (dst : Addr) (payload : Bytes) : Session :=
  if to4 dst.ip = none then { s with loop := .top }
  else if dst.port = 53 then
    if s.altDNSRouting ∧ ¬s.tunnelOnly then { s.writeTo payload dst with loop := .top }
    else { s with loop := .goSending dst payload }
  else
    let st := (s.stats dst.key).getD .zero
    let st := if st.useTunnel then st else { st with sentCount := st.sentCount + 1 }
    { s with
      stats := update s.stats dst.key (some st)
      loop := .routing dst payload st.useTunnel st.sentCount }

/-- `forwardOutbound`, after the release of `mu`, with the answer of the bypass manager. -/
def route (s : Session) (dst : Addr) (payload : Bytes) (useTunnel : Bool) (cnt : ℕ)
    (shouldBypass : Bool) : Session :=
  let isBypassDst := isLANAddress ((to4 dst.ip).getD []) || (!s.tunnelOnly && shouldBypass)
  if useTunnel || s.tunnelOnly || !isBypassDst then { s with loop := .goSending dst payload }
  else
    { s.writeTo payload dst with
      fallbacks :=
        if cnt = socks5UDPFallbackSent then
          s.fallbacks ++ [(dst.key, s.now + socks5UDPFallbackTimeout)]
        else s.fallbacks
      loop := .top }

/-- Whether sends to a destination are suppressed. -/
def circuitOpen (s : Session) (k : Key) : Bool :=
  match (s.stats k).bind DstStats.tunnelBlockedUntil with
  | some t => s.now < t
  | none => false

/-- `goSendViaTunnel`, up to the send on the queue. -/
def findQueue (s : Session) (dst : Addr) (payload : Bytes) : Session :=
  if s.circuitOpen dst.key then { s with loop := .top }
  else
    match s.tunnelWorkers dst.key with
    | some _ => { s with loop := .queueing dst payload }
    | none =>
      { s with
        tunnelWorkers := update s.tunnelWorkers dst.key (some ⟨dst, [], .waiting⟩)
        hired := s.hired ++ [dst]
        loop := .queueing dst payload }

/-- The worker of a destination goes on as `w`. -/
def putWorker (s : Session) (k : Key) (w : Worker) : Session :=
  { s with tunnelWorkers := update s.tunnelWorkers k (some w) }

/-- The end of `goSendViaTunnel`. -/
def enqueue (s : Session) (dst : Addr) (payload : Bytes) : Option Session :=
  (s.tunnelWorkers dst.key).bind fun w ↦
    if w.queue.length < tunnelWorkerQDepth then
      some { s.putWorker dst.key { w with queue := w.queue ++ [payload] } with loop := .top }
    else none

/-- What `relayLoop` does next. -/
inductive LoopEvent where
  /-- Look whether the session has ended. -/
  | again
  /-- `ReadFrom` times out. -/
  | timeout
  /-- `ReadFrom` fails otherwise. -/
  | fail
  /-- `ReadFrom` returns a datagram; `lookup` answers for the host it may name. -/
  | datagram (src : Addr) (data : Bytes) (lookup : Lookup)
  /-- Begin with `forwardOutbound`. -/
  | forward
  /-- The bypass manager answers. -/
  | route (shouldBypass : Bool)
  /-- Look whether the circuit is open, and find the queue. -/
  | findQueue
  /-- Put the datagram into the queue. -/
  | enqueue
  /-- Notice that the session has ended. -/
  | abandon

/-- `relayLoop`. -/
def loopStep (s : Session) (e : LoopEvent) : Option Session :=
  match s.loop, e with
  | .top, .again => some { s with loop := if s.stopped then .ended else .reading }
  | .reading, .timeout => some { s with loop := .top }
  | .reading, .fail => some { s with loop := .ended }
  | .reading, .datagram src data lookup => some (s.receive src (data.take bufferSize) lookup)
  | .forwarding dst payload, .forward => some (s.forward dst payload)
  | .routing dst payload useTunnel cnt, .route shouldBypass =>
    some (s.route dst payload useTunnel cnt shouldBypass)
  | .goSending dst payload, .findQueue => some (s.findQueue dst payload)
  | .queueing dst payload, .enqueue => s.enqueue dst payload
  | .queueing _ _, .abandon => if s.stopped then some { s with loop := .top } else none
  | _, _ => none

/-! ## Sending through the tunnel -/

/-- What `deliverFrames` has to do: nothing if there is no frame or no client. -/
def deliveries (s : Session) (frames : List Bytes) : Option (Addr × List Bytes) :=
  match s.clientUDPAddr, frames with
  | some client, _ :: _ => some (client, frames)
  | _, _ => none

/-- One round of the loop of `deliverFrames`. -/
def deliverFrame (s : Session) (src client : Addr) (frames : List Bytes) : Session × List Bytes :=
  if s.stopped then (s, [])
  else
    match frames with
    | [] => (s, [])
    | frame :: rest => (s.writeTo (buildSOCKS5UDPHeader src frame) client, rest)

/-- `startTunnelDrain`. -/
def startTunnelDrain (s : Session) (dst : Addr) : Session :=
  if s.drainActive dst.key then s
  else
    { s with
      drainActive := update s.drainActive dst.key true
      drains := s.drains ++ [⟨dst, .checking⟩] }

/-- What a worker does next. -/
inductive WorkerEvent where
  /-- Take a datagram from the queue. -/
  | take
  /-- Notice that the session has ended. -/
  | stop
  /-- `PostUDPFrame` returns frames or an error, or there is no dialer. -/
  | posted (frames : Option (List Bytes))
  /-- One round of `deliverFrames`. -/
  | deliver
  /-- `startTunnelDrain`. -/
  | start
  /-- Update the circuit breaker. -/
  | record

/-- `runTunnelWorker` and `sendViaTunnel`. -/
def workerStep (s : Session) (k : Key) (w : Worker) (e : WorkerEvent) : Option Session :=
  match w.state, e with
  | .waiting, .take =>
    match w.queue with
    | [] => none
    | payload :: rest =>
      some { s.putWorker k { w with queue := rest, state := .posting payload } with
        sends := s.sends ++ [(w.dst, payload)] }
  | .waiting, .stop => if s.stopped then some (s.putWorker k { w with state := .ended }) else none
  | .posting _, .posted none => some (s.putWorker k { w with state := .recording false })
  | .posting _, .posted (some frames) =>
    match s.deliveries frames with
    | some (client, frames) => some (s.putWorker k { w with state := .delivering client frames })
    | none => some (s.putWorker k { w with state := .starting })
  | .delivering client frames, .deliver =>
    let r := s.deliverFrame w.dst client frames
    some (r.1.putWorker k { w with
      state := if r.2 = [] then .starting else .delivering client r.2 })
  | .starting, .start =>
    some ((s.startTunnelDrain w.dst).putWorker k { w with state := .recording true })
  | .recording ok, .record =>
    some ((s.modifyStats w.dst.key (DstStats.recordSend s.now ok)).putWorker k
      { w with state := .waiting })
  | _, _ => none

/-! ## Draining -/

/-- An error of `DrainUDPFrames`. -/
inductive DrainError where
  /-- It wraps `context.Canceled`. -/
  | canceled
  /-- Any other. -/
  | other
  deriving DecidableEq

/-- What a drain loop does next. -/
inductive DrainEvent where
  /-- Look whether the session has ended, and whether there is a dialer. -/
  | pick (found : Bool)
  /-- `DrainUDPFrames` returns. -/
  | polled (result : Except DrainError (List Bytes))
  /-- One round of `deliverFrames`. -/
  | deliver
  /-- The timer goes off. -/
  | wake
  /-- Notice that the session has ended. -/
  | stop

/-- The `i`-th drain loop goes on as `d`. -/
def putDrain (s : Session) (i : ℕ) (d : Drain) : Session := { s with drains := s.drains.set i d }

/-- `drainLoop`. -/
def drainStep (s : Session) (i : ℕ) (d : Drain) (e : DrainEvent) : Option Session :=
  match d.state, e with
  | .checking, .pick found =>
    some (s.putDrain i { d with
      state := if s.stopped then .stopped else if found then .polling else .sleeping })
  | .polling, .polled (.error .canceled) => some (s.putDrain i { d with state := .canceled })
  | .polling, .polled (.error .other) => some (s.putDrain i { d with state := .sleeping })
  | .polling, .polled (.ok frames) =>
    match s.deliveries frames with
    | some (client, frames) => some (s.putDrain i { d with state := .delivering client frames })
    | none => some (s.putDrain i { d with state := .checking })
  | .delivering client frames, .deliver =>
    let r := s.deliverFrame d.dst client frames
    some (r.1.putDrain i { d with
      state := if r.2 = [] then .checking else .delivering client r.2 })
  | .sleeping, .wake => some (s.putDrain i { d with state := .checking })
  | .sleeping, .stop => if s.stopped then some (s.putDrain i { d with state := .stopped }) else none
  | _, _ => none

/-! ## All of it together -/

/-- `checkFallback`, after its sleep. -/
def checkFallback (s : Session) (k : Key) : Session :=
  s.modifyStats k fun st ↦
    if st.useTunnel ∨ 0 < st.recvCount then st else { st with useTunnel := true }

/-- Who does what. -/
inductive Event where
  /-- The relay loop goes on. -/
  | relay (e : LoopEvent)
  /-- A worker goes on. -/
  | worker (k : Key) (e : WorkerEvent)
  /-- A drain loop goes on. -/
  | drain (i : ℕ) (e : DrainEvent)
  /-- A `checkFallback` goes on after its sleep. -/
  | fallback (i : ℕ)
  /-- Time passes. -/
  | tick (d : ℕ)
  /-- The control connection closes. -/
  | stop

/-- One step. -/
def step (s : Session) : Event → Option Session
  | .relay e => s.loopStep e
  | .worker k e => (s.tunnelWorkers k).bind fun w ↦ s.workerStep k w e
  | .drain i e => s.drains[i]?.bind fun d ↦ s.drainStep i d e
  | .fallback i => s.fallbacks[i]?.bind fun f ↦
      if f.2 ≤ s.now then some { s.checkFallback f.1 with fallbacks := s.fallbacks.eraseIdx i }
      else none
  | .tick d => some { s with now := s.now + d }
  | .stop => some { s with stopped := true }

end Session

end TunnelCat.Assoc
