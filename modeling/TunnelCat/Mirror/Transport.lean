import TunnelCat.Lib.Duplex
import TunnelCat.Lib.Format
import TunnelCat.Lib.Pending
import TunnelCat.Mirror.Manager
import TunnelCat.Wire.Decoders

/-!
# The transport of chunks

Two mirrors that have punched a hole to each other exchange chunks over a connected UDP socket.  A
`MirrorConn` is a client and a server at once.  `RequestChunk` draws an id that no other request in
progress has, registers a channel with room for one response, writes its frame up to three times and
waits in between.  The read loop gives every request that comes in to a goroutine, which asks
`getChunk` — if there is one — and writes what it says or that there is no such chunk; every
response goes to the channel that is registered for its id, if there is one and it has room.

The first part of this file is the codec.  `Frame.parse` is what the read loop makes of a datagram,
and `Frame.parse_eq_some_iff` says exactly which datagrams it accepts: those that begin with the
encoding of a frame.  So a frame that was cut off at the length of the receive buffer is not read at
all, and never read as another one (`Frame.parse_take`).

The second part is the connection, as a program of the library `Duplex`: all callers of
`RequestChunk`, the read loop and the goroutines that serve take steps in any order, and time is in
the events.  A datagram of more than 65507 bytes cannot be written.
-/

set_option autoImplicit false

open Bytes

namespace TunnelCat.Mirror

/-! ## The codec -/

/-- `mirrorMagic`. -/
def mirrorMagic : UInt32 := 0x534E434D

/-- `mirrorTypeChunkReq`. -/
def mirrorTypeChunkReq : UInt8 := 0x01

/-- `mirrorTypeChunkResp`. -/
def mirrorTypeChunkResp : UInt8 := 0x02

/-- `mirrorTypeChunkMiss`. -/
def mirrorTypeChunkMiss : UInt8 := 0x03

/-- `mirrorRetries`. -/
def mirrorRetries : ℕ := 3

/-- `mirrorMaxFrame`. -/
def mirrorMaxFrame : ℕ := 32 * 1024

/-- `mirrorIdleTimeout`, in nanoseconds. -/
def mirrorIdleTimeout : ℤ := 5 * 60 * 1000000000

/-- What every frame begins with. -/
def mirrorHead (reqID : UInt32) (typ : UInt8) : Bytes :=
  putUint32 mirrorMagic ++ putUint32 reqID ++ [typ]

/-- `mirrorEncodeRequest`. -/
def mirrorEncodeRequest (reqID : UInt32) (hash : Bytes) : Bytes :=
  mirrorHead reqID mirrorTypeChunkReq ++ hash

/-- `mirrorDecodeRequest`. -/
def mirrorDecodeRequest (data : Bytes) : Option Bytes :=
  if data.length < 4 + 4 + 1 + 32 then none else some ((data.drop 9).take 32)

/-- `mirrorEncodeFound`. -/
def mirrorEncodeFound (reqID : UInt32) (data : Bytes) : Bytes :=
  mirrorHead reqID mirrorTypeChunkResp ++ (putUint32 (UInt32.ofNat data.length) ++ data)

/-- `mirrorDecodeFound`, where `int` has 64 bits. -/
def mirrorDecodeFound (data : Bytes) : Option Bytes :=
  if data.length < 4 + 4 + 1 + 4 then none
  else
    let n := (uint32 (data.drop 9)).toNat
    if data.length < 13 + n then none else some ((data.drop 13).take n)

/-- `mirrorEncodeMiss`. -/
def mirrorEncodeMiss (reqID : UInt32) : Bytes := mirrorHead reqID mirrorTypeChunkMiss

/-- On 64 bits the decoder does not panic, and it is this one. -/
theorem mirrorDecodeFound_w64 {data : Bytes} (hlen : data.length < 2 ^ 31) :
    Wire.mirrorDecodeFound .w64 data = .ok (mirrorDecodeFound data) := by
  rw [Wire.mirrorDecodeFound, mirrorDecodeFound]
  by_cases hshort : data.length < 4 + 4 + 1 + 4
  · rw [if_pos hshort, if_pos hshort]
  · have hwide : GoInt.ofUint32 .w64 (uint32 (data.drop 9)) = (uint32 (data.drop 9)).toNat := by
      rw [GoInt.ofUint32_eq, if_pos (.inl rfl)]
    have hread : Wire.uint32At data 9 = .ok (uint32 (data.drop 9)) :=
      Wire.uint32At_eq (o := 9) (by omega)
    have hbody := Wire.bodyAt_eq (w := .w64) hlen (o := 13) (by omega) (uint32 (data.drop 9))
    rw [if_neg hshort, if_neg hshort, hread, Outcome.ok_bind, if_neg (by rw [hwide]; omega)]
    exact hbody.trans (if_pos (.inl rfl))

/-- A frame. -/
inductive Frame where
  /-- A chunk is asked for. -/
  | request (reqID : UInt32) (hash : Bytes)
  /-- The chunk. -/
  | found (reqID : UInt32) (data : Bytes)
  /-- There is no such chunk. -/
  | miss (reqID : UInt32)
  deriving DecidableEq

namespace Frame

/-- The bytes of a frame. -/
def encode : Frame → Bytes
  | request reqID hash => mirrorEncodeRequest reqID hash
  | found reqID data => mirrorEncodeFound reqID data
  | miss reqID => mirrorEncodeMiss reqID

/-- The frames that their fields have room for. -/
def Valid : Frame → Prop
  | request _ hash => hash.length = 32
  | found _ data => data.length < 2 ^ 32
  | miss _ => True

/-- What `readLoop` makes of a datagram. -/
def parse (data : Bytes) : Option Frame :=
  if data.length < 9 ∨ uint32 data ≠ mirrorMagic then none
  else
    let reqID := uint32 (data.drop 4)
    let typ := data.getD 8 0
    if typ = mirrorTypeChunkReq then (mirrorDecodeRequest data).map (request reqID)
    else if typ = mirrorTypeChunkResp then (mirrorDecodeFound data).map (found reqID)
    else if typ = mirrorTypeChunkMiss then some (miss reqID)
    else none

end Frame

@[simp] theorem length_mirrorHead (reqID : UInt32) (typ : UInt8) :
    (mirrorHead reqID typ).length = 9 := by
  simp [mirrorHead]

theorem drop_mirrorHead (reqID : UInt32) (typ : UInt8) (rest : Bytes) :
    (mirrorHead reqID typ ++ rest).drop 9 = rest :=
  List.drop_left' (length_mirrorHead ..)

/-- The fields of a header. -/
theorem mirrorHead_fields (reqID : UInt32) (typ : UInt8) (rest : Bytes) :
    uint32 (mirrorHead reqID typ ++ rest) = mirrorMagic ∧
      uint32 ((mirrorHead reqID typ ++ rest).drop 4) = reqID ∧
      (mirrorHead reqID typ ++ rest).getD 8 0 = typ := by
  refine ⟨?_, ?_, ?_⟩
  · rw [mirrorHead, List.append_assoc, List.append_assoc, uint32_putUint32]
  · rw [mirrorHead, List.append_assoc, List.append_assoc, List.drop_left' (length_putUint32 _),
      uint32_putUint32]
  · rw [mirrorHead, List.getD_eq_getElem?_getD, List.append_assoc,
      List.getElem?_append_right (by simp)]
    simp

/-- What passes the test of `readLoop` begins with a header. -/
theorem eq_mirrorHead {data : Bytes} (hlen : ¬data.length < 9)
    (hmagic : uint32 data = mirrorMagic) :
    data = mirrorHead (uint32 (data.drop 4)) (data.getD 8 0) ++ data.drop 9 := by
  have hfirst : putUint32 mirrorMagic = data.take 4 := by
    rw [← hmagic, ← putUint32_uint32 (b := data.take 4) (List.length_take_of_le (by omega)),
      uint32, uint32, List.take_take, Nat.min_self]
  have hsecond : putUint32 (uint32 (data.drop 4)) = (data.drop 4).take 4 := by
    rw [← putUint32_uint32 (b := (data.drop 4).take 4)
      (by rw [List.length_take, List.length_drop]; omega), uint32, uint32, List.take_take,
      Nat.min_self]
  have htyp : [data.getD 8 0] ++ data.drop 9 = data.drop 8 := by
    rw [List.getD_eq_getElem?_getD, List.getElem?_eq_getElem (by omega), Option.getD_some,
      List.singleton_append, List.getElem_cons_drop]
  rw [mirrorHead, hfirst, hsecond, List.append_assoc, List.append_assoc, htyp,
    show data.drop 8 = (data.drop 4).drop 4 by rw [List.drop_drop], List.take_append_drop,
    List.take_append_drop]

namespace Frame

/-- A datagram with a header, by the type the header has. -/
theorem parse_mirrorHead (reqID : UInt32) (typ : UInt8) (rest : Bytes) :
    parse (mirrorHead reqID typ ++ rest) =
      if typ = mirrorTypeChunkReq then
        ((Format.bytes 32).decode rest).map fun p ↦ request reqID p.1
      else if typ = mirrorTypeChunkResp then
        ((Format.prefixed 4).decode rest).map fun p ↦ found reqID p.1
      else if typ = mirrorTypeChunkMiss then some (miss reqID)
      else none := by
  obtain ⟨hmagic, hid, htyp⟩ := mirrorHead_fields reqID typ rest
  have hlen : (mirrorHead reqID typ ++ rest).length = 9 + rest.length := by simp
  have hreq : mirrorDecodeRequest (mirrorHead reqID typ ++ rest) =
      ((Format.bytes 32).decode rest).map Prod.fst := by
    rw [mirrorDecodeRequest, hlen, drop_mirrorHead]
    dsimp only [Format.bytes]
    by_cases hshort : rest.length < 32
    · rw [if_pos (by omega), if_pos hshort, Option.map_none]
    · rw [if_neg (by omega), if_neg hshort, Option.map_some]
  have hfound : mirrorDecodeFound (mirrorHead reqID typ ++ rest) =
      ((Format.prefixed 4).decode rest).map Prod.fst := by
    rw [mirrorDecodeFound, hlen, drop_mirrorHead, Format.decode_prefixed, ← toNat_uint32,
      show (13 : ℕ) = 9 + 4 from rfl, ← List.drop_drop, drop_mirrorHead]
    dsimp only
    by_cases hshort : rest.length < 4 + (uint32 rest).toNat
    · rw [if_pos hshort, Option.map_none]
      split
      · rfl
      · rw [if_pos (by omega)]
    · rw [if_neg hshort, if_neg (by omega), if_neg (by omega), Option.map_some]
  rw [parse, if_neg (by rw [hmagic, hlen]; simp), hreq, hfound]
  dsimp only
  rw [hid, htyp, Option.map_map, Option.map_map]
  rfl

/-- **What is accepted is well formed, and what is well formed is accepted**: the read loop reads a
frame exactly if the datagram begins with its encoding. -/
theorem parse_eq_some_iff {data : Bytes} {f : Frame} :
    parse data = some f ↔ f.Valid ∧ ∃ rest, data = f.encode ++ rest := by
  refine ⟨fun h ↦ ?_, ?_⟩
  · -- the datagram is a header and a rest, and the rest is read by the format of its type
    have hhead : ¬(data.length < 9 ∨ uint32 data ≠ mirrorMagic) := fun hbad ↦ by
      rw [parse, if_pos hbad] at h
      cases h
    obtain ⟨hlen, hmagic⟩ := not_or.mp hhead
    have hsplit := eq_mirrorHead hlen (not_not.mp hmagic)
    generalize uint32 (data.drop 4) = reqID at hsplit
    generalize data.getD 8 0 = typ at hsplit
    generalize data.drop 9 = rest at hsplit
    subst hsplit
    rw [parse_mirrorHead] at h
    by_cases hreq : typ = mirrorTypeChunkReq
    · rw [if_pos hreq] at h
      obtain ⟨⟨hash, tail⟩, hread, rfl⟩ := Option.map_eq_some_iff.mp h
      obtain ⟨hvalid, rfl⟩ := (Format.bytes 32).decode_eq_some_iff.mp hread
      exact ⟨hvalid, tail, by rw [hreq, encode, mirrorEncodeRequest, List.append_assoc]; rfl⟩
    rw [if_neg hreq] at h
    by_cases hresp : typ = mirrorTypeChunkResp
    · rw [if_pos hresp] at h
      obtain ⟨⟨body, tail⟩, hread, rfl⟩ := Option.map_eq_some_iff.mp h
      obtain ⟨hvalid, rfl⟩ := (Format.prefixed 4).decode_eq_some_iff.mp hread
      have hbody : body.length < 2 ^ 32 := Format.valid_prefixed.mp hvalid
      refine ⟨hbody, tail, ?_⟩
      rw [hresp, encode, mirrorEncodeFound, putUint32, UInt32.toNat_ofNat_of_lt' hbody,
        List.append_assoc]
      rfl
    rw [if_neg hresp] at h
    by_cases hmiss : typ = mirrorTypeChunkMiss
    · rw [if_pos hmiss, Option.some_inj] at h
      exact ⟨h ▸ trivial, rest, by rw [← h, hmiss, encode, mirrorEncodeMiss]⟩
    · rw [if_neg hmiss] at h
      cases h
  · rintro ⟨hvalid, rest, rfl⟩
    cases f with
    | request reqID hash =>
      rw [encode, mirrorEncodeRequest, List.append_assoc, parse_mirrorHead, if_pos rfl]
      exact congrArg _ ((Format.bytes 32).decode_encode hvalid rest)
    | found reqID body =>
      have hbody : body.length < 2 ^ 32 := hvalid
      have hread := (Format.prefixed 4).decode_encode (Format.valid_prefixed.mpr hbody) rest
      rw [encode, mirrorEncodeFound, List.append_assoc, parse_mirrorHead, if_neg (by decide),
        if_pos rfl, putUint32, UInt32.toNat_ofNat_of_lt' hbody]
      exact congrArg _ hread
    | miss reqID =>
      rw [encode, mirrorEncodeMiss, parse_mirrorHead, if_neg (by decide), if_neg (by decide),
        if_pos rfl]

/-- A frame is read back, whatever follows it. -/
theorem parse_encode {f : Frame} (h : f.Valid) (rest : Bytes) : parse (f.encode ++ rest) = some f :=
  parse_eq_some_iff.mpr ⟨h, rest, rfl⟩

/-- The answer to a request: the chunk, or that there is none. -/
def answer (reqID : UInt32) : Option Bytes → Frame
  | some data => found reqID data
  | none => miss reqID

end Frame

/-! ## The connection -/

/-- The longest datagram that UDP over IPv4 carries. -/
def maxDatagram : ℕ := 65507

namespace MirrorConn

theorem mirrorRetries_pos : 0 < mirrorRetries := by decide

/-- The first attempt. -/
def firstAttempt : Fin mirrorRetries := ⟨0, mirrorRetries_pos⟩

/-- Where a `RequestChunk` is.  A result is the chunk, `none` if the peer does not have it, or an
error. -/
inductive TripState where
  /-- Before it writes its frame, for the first, second or third time. -/
  | writing (attempt : Fin mirrorRetries)
  /-- Waiting for the response, for the timer or for `Close`. -/
  | waiting (attempt : Fin mirrorRetries)
  /-- It returns, before its entry is deleted from `pending`. -/
  | leaving (result : Except String (Option Bytes))
  /-- It has returned. -/
  | returned (result : Except String (Option Bytes))

/-- A call of `RequestChunk` that has passed the check of its argument. -/
structure Trip where
  /-- The id it has drawn. -/
  reqID : UInt32
  /-- The hash it was called with. -/
  hash : String
  /-- `hashArr`. -/
  hashArr : Bytes
  /-- What is in its channel: a `mirrorPendingResp`, with `none` for a miss. -/
  chan : Option (Option Bytes)
  /-- Where it is. -/
  state : TripState

/-- The frame of a request. -/
def Trip.frame (t : Trip) : Bytes := mirrorEncodeRequest t.reqID t.hashArr

/-- Where a goroutine of `serveChunkRequest` is. -/
inductive ServiceState where
  /-- In `getChunk`. -/
  | asking
  /-- Before the answer is written. -/
  | writing (answer : Option Bytes)
  /-- It has ended. -/
  | done (answer : Option Bytes)
  deriving DecidableEq

/-- A goroutine of `serveChunkRequest`. -/
structure Service where
  /-- The id of the request. -/
  reqID : UInt32
  /-- The hash that is asked for. -/
  hash : Bytes
  /-- Where it is. -/
  state : ServiceState
  deriving DecidableEq

/-- Where the read loop is. -/
inductive Reader where
  /-- In `conn.Read`. -/
  | idle
  /-- It has found the channel of trip `i`, before the response is put in. -/
  | holding (i : ℕ) (resp : Option Bytes)
  /-- It has ended. -/
  | ended
  deriving DecidableEq

end MirrorConn

open MirrorConn in
/-- `MirrorConn`. -/
structure MirrorConn where
  /-- Whether `getChunk` is set. -/
  getChunk : Bool
  /-- `pending`: which call of `RequestChunk` has the channel for an id. -/
  pending : UInt32 → Option ℕ
  /-- The calls of `RequestChunk`. -/
  trips : List Trip
  /-- The read loop. -/
  reader : Reader
  /-- The goroutines of `serveChunkRequest`. -/
  serves : List Service
  /-- `lastActivity`. -/
  lastActivity : ℤ
  /-- Whether `stopCh` is closed. -/
  stopped : Bool
  /-- Record: the datagrams written. -/
  out : List Bytes
  /-- Record: the datagrams read. -/
  received : List Bytes

namespace MirrorConn

/-- `NewMirrorConn`. -/
def new (getChunk : Bool) (now : ℤ) : MirrorConn where
  getChunk := getChunk
  pending _ := none
  trips := []
  reader := .idle
  serves := []
  lastActivity := now
  stopped := false
  out := []
  received := []

/-- Trip `i` goes on as `t`. -/
def putTrip (c : MirrorConn) (i : ℕ) (t : Trip) : MirrorConn := { c with trips := c.trips.set i t }

/-- Goroutine `j` goes on as `s`. -/
def putService (c : MirrorConn) (j : ℕ) (s : Service) : MirrorConn :=
  { c with serves := c.serves.set j s }

/-- The check `RequestChunk` begins with. -/
def parseHash (E : Env) (hash : String) : Except String Bytes :=
  match hexDecode hash with
  | some hashBytes =>
    if hashBytes.length ≠ 32 then .error ("mirror-transport: bad hash " ++ E.quote hash)
    else .ok hashBytes
  | none => .error ("mirror-transport: bad hash " ++ E.quote hash)

/-- `RequestChunk` up to the release of `mu`, with the id it has drawn.  A call whose argument is no
hash returns its error at once. -/
def requestChunk (E : Env) (c : MirrorConn) (reqID : UInt32) (hash : String) : Option MirrorConn :=
  match parseHash E hash with
  | .error _ => some c
  | .ok hashArr =>
    if c.pending reqID = none then
      some { c with
        pending := Function.update c.pending reqID (some c.trips.length)
        trips := c.trips ++ [⟨reqID, hash, hashArr, none, .writing firstAttempt⟩] }
    else none

/-- What a `RequestChunk` does next. -/
inductive TripEvent where
  /-- `conn.Write` returns. -/
  | write (err : Option String)
  /-- Take the response out of the channel. -/
  | receive
  /-- The timer goes off. -/
  | timeout
  /-- Notice that the connection is closed. -/
  | stop
  /-- Delete the entry and return. -/
  | leave

/-- Where a trip goes on after its timer went off: it writes again, or its attempts are used up. -/
def timedOut (t : Trip) (attempt : Fin mirrorRetries) : TripState :=
  if h : attempt.val + 1 < mirrorRetries then .writing ⟨attempt.val + 1, h⟩
  else .leaving (.error ("mirror-transport: 3 retries exhausted for hash=" ++
    String.ofList (t.hash.toList.take 12) ++ "…"))

/-- `RequestChunk` from its first write on. -/
def tripStep (c : MirrorConn) (i : ℕ) (t : Trip) (e : TripEvent) : Option MirrorConn :=
  match t.state, e with
  | .writing a, .write none =>
    some (putTrip { c with out := c.out ++ [t.frame] } i { t with state := .waiting a })
  | .writing _, .write (some err) =>
    some (c.putTrip i { t with state := .leaving (.error ("mirror-transport write: " ++ err)) })
  | .waiting _, .receive =>
    t.chan.map fun resp ↦ c.putTrip i { t with chan := none, state := .leaving (.ok resp) }
  | .waiting a, .timeout => some (c.putTrip i { t with state := timedOut t a })
  | .waiting _, .stop =>
    if c.stopped then
      some (c.putTrip i { t with state := .leaving (.error "mirror-transport: closed") })
    else none
  | .leaving result, .leave =>
    some (putTrip { c with pending := Function.update c.pending t.reqID none } i
      { t with state := .returned result })
  | _, _ => none

/-- What a goroutine of `serveChunkRequest` does next. -/
inductive ServiceEvent where
  /-- `getChunk` answers. -/
  | getChunk (answer : Option Bytes)
  /-- `conn.Write` of the answer returns. -/
  | write (err : Option String)

/-- The frame a goroutine writes. -/
def Service.frame (s : Service) (answer : Option Bytes) : Bytes :=
  (Frame.answer s.reqID answer).encode

/-- `serveChunkRequest`. -/
def serveStep (c : MirrorConn) (j : ℕ) (s : Service) (e : ServiceEvent) : Option MirrorConn :=
  match s.state, e with
  | .asking, .getChunk answer => some (c.putService j { s with state := .writing answer })
  | .writing answer, .write none =>
    if (s.frame answer).length ≤ maxDatagram then
      some (putService { c with out := c.out ++ [s.frame answer] } j
        { s with state := .done answer })
    else none
  | .writing answer, .write (some _) => some (c.putService j { s with state := .done answer })
  | _, _ => none

/-- `deliver`, up to the release of `mu`. -/
def deliver (c : MirrorConn) (reqID : UInt32) (resp : Option Bytes) : MirrorConn :=
  match c.pending reqID with
  | some i => { c with reader := .holding i resp }
  | none => c

/-- A frame has been read. -/
def dispatch (c : MirrorConn) : Frame → MirrorConn
  | .request reqID hash =>
    -- without `getChunk` the goroutine has nobody to ask
    let state := if c.getChunk then ServiceState.asking else ServiceState.writing none
    { c with serves := c.serves ++ [⟨reqID, hash, state⟩] }
  | .found reqID data => c.deliver reqID (some data)
  | .miss reqID => c.deliver reqID none

/-- The read loop reads a datagram. -/
def read (c : MirrorConn) (now : ℤ) (frame : Bytes) : Option MirrorConn :=
  if c.reader ≠ .idle then none
  else if c.stopped then some { c with reader := .ended }
  else
    let c := { c with lastActivity := now, received := c.received ++ [frame] }
    some (((Frame.parse (frame.take mirrorMaxFrame)).map c.dispatch).getD c)

/-- What the read loop does next. -/
inductive ReaderEvent where
  /-- Put the response into the channel, if there is room. -/
  | offer
  /-- `conn.Read` fails: its deadline has passed, or the connection is closed. -/
  | fail (now : ℤ)

/-- The read loop, when it reads no datagram. -/
def readerStep (c : MirrorConn) (e : ReaderEvent) : Option MirrorConn :=
  match c.reader, e with
  | .holding i resp, .offer =>
    c.trips[i]?.map fun t ↦
      putTrip { c with reader := .idle } i { t with chan := t.chan <|> some resp }
  | .idle, .fail now =>
    if c.stopped then some { c with reader := .ended }
    else if now - c.lastActivity > mirrorIdleTimeout then
      some { c with stopped := true, reader := .ended }
    else some c
  | _, _ => none

/-- Who does what. -/
inductive Event where
  /-- `RequestChunk` is called. -/
  | requestChunk (reqID : UInt32) (hash : String)
  /-- A `RequestChunk` goes on. -/
  | trip (i : ℕ) (e : TripEvent)
  /-- A goroutine of `serveChunkRequest` goes on. -/
  | serve (j : ℕ) (e : ServiceEvent)
  /-- The read loop goes on. -/
  | reader (e : ReaderEvent)
  /-- `Close` is called. -/
  | close

/-- A step of the connection that reads no datagram. -/
def step (E : Env) (c : MirrorConn) : Event → Option MirrorConn
  | .requestChunk reqID hash => c.requestChunk E reqID hash
  | .trip i e => c.trips[i]?.bind fun t ↦ c.tripStep i t e
  | .serve j e => c.serves[j]?.bind fun s ↦ c.serveStep j s e
  | .reader e => c.readerStep e
  | .close => some { c with stopped := true }

end MirrorConn

end TunnelCat.Mirror
