import TunnelCat.Lib.Format
import TunnelCat.Relay.Conn

/-!
# The codec of the relay

Behind the nine bytes of a header a request has three fields of variable length — the path, the
token and the body — and a response has a status and a body.  The decoders go through the fields one
after the other, with an offset that is compared with the length of the data before each cut; the
first of them also compares once at the beginning, with the length of a frame whose fields are all
empty.

From the tenth byte on the two frames are formats of the library, `requestFormat` and
`responseFormat`, and the decoders are their readers with the rest of the data ignored
(`udpDecodeRequest_eq_decode`, `udpDecodeResponse_eq_decode`); the comparison at the beginning is
one that the others imply.  So both directions come from the law of a format.

`relayCodec_exact` puts them together with the header: a frame of each of the four kinds reaches the
branch of the read loop that is for its kind, with its own id, even if it was longer than the
receive buffer.
-/

set_option autoImplicit false

open Bytes

namespace TunnelCat.Relay

/-! ## The formats -/

/-- What follows the header of a request: path, token and body. -/
def requestFormat : Format (Bytes × Bytes × Bytes) :=
  .seq (.prefixed 2) (.seq (.prefixed 2) (.prefixed 4))

/-- What follows the header of a response: status and body. -/
def responseFormat : Format (ℕ × Bytes) :=
  .seq (.number 2) (.prefixed 4)

theorem valid_requestFormat {path token body : Bytes} :
    requestFormat.Valid (path, token, body) ↔
      path.length < 2 ^ 16 ∧ token.length < 2 ^ 16 ∧ body.length < 2 ^ 32 :=
  and_congr Format.valid_prefixed (and_congr Format.valid_prefixed Format.valid_prefixed)

theorem valid_responseFormat {status : ℕ} {body : Bytes} :
    responseFormat.Valid (status, body) ↔ status < 2 ^ 16 ∧ body.length < 2 ^ 32 :=
  and_congr Iff.rfl Format.valid_prefixed

theorem putUint16_ofNat {n : ℕ} (h : n < 2 ^ 16) : putUint16 (UInt16.ofNat n) = beEncode 2 n := by
  rw [putUint16, UInt16.toNat_ofNat_of_lt' h]

theorem putUint32_ofNat {n : ℕ} (h : n < 2 ^ 32) : putUint32 (UInt32.ofNat n) = beEncode 4 n := by
  rw [putUint32, UInt32.toNat_ofNat_of_lt' h]

/-- The encoder of requests writes the format, if no length is cut off by its field. -/
theorem udpEncodeRequest_eq_encode (reqID : UInt32) {path token body : Bytes}
    (h : requestFormat.Valid (path, token, body)) :
    udpEncodeRequest reqID path token body =
      frameHead reqID udpRelayTypeRequest ++ requestFormat.encode (path, token, body) := by
  obtain ⟨hpath, htoken, hbody⟩ := valid_requestFormat.mp h
  have hfields : requestFormat.encode (path, token, body) =
      beEncode 2 path.length ++ path ++ (beEncode 2 token.length ++ token ++
        (beEncode 4 body.length ++ body)) := rfl
  rw [udpEncodeRequest, putUint16_ofNat hpath, putUint16_ofNat htoken, putUint32_ofNat hbody,
    hfields]
  simp only [List.append_assoc]

/-- The encoder of responses writes the format. -/
theorem udpEncodeResponse_eq_encode (reqID : UInt32) (resp : Resp)
    (h : responseFormat.Valid (resp.status, resp.body)) :
    udpEncodeResponse reqID resp =
      frameHead reqID udpRelayTypeResponse ++ responseFormat.encode (resp.status, resp.body) := by
  obtain ⟨hstatus, hbody⟩ := valid_responseFormat.mp h
  rw [udpEncodeResponse, putUint16_ofNat hstatus, putUint32_ofNat hbody, List.append_assoc]
  rfl

/-! ## The decoders are the readers -/

/-- **The decoder of requests is the reader of the format**, with what follows ignored. -/
theorem udpDecodeRequest_eq_decode (data : Bytes) :
    udpDecodeRequest data = (requestFormat.decode (data.drop 9)).map Prod.fst := by
  dsimp only [udpDecodeRequest, requestFormat, Format.seq]
  rw [Format.decode_prefixed, ← toNat_uint16, List.length_drop, List.drop_drop, List.drop_drop]
  set p := (uint16 (data.drop 9)).toNat
  by_cases hpath : data.length < 9 + (2 + p)
  · -- the reader stops at the path; the decoder stops there, or before, at the first comparison
    rw [if_pos (by omega : data.length - 9 < 2 + p), Option.bind_none, Option.map_none]
    split
    · rfl
    · rw [if_pos (by omega)]
  rw [if_neg (by omega : ¬data.length - 9 < 2 + p), Option.bind_some, Format.decode_prefixed,
    ← toNat_uint16, List.length_drop, List.drop_drop, List.drop_drop]
  rw [show 9 + (2 + p) = 11 + p by omega] at hpath ⊢
  set t := (uint16 (data.drop (11 + p))).toNat
  by_cases htoken : data.length < 11 + p + (2 + t)
  · rw [if_pos (by omega : data.length - (11 + p) < 2 + t), Option.bind_none, Option.map_none,
      Option.map_none]
    split
    · rfl
    · split
      · rfl
      · rw [if_pos (by omega)]
  rw [if_neg (by omega : ¬data.length - (11 + p) < 2 + t), Option.bind_some,
    Format.decode_prefixed, ← toNat_uint32, List.length_drop, List.drop_drop, List.drop_drop]
  rw [show 11 + p + (2 + t) = 11 + p + 2 + t by omega] at htoken ⊢
  set b := (uint32 (data.drop (11 + p + 2 + t))).toNat
  by_cases hbody : data.length < 11 + p + 2 + t + (4 + b)
  · rw [if_pos (by omega : data.length - (11 + p + 2 + t) < 4 + b), Option.map_none,
      Option.map_none, Option.map_none]
    split
    · rfl
    · split
      · rfl
      · split
        · rfl
        · rw [if_pos (by omega)]
  · rw [if_neg (by omega : ¬data.length - (11 + p + 2 + t) < 4 + b), if_neg (by omega),
      if_neg (by omega), if_neg (by omega), if_neg (by omega)]
    rfl

/-- **The decoder of responses is the reader of the format**, with what follows ignored. -/
theorem udpDecodeResponse_eq_decode (data : Bytes) :
    udpDecodeResponse data =
      (responseFormat.decode (data.drop 9)).map fun r ↦ ⟨r.1.1, r.1.2⟩ := by
  dsimp only [udpDecodeResponse, responseFormat, Format.seq, Format.number]
  rw [List.length_drop, List.drop_drop, ← toNat_uint16]
  by_cases hstatus : data.length < 11
  · rw [if_pos (by omega), if_pos (by omega : data.length - 9 < 2)]
    rfl
  rw [if_neg (by omega : ¬data.length - 9 < 2), Option.bind_some, Format.decode_prefixed,
    ← toNat_uint32, List.length_drop, List.drop_drop, List.drop_drop]
  set b := (uint32 (data.drop 11)).toNat
  by_cases hbody : data.length < 11 + (4 + b)
  · rw [if_pos (by omega : data.length - (9 + 2) < 4 + b)]
    split
    · rfl
    · rw [if_pos (by omega)]
      rfl
  · rw [if_neg (by omega : ¬data.length - (9 + 2) < 4 + b), if_neg (by omega), if_neg (by omega)]
    rfl

/-! ## The four kinds of frames -/

/-- A frame as one of the goroutines of a connection writes it. -/
inductive Frame where
  /-- A request of `RoundTrip`. -/
  | request (reqID : UInt32) (path token body : Bytes)
  /-- A response of `serveRequest`. -/
  | response (reqID : UInt32) (resp : Resp)
  /-- A keepalive. -/
  | keepalive (reqID : UInt32)
  /-- The answer to one. -/
  | pong (reqID : UInt32)

namespace Frame

/-- The bytes of a frame. -/
def encode : Frame → Bytes
  | request reqID path token body => udpEncodeRequest reqID path token body
  | response reqID resp => udpEncodeResponse reqID resp
  | keepalive reqID => udpEncodeKeepalive reqID udpRelayTypeKeepalive
  | pong reqID => udpEncodeKeepalive reqID udpRelayTypePong

/-- The id of a frame. -/
def reqID : Frame → UInt32
  | request reqID _ _ _ | response reqID _ | keepalive reqID | pong reqID => reqID

/-- The type of a frame. -/
def typ : Frame → UInt8
  | request _ _ _ _ => udpRelayTypeRequest
  | response _ _ => udpRelayTypeResponse
  | keepalive _ => udpRelayTypeKeepalive
  | pong _ => udpRelayTypePong

/-- Every frame begins with its header. -/
theorem exists_encode_eq (f : Frame) : ∃ rest, f.encode = frameHead f.reqID f.typ ++ rest := by
  cases f with
  | request reqID path token body => exact ⟨_, rfl⟩
  | response reqID resp => exact ⟨_, rfl⟩
  | keepalive reqID => exact ⟨[], (List.append_nil _).symm⟩
  | pong reqID => exact ⟨[], (List.append_nil _).symm⟩

end Frame

/-- The read loop dispatches on the header of a frame, also if it does not fit the buffer. -/
theorem Conn.read_encode {c : Conn} (hidle : c.reader = .idle) (hstopped : c.stopped = false)
    (k : ℕ) (f : Frame) :
    c.read k f.encode =
      some (Conn.dispatch
        { c with received := c.received ++ [(k, f.encode.take udpRelayMaxFrame)] } k
        (f.encode.take udpRelayMaxFrame) f.reqID f.typ) := by
  obtain ⟨rest, hrest⟩ := f.exists_encode_eq
  have hhead : header (f.encode.take udpRelayMaxFrame) = some (f.reqID, f.typ) := by
    rw [hrest]
    exact header_take ..
  rw [Conn.read, if_neg (not_not.mpr hidle), if_neg (by rw [hstopped]; decide)]
  dsimp only
  rw [hhead]

/-! ## The result -/

/-- **The codec of the relay is exact.**  A request and a response are read back; a frame is
dispatched to its own type with its own id; and what a decoder accepts is, from the tenth byte on,
the encoding of what it returns, with bytes behind it that are ignored. -/
theorem relayCodec_exact :
    (∀ (reqID : UInt32) (path token body : Bytes), path.length ≤ 65535 → token.length ≤ 65535 →
      body.length < 2 ^ 32 →
      udpDecodeRequest (udpEncodeRequest reqID path token body) = some (path, token, body)) ∧
    (∀ (reqID : UInt32) (resp : Resp), resp.status ≤ 65535 → resp.body.length < 2 ^ 32 →
      udpDecodeResponse (udpEncodeResponse reqID resp) = some resp) ∧
    (∀ f : Frame, header f.encode = some (f.reqID, f.typ) ∧
      ∀ (c : Conn) (k : ℕ), c.reader = .idle → c.stopped = false →
        c.read k f.encode = some (Conn.dispatch
          { c with received := c.received ++ [(k, f.encode.take udpRelayMaxFrame)] } k
          (f.encode.take udpRelayMaxFrame) f.reqID f.typ)) ∧
    (∀ data path token body : Bytes, udpDecodeRequest data = some (path, token, body) →
      path.length ≤ 65535 ∧ token.length ≤ 65535 ∧ body.length < 2 ^ 32 ∧
        ∃ trailing, ∀ reqID,
          data.drop 9 = (udpEncodeRequest reqID path token body).drop 9 ++ trailing) ∧
    (∀ (data : Bytes) (resp : Resp), udpDecodeResponse data = some resp →
      resp.status ≤ 65535 ∧ resp.body.length < 2 ^ 32 ∧
        ∃ trailing, ∀ reqID,
          data.drop 9 = (udpEncodeResponse reqID resp).drop 9 ++ trailing) := by
  refine ⟨?_, ?_, ?_, ?_, ?_⟩
  · intro reqID path token body hpath htoken hbody
    have hvalid : requestFormat.Valid (path, token, body) :=
      valid_requestFormat.mpr ⟨by omega, by omega, hbody⟩
    have hread := requestFormat.decode_encode hvalid []
    rw [List.append_nil] at hread
    rw [udpDecodeRequest_eq_decode, udpEncodeRequest_eq_encode reqID hvalid,
      List.drop_left' (length_frameHead ..), hread, Option.map_some]
  · intro reqID resp hstatus hbody
    have hvalid : responseFormat.Valid (resp.status, resp.body) :=
      valid_responseFormat.mpr ⟨by omega, hbody⟩
    have hread := responseFormat.decode_encode hvalid []
    rw [List.append_nil] at hread
    rw [udpDecodeResponse_eq_decode, udpEncodeResponse_eq_encode reqID resp hvalid,
      List.drop_left' (length_frameHead ..), hread, Option.map_some]
  · intro f
    refine ⟨?_, fun c k hidle hstopped ↦ Conn.read_encode hidle hstopped k f⟩
    obtain ⟨rest, hrest⟩ := f.exists_encode_eq
    rw [hrest]
    exact header_frameHead ..
  · intro data path token body h
    rw [udpDecodeRequest_eq_decode, Option.map_eq_some_iff] at h
    obtain ⟨⟨_, trailing⟩, hread, rfl⟩ := h
    obtain ⟨hvalid, hsplit⟩ := requestFormat.decode_eq_some_iff.mp hread
    obtain ⟨hpath, htoken, hbody⟩ := valid_requestFormat.mp hvalid
    refine ⟨by omega, by omega, hbody, trailing, fun reqID ↦ ?_⟩
    rw [udpEncodeRequest_eq_encode reqID hvalid, List.drop_left' (length_frameHead ..), hsplit]
  · intro data resp h
    rw [udpDecodeResponse_eq_decode, Option.map_eq_some_iff] at h
    obtain ⟨⟨⟨status, body⟩, trailing⟩, hread, rfl⟩ := h
    obtain ⟨hvalid, hsplit⟩ := responseFormat.decode_eq_some_iff.mp hread
    obtain ⟨hstatus, hbody⟩ := valid_responseFormat.mp hvalid
    refine ⟨by dsimp only; omega, hbody, trailing, fun reqID ↦ ?_⟩
    rw [udpEncodeResponse_eq_encode reqID ⟨status, body⟩ hvalid,
      List.drop_left' (length_frameHead ..), hsplit]

/-- A request with an empty token and a body of two bytes. -/
theorem relayCodec_exact_request :
    udpDecodeRequest (udpEncodeRequest 7 [47] [] [1, 2]) = some ([47], [], [1, 2]) :=
  relayCodec_exact.1 7 [47] [] [1, 2] (by decide) (by decide) (by decide)

end TunnelCat.Relay
