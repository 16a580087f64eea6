import TunnelCat.Lib.Outcome
import TunnelCat.Tunnel.Aead

/-!
# The upload frame and its answer

Every request a tunnel connection sends is one *upload frame*, sealed with the session key; every
answer is a length, that many bytes of data and random padding, sealed with the same key.  This
file embeds both directions as `tunnel.go` computes them — buffers that are allocated first and
filled field by field, lengths that are truncated to the width of their field — and settles when
each direction gives back what went in.

* `parseUploadFrame_buildUploadPlain` and `buildUploadPlain_of_parseUploadFrame` are the two
  inverses for the request.
* `parseResponse_buildUploadResponse` is the round trip of the answer.  It needs four bytes less
  than the 32-bit length field could announce: `parseResponse` computes the end of the data as
  `4+dlen` in `uint32`, and `parseResponse_panic` is what happens when that sum wraps.

The cipher is a parameter, `ChaCha20Poly1305`.
-/

set_option autoImplicit false

open Bytes

namespace TunnelCat

/-! ## Sealing -/

variable (A : ChaCha20Poly1305)

/-- `sealFrame`, with the twelve random bytes it draws as an argument. -/
def sealFrame (nonce : Vector UInt8 12) (key plaintext : Bytes) : Outcome Bytes :=
  if key.length ≠ keySize then .err "chacha20poly1305: bad key length"
  else .ok (nonce.toList ++ A.Seal key nonce.toList plaintext)

/-- `openFrame`. -/
def openFrame (key data : Bytes) : Outcome Bytes :=
  if key.length ≠ keySize then .err "chacha20poly1305: bad key length"
  else if data.length < nonceSize then
    .err ("frame too short: " ++ toString data.length ++ " bytes")
  else
    match A.Open key (data.take nonceSize) (data.drop nonceSize) with
    | some plain => .ok plain
    | none => .err "chacha20poly1305: message authentication failed"

variable {A} in
/-- What is sealed under a key opens under it. -/
theorem openFrame_sealFrame {nonce : Vector UInt8 12} (key : Key) {plain : Bytes}
    (hp : plain.length ≤ maxPlaintext) :
    openFrame A key.1 (nonce.toList ++ A.Seal key.1 nonce.toList plain) = .ok plain := by
  have hn : nonce.toList.length = nonceSize := by simp [nonceSize]
  rw [openFrame, if_neg (not_not.mpr key.2), if_neg (by rw [List.length_append]; omega),
    List.take_left' hn, List.drop_left' hn, A.open_seal _ _ _ key.2 hn hp]

/-! ## The upload frame -/

/-- `binary.BigEndian.PutUint32`, as the four bytes it writes. -/
def putUint32 (v : UInt32) : Bytes := beEncode 4 v.toNat

/-- `binary.BigEndian.Uint32` of the first four bytes. -/
def uint32 (bs : Bytes) : UInt32 := UInt32.ofNat (beNat (bs.take 4))

/-- `binary.BigEndian.PutUint16`, as the two bytes it writes. -/
def putUint16 (v : UInt16) : Bytes := beEncode 2 v.toNat

/-- `binary.BigEndian.Uint16` of the first two bytes. -/
def uint16 (bs : Bytes) : UInt16 := UInt16.ofNat (beNat (bs.take 2))

@[simp] theorem length_putUint32 (v : UInt32) : (putUint32 v).length = 4 := length_beEncode _ _

@[simp] theorem length_putUint16 (v : UInt16) : (putUint16 v).length = 2 := length_beEncode _ _

theorem uint32_putUint32 (v : UInt32) (rest : Bytes) : uint32 (putUint32 v ++ rest) = v := by
  rw [uint32, List.take_left' (length_putUint32 v), putUint32, beNat_beEncode]
  refine UInt32.toNat_inj.mp ?_
  have := v.toNat_lt
  rw [UInt32.toNat_ofNat']
  omega

theorem toNat_uint32 (bs : Bytes) : (uint32 bs).toNat = beNat (bs.take 4) := by
  have hlt := beNat_lt (bs.take 4)
  have hpow : 256 ^ (bs.take 4).length ≤ 256 ^ 4 :=
    Nat.pow_le_pow_right (by decide) (List.length_take_le 4 bs)
  rw [uint32, UInt32.toNat_ofNat', Nat.mod_eq_of_lt (by omega)]

variable {data : Bytes} {b : Bytes}

theorem putUint32_uint32 (h : b.length = 4) : putUint32 (uint32 b) = b := by
  have hlt := beNat_lt b
  rw [h] at hlt
  rw [uint32, putUint32, List.take_of_length_le (by omega), UInt32.toNat_ofNat',
    Nat.mod_eq_of_lt (by omega)]
  conv_rhs => rw [← beEncode_beNat b, h]

theorem uint16_putUint16 (v : UInt16) (rest : Bytes) : uint16 (putUint16 v ++ rest) = v := by
  rw [uint16, List.take_left' (length_putUint16 v), putUint16, beNat_beEncode]
  refine UInt16.toNat_inj.mp ?_
  have := v.toNat_lt
  rw [UInt16.toNat_ofNat']
  omega

theorem toNat_uint16 (bs : Bytes) : (uint16 bs).toNat = beNat (bs.take 2) := by
  have hlt := beNat_lt (bs.take 2)
  have hpow : 256 ^ (bs.take 2).length ≤ 256 ^ 2 :=
    Nat.pow_le_pow_right (by decide) (List.length_take_le 2 bs)
  rw [uint16, UInt16.toNat_ofNat', Nat.mod_eq_of_lt (by omega)]

theorem putUint16_uint16 (h : b.length = 2) : putUint16 (uint16 b) = b := by
  have hlt := beNat_lt b
  rw [h] at hlt
  rw [uint16, putUint16, List.take_of_length_le (by omega), UInt16.toNat_ofNat',
    Nat.mod_eq_of_lt (by omega)]
  conv_rhs => rw [← beEncode_beNat b, h]

/-- The type tag of an upload frame. -/
def frameTypeUpload : UInt8 := 0x00

/-- The fields of an upload frame. -/
structure UploadFrame where
  /-- The connection id, in hexadecimal. -/
  connID : String
  /-- The sequence number. -/
  seq : UInt32
  /-- The target, empty in all frames but the first. -/
  target : Bytes
  /-- The bytes for the target. -/
  payload : Bytes
  deriving DecidableEq

/-- `buildUploadPlain`: the buffer is allocated at its full length and filled field by field.  A
connection id that is not hexadecimal leaves its sixteen bytes zero. -/
def buildUploadPlain (connIDHex : String) (seq : UInt32) (target payload : Bytes) : Bytes :=
  let buf : Bytes := List.replicate (1 + 16 + 4 + 2 + target.length + payload.length) 0
  let buf := copyAt buf 0 [frameTypeUpload]
  let buf := match hexDecode connIDHex with
    | some b => copyAt buf 1 b
    | none => buf
  let buf := copyAt buf 17 (putUint32 seq)
  let buf := copyAt buf 21 (putUint16 (UInt16.ofNat target.length))
  let buf := copyAt buf 23 target
  copyAt buf (23 + target.length) payload

/-- `parseUploadFrame`. -/
def parseUploadFrame (plain : Bytes) : Outcome UploadFrame :=
  match plain with
  | [] => .err "frame too short"
  | ty :: rest =>
    if plain.length < 1 + 16 + 4 + 2 then .err "frame too short"
    else if ty ≠ frameTypeUpload then .err ("unexpected type 0x" ++ hexEncode [ty])
    else
      let tgtLen := (uint16 (rest.drop 20)).toNat
      if tgtLen > plain.length - 23 then .err "target length overflow"
      else .ok
        { connID := hexEncode (rest.take 16)
          seq := uint32 (rest.drop 16)
          target := (rest.drop 22).take tgtLen
          payload := (rest.drop 22).drop tgtLen }

/-- A connection id as `newConnID` makes them: sixteen bytes in lower-case hexadecimal. -/
def IsConnID (s : String) : Prop := s.toList.length = 32 ∧ ∀ c ∈ s.toList, IsLowerHex c

theorem IsConnID.hexDecode_eq {s : String} (h : IsConnID s) :
    ∃ b, hexDecode s = some b ∧ b.length = 16 ∧ hexEncode b = s := by
  obtain ⟨b, hb, hs⟩ := hexEncode_of_lower h.2 (by rw [h.1]; decide)
  refine ⟨b, hb, ?_, hs⟩
  have hlen := h.1
  rw [← hs, hexEncode, String.toList_ofList, length_hexChars] at hlen
  omega

/-- Sixteen random bytes, as `newConnID` draws them, make one. -/
theorem isConnID_hexEncode (h : b.length = 16) : IsConnID (hexEncode b) := by
  rw [IsConnID, hexEncode, String.toList_ofList, length_hexChars, h]
  exact ⟨rfl, hexChars_lower b⟩

/-- **The layout of a frame**: the fields, one after the other. -/
theorem buildUploadPlain_eq {connID : String} (hb : hexDecode connID = some b)
    (hlen : b.length = 16) (seq : UInt32) (target payload : Bytes) :
    buildUploadPlain connID seq target payload =
      [frameTypeUpload] ++ b ++ putUint32 seq ++ putUint16 (UInt16.ofNat target.length) ++
        target ++ payload := by
  have hconn : ([frameTypeUpload] ++ b).length = 17 := by
    rw [List.length_append, hlen, List.length_singleton]
  have hseq : ([frameTypeUpload] ++ b ++ putUint32 seq).length = 21 := by
    rw [List.length_append, hconn, length_putUint32]
  have htgt : ([frameTypeUpload] ++ b ++ putUint32 seq ++
      putUint16 (UInt16.ofNat target.length)).length = 23 := by
    rw [List.length_append, hseq, length_putUint16]
  rw [buildUploadPlain, hb]
  dsimp only
  rw [← List.nil_append (List.replicate _ _),
    copyAt_fill (i := 0) rfl (22 + target.length + payload.length)
      (by rw [List.length_singleton]; omega), List.nil_append,
    copyAt_fill (i := 1) rfl (6 + target.length + payload.length) (by rw [hlen]; omega),
    copyAt_fill hconn (2 + target.length + payload.length) (by rw [length_putUint32]; omega),
    copyAt_fill hseq (target.length + payload.length) (by rw [length_putUint16]; omega),
    copyAt_fill htgt payload.length rfl,
    copyAt_fill (by rw [List.length_append, htgt]) 0 (Nat.add_zero _).symm,
    List.replicate_zero, List.append_nil]

/-- **Reading a frame back.** -/
theorem parseUploadFrame_buildUploadPlain {connID : String} (hc : IsConnID connID) (seq : UInt32)
    {target : Bytes} (ht : target.length ≤ 65535) (payload : Bytes) :
    parseUploadFrame (buildUploadPlain connID seq target payload) =
      .ok ⟨connID, seq, target, payload⟩ := by
  obtain ⟨b, hb, hlen, hs⟩ := hc.hexDecode_eq
  have htl : (UInt16.ofNat target.length).toNat = target.length := by
    rw [UInt16.toNat_ofNat', Nat.mod_eq_of_lt (by omega)]
  rw [buildUploadPlain_eq hb hlen]
  simp only [List.append_assoc, List.cons_append, List.nil_append, parseUploadFrame]
  have hconn : List.take 16 (b ++ (putUint32 seq ++ (putUint16 (UInt16.ofNat target.length) ++
      (target ++ payload)))) = b := List.take_left' hlen
  have hseq : List.drop 16 (b ++ (putUint32 seq ++ (putUint16 (UInt16.ofNat target.length) ++
      (target ++ payload)))) = putUint32 seq ++ (putUint16 (UInt16.ofNat target.length) ++
      (target ++ payload)) := List.drop_left' hlen
  have htgt : List.drop 20 (b ++ (putUint32 seq ++ (putUint16 (UInt16.ofNat target.length) ++
      (target ++ payload)))) = putUint16 (UInt16.ofNat target.length) ++ (target ++ payload) := by
    rw [show 20 = 16 + 4 from rfl, ← List.drop_drop, hseq, List.drop_left' (by simp)]
  have hrest : List.drop 22 (b ++ (putUint32 seq ++ (putUint16 (UInt16.ofNat target.length) ++
      (target ++ payload)))) = target ++ payload := by
    rw [show 22 = 20 + 2 from rfl, ← List.drop_drop, htgt, List.drop_left' (by simp)]
  rw [hconn, hseq, htgt, hrest, uint16_putUint16, uint32_putUint32, htl, hs,
    List.take_left' rfl, List.drop_left' rfl, if_neg, if_neg (by simp), if_neg]
  · simp only [List.length_cons, List.length_append, hlen, length_putUint32, length_putUint16]
    omega
  · simp only [List.length_cons, List.length_append, hlen, length_putUint32, length_putUint16]
    omega

/-- **Rebuilding a frame that was read.** -/
theorem buildUploadPlain_of_parseUploadFrame {plain : Bytes} {f : UploadFrame}
    (h : parseUploadFrame plain = .ok f) :
    buildUploadPlain f.connID f.seq f.target f.payload = plain := by
  cases plain with
  | nil => simp [parseUploadFrame] at h
  | cons ty rest =>
    simp only [parseUploadFrame] at h
    split at h
    · simp at h
    rename_i hlen
    rw [List.length_cons] at hlen
    split at h
    · simp at h
    rename_i hty
    obtain rfl : ty = frameTypeUpload := not_not.mp hty
    split at h
    · simp at h
    rename_i htl
    rw [List.length_cons] at htl
    rw [Outcome.ok.injEq] at h
    subst h
    have h16 : (rest.take 16).length = 16 := by rw [List.length_take]; omega
    have hl : ((rest.drop 22).take (uint16 (rest.drop 20)).toNat).length =
        (uint16 (rest.drop 20)).toNat := by
      rw [List.length_take, List.length_drop]; omega
    have hseq : putUint32 (uint32 (rest.drop 16)) = (rest.drop 16).take 4 := by
      rw [← putUint32_uint32 (b := (rest.drop 16).take 4)
        (by rw [List.length_take, List.length_drop]; omega), uint32, uint32, List.take_take]
      rfl
    have htgt : putUint16 (uint16 (rest.drop 20)) = (rest.drop 20).take 2 := by
      rw [← putUint16_uint16 (b := (rest.drop 20).take 2)
        (by rw [List.length_take, List.length_drop]; omega), uint16, uint16, List.take_take]
      rfl
    rw [buildUploadPlain_eq (hexDecode_hexEncode _) h16, hl, UInt16.ofNat_toNat, hseq, htgt]
    show _ ++ (rest.drop 22).take _ ++ (rest.drop 22).drop _ = _
    calc [frameTypeUpload] ++ rest.take 16 ++ (rest.drop 16).take 4 ++ (rest.drop 20).take 2 ++
          (rest.drop 22).take (uint16 (rest.drop 20)).toNat ++
          (rest.drop 22).drop (uint16 (rest.drop 20)).toNat
        = [frameTypeUpload] ++ (rest.take 16 ++ ((rest.drop 16).take 4 ++ ((rest.drop 20).take 2 ++
            rest.drop 22))) := by simp only [List.append_assoc, List.take_append_drop]
      _ = [frameTypeUpload] ++ (rest.take 16 ++ ((rest.drop 16).take 4 ++ rest.drop 20)) := by
          rw [show rest.drop 22 = (rest.drop 20).drop 2 from by rw [List.drop_drop],
            List.take_append_drop]
      _ = [frameTypeUpload] ++ (rest.take 16 ++ rest.drop 16) := by
          rw [show rest.drop 20 = (rest.drop 16).drop 4 from by rw [List.drop_drop],
            List.take_append_drop]
      _ = frameTypeUpload :: rest := by rw [List.take_append_drop, List.singleton_append]

/-! ## The answer -/

/-- The padding floor of an answer. -/
def minPadding : ℕ := 512

/-- The plaintext of an answer: `make` at the full length, then length, data and random bytes.
`pad` is the random source. -/
def responsePlain (pad : ℕ → UInt8) (data : Bytes) : Bytes :=
  let dlen := data.length
  let padLen := if dlen > minPadding then dlen else minPadding
  let plain : Bytes := List.replicate (4 + padLen) 0
  let plain := copyAt plain 0 (putUint32 (UInt32.ofNat dlen))
  let plain := copyAt plain 4 data
  if dlen < padLen then copyAt plain (4 + dlen) ((List.range (padLen - dlen)).map pad) else plain

/-- `buildUploadResponse`, with its random padding and nonce as arguments. -/
def buildUploadResponse (nonce : Vector UInt8 12) (pad : ℕ → UInt8) (key data : Bytes) :
    Outcome Bytes :=
  sealFrame A nonce key (responsePlain pad data)

/-- `parseResponse`; a `nil` slice is `none`.  The end of the data is computed in `uint32`, the
type of `dlen`. -/
def parseResponse (key body : Bytes) : Outcome (Option Bytes) :=
  if body.length = 0 then .ok none
  else
    match openFrame A key body with
    | .err e => .err ("response decrypt: " ++ e)
    | .panic => .panic
    | .ok plain =>
      if plain.length < 4 then .err "response frame too short"
      else
        let dlen := uint32 plain
        if dlen = 0 then .ok none
        else if dlen.toNat > plain.length - 4 then
          .err ("response dlen " ++ toString dlen.toNat ++ " > available " ++
            toString (plain.length - 4))
        else
          match Outcome.slice plain 4 (4 + dlen).toNat with
          | .ok data => .ok (some data)
          | .err e => .err e
          | .panic => .panic

/-- The layout of an answer: length, data, padding. -/
theorem responsePlain_eq (pad : ℕ → UInt8) (data : Bytes) :
    ∃ padding : Bytes, responsePlain pad data =
      putUint32 (UInt32.ofNat data.length) ++ data ++ padding ∧
      (responsePlain pad data).length = 4 + max minPadding data.length := by
  set padLen := if data.length > minPadding then data.length else minPadding with hpad
  have hle : data.length ≤ padLen := by rw [hpad]; split <;> omega
  have hmax : padLen = max minPadding data.length := by rw [hpad]; split <;> omega
  have hfill : copyAt (copyAt (List.replicate (4 + padLen) 0) 0
      (putUint32 (UInt32.ofNat data.length))) 4 data =
      putUint32 (UInt32.ofNat data.length) ++ data ++ List.replicate (padLen - data.length) 0 := by
    rw [← List.nil_append (List.replicate _ _),
      copyAt_fill (i := 0) rfl padLen (by rw [length_putUint32]), List.nil_append,
      copyAt_fill (length_putUint32 _) (padLen - data.length) (by omega)]
  have hlen : ∀ padding : Bytes, padding.length = padLen - data.length →
      (putUint32 (UInt32.ofNat data.length) ++ data ++ padding).length =
        4 + max minPadding data.length := by
    intro padding hp
    rw [List.length_append, List.length_append, length_putUint32, hp]
    omega
  rw [responsePlain, ← hpad, hfill]
  split
  · have hdraws : ((List.range (padLen - data.length)).map pad).length = padLen - data.length := by
      rw [List.length_map, List.length_range]
    rw [copyAt_fill (by rw [List.length_append, length_putUint32]) 0 hdraws.symm,
      List.replicate_zero, List.append_nil]
    exact ⟨_, rfl, hlen _ hdraws⟩
  · exact ⟨_, rfl, hlen _ List.length_replicate⟩

variable {A}

theorem responsePlain_length_le (pad : ℕ → UInt8) (h : data.length < 2 ^ 32) :
    (responsePlain pad data).length ≤ maxPlaintext := by
  obtain ⟨_, _, hlen⟩ := responsePlain_eq pad data
  rw [hlen, minPadding, maxPlaintext]
  omega

/-- What `parseResponse` does with an answer, up to the slice expression at its end. -/
theorem parseResponse_seal (nonce : Vector UInt8 12) (pad : ℕ → UInt8) (key : Key)
    (h : data.length < 2 ^ 32) :
    ∃ body, buildUploadResponse A nonce pad key.1 data = .ok body ∧
      parseResponse A key.1 body =
        if data = [] then .ok none
        else match Outcome.slice (responsePlain pad data) 4 ((4 + data.length) % 2 ^ 32) with
          | .ok d => .ok (some d)
          | .err e => .err e
          | .panic => .panic := by
  obtain ⟨padding, hplain, hlen⟩ := responsePlain_eq pad data
  have hdlen : uint32 (responsePlain pad data) = UInt32.ofNat data.length := by
    rw [hplain, List.append_assoc, uint32_putUint32]
  have hnat : (UInt32.ofNat data.length).toNat = data.length := by
    rw [UInt32.toNat_ofNat', Nat.mod_eq_of_lt h]
  have hzero : UInt32.ofNat data.length = 0 ↔ data = [] := by
    rw [← UInt32.toNat_inj, hnat, UInt32.toNat_zero, List.length_eq_zero_iff]
  refine ⟨_, by rw [buildUploadResponse, sealFrame, if_neg (not_not.mpr key.2)], ?_⟩
  rw [parseResponse, if_neg (by simp), openFrame_sealFrame key (responsePlain_length_le pad h)]
  simp only [hdlen, hzero, hnat, UInt32.toNat_add]
  rw [if_neg (by omega), if_neg (show ¬ data.length > _ by omega)]
  rfl

/-- **The round trip of an answer**, for data whose end a `uint32` can hold. -/
theorem parseResponse_buildUploadResponse (nonce : Vector UInt8 12) (pad : ℕ → UInt8) (key : Key)
    (h : data.length < 2 ^ 32 - 4) :
    ∃ body, buildUploadResponse A nonce pad key.1 data = .ok body ∧
      parseResponse A key.1 body = .ok (if data = [] then none else some data) := by
  obtain ⟨body, hbody, hparse⟩ := parseResponse_seal (A := A) nonce pad key
    (show data.length < 2 ^ 32 by omega)
  obtain ⟨padding, hplain, -⟩ := responsePlain_eq pad data
  refine ⟨body, hbody, ?_⟩
  rw [hparse, hplain, Outcome.slice_middle (by simp) (by omega)]
  split <;> rfl

/-- **The last four lengths crash**: the end of the data wraps to below its start. -/
theorem parseResponse_panic (nonce : Vector UInt8 12) (pad : ℕ → UInt8) (key : Key)
    (h : data.length < 2 ^ 32) (h' : 2 ^ 32 - 4 ≤ data.length) :
    ∃ body, buildUploadResponse A nonce pad key.1 data = .ok body ∧
      parseResponse A key.1 body = .panic := by
  obtain ⟨body, hbody, hparse⟩ := parseResponse_seal (A := A) nonce pad key h
  have hne : data ≠ [] := by
    rintro rfl
    simp at h'
  refine ⟨body, hbody, ?_⟩
  rw [hparse, if_neg hne, Outcome.slice_panic (by omega)]

variable (A)

/-- The answer with `data` comes back as `data`, whatever nonce and padding are drawn. -/
def ResponseRoundTrips (key : Key) (data : Bytes) : Prop :=
  ∀ (nonce : Vector UInt8 12) (pad : ℕ → UInt8),
    ∃ body, buildUploadResponse A nonce pad key.1 data = .ok body ∧
      parseResponse A key.1 body = .ok (if data = [] then none else some data)

theorem responseRoundTrips_iff (key : Key) (h : data.length < 2 ^ 32) :
    ResponseRoundTrips A key data ↔ data.length < 2 ^ 32 - 4 := by
  constructor
  · intro hrt
    by_contra hlt
    obtain ⟨body, hbody, hok⟩ := hrt (Vector.replicate 12 0) (fun _ ↦ 0)
    obtain ⟨body', hbody', hpanic⟩ := parseResponse_panic (A := A) (Vector.replicate 12 0)
      (fun _ ↦ 0) key h (by omega)
    rw [hbody, Outcome.ok.injEq] at hbody'
    rw [hbody', hpanic] at hok
    exact absurd hok (by simp)
  · exact fun hlt nonce pad ↦ parseResponse_buildUploadResponse nonce pad key hlt

/-- **The wire protocol round trips, and exactly how far.**  Both inverses of the upload frame hold
for every frame; an answer comes back for every data of less than `2 ^ 32 - 4` bytes and for none
of the four lengths between that and `2 ^ 32`. -/
theorem control_wire_round_trip :
    (∀ connID seq target payload, IsConnID connID → target.length ≤ 65535 →
      parseUploadFrame (buildUploadPlain connID seq target payload) =
        .ok ⟨connID, seq, target, payload⟩) ∧
    (∀ plain f, parseUploadFrame plain = .ok f →
      buildUploadPlain f.connID f.seq f.target f.payload = plain) ∧
    (∀ key data, data.length < 2 ^ 32 →
      (ResponseRoundTrips A key data ↔ data.length < 2 ^ 32 - 4)) :=
  ⟨fun _ seq _ payload hc ht ↦ parseUploadFrame_buildUploadPlain hc seq ht payload,
    fun _ _ h ↦ buildUploadPlain_of_parseUploadFrame h,
    fun key _ h ↦ responseRoundTrips_iff A key h⟩

/-- An answer of `2 ^ 32 - 4` zero bytes is shorter than `2 ^ 32` and does not come back. -/
theorem control_wire_round_trip_fails :
    (List.replicate (2 ^ 32 - 4) (0 : UInt8)).length < 2 ^ 32 ∧
      ¬ ResponseRoundTrips nullAead zeroKey (List.replicate (2 ^ 32 - 4) 0) := by
  have hlen : (List.replicate (2 ^ 32 - 4) (0 : UInt8)).length = 2 ^ 32 - 4 :=
    List.length_replicate
  rw [responseRoundTrips_iff nullAead _ (by rw [hlen]; decide), hlen]
  decide

end TunnelCat
