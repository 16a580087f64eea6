import TunnelCat.Tunnel.Frame

/-!
# Frames of the UDP relay

Two nodes that have punched a hole to each other exchange frames over a connected UDP socket.  Every
frame begins with a magic number, the id of a request and a type; a request goes on with a path, a
session token and a body, a response with a status and a body, and a keepalive ends there.

The codec is embedded as `udp_relay.go` has it for 64-bit integers, where no sum of lengths wraps.
What the rest of the development needs of it is that the header of a frame can be read back, even if
the frame was cut off at the length of the receive buffer, and that a response is either read back
as it was written or not at all.
-/

set_option autoImplicit false

open Bytes

namespace TunnelCat.Relay

/-- `udpRelayMagic`. -/
def udpRelayMagic : UInt32 := 0x534E4355

/-- `udpRelayTypeRequest`. -/
def udpRelayTypeRequest : UInt8 := 0x01

/-- `udpRelayTypeResponse`. -/
def udpRelayTypeResponse : UInt8 := 0x02

/-- `udpRelayTypeKeepalive`. -/
def udpRelayTypeKeepalive : UInt8 := 0x03

/-- `udpRelayTypePong`. -/
def udpRelayTypePong : UInt8 := 0x04

/-- `udpRelayMaxFrame`. -/
def udpRelayMaxFrame : ℕ := 65536

/-- `udpPendingResp`. -/
structure Resp where
  /-- The status of the control node's response. -/
  status : ℕ
  /-- Its body. -/
  body : Bytes
  deriving DecidableEq, Repr

/-- What every frame begins with. -/
def frameHead (reqID : UInt32) (typ : UInt8) : Bytes :=
  putUint32 udpRelayMagic ++ putUint32 reqID ++ [typ]

/-- `udpEncodeRequest`. -/
def udpEncodeRequest (reqID : UInt32) (path token body : Bytes) : Bytes :=
  frameHead reqID udpRelayTypeRequest ++
    (putUint16 (UInt16.ofNat path.length) ++ path ++ putUint16 (UInt16.ofNat token.length) ++
      token ++ putUint32 (UInt32.ofNat body.length) ++ body)

/-- `udpDecodeRequest`. -/
def udpDecodeRequest (data : Bytes) : Option (Bytes × Bytes × Bytes) :=
  if data.length < 9 + 2 + 2 + 4 then none
  else
    let pLen := (uint16 (data.drop 9)).toNat
    let o := 11
    if data.length < o + pLen + 2 then none
    else
      let path := (data.drop o).take pLen
      let o := o + pLen
      let tLen := (uint16 (data.drop o)).toNat
      let o := o + 2
      if data.length < o + tLen + 4 then none
      else
        let token := (data.drop o).take tLen
        let o := o + tLen
        let bLen := (uint32 (data.drop o)).toNat
        let o := o + 4
        if data.length < o + bLen then none else some (path, token, (data.drop o).take bLen)

/-- `udpEncodeKeepalive`. -/
def udpEncodeKeepalive (reqID : UInt32) (typ : UInt8) : Bytes := frameHead reqID typ

/-- `udpEncodeResponse`. -/
def udpEncodeResponse (reqID : UInt32) (resp : Resp) : Bytes :=
  frameHead reqID udpRelayTypeResponse ++
    (putUint16 (UInt16.ofNat resp.status) ++ putUint32 (UInt32.ofNat resp.body.length) ++ resp.body)

/-- `udpDecodeResponse`. -/
def udpDecodeResponse (data : Bytes) : Option Resp :=
  if data.length < 4 + 4 + 1 + 2 + 4 then none
  else
    let bLen := (uint32 (data.drop 11)).toNat
    if data.length < 15 + bLen then none
    else some ⟨(uint16 (data.drop 9)).toNat, (data.drop 15).take bLen⟩

/-- The test `readLoop` begins with: the id and the type of a frame that is not malformed. -/
def header (data : Bytes) : Option (UInt32 × UInt8) :=
  if data.length < 9 ∨ uint32 data ≠ udpRelayMagic then none
  else data[8]?.map fun typ ↦ (uint32 (data.drop 4), typ)

@[simp] theorem length_frameHead (reqID : UInt32) (typ : UInt8) :
    (frameHead reqID typ).length = 9 := by
  simp [frameHead]

theorem header_frameHead (reqID : UInt32) (typ : UInt8) (rest : Bytes) :
    header (frameHead reqID typ ++ rest) = some (reqID, typ) := by
  have hmagic : uint32 (frameHead reqID typ ++ rest) = udpRelayMagic := by
    rw [frameHead, List.append_assoc, List.append_assoc, uint32_putUint32]
  have hid : (frameHead reqID typ ++ rest).drop 4 = putUint32 reqID ++ ([typ] ++ rest) := by
    rw [frameHead, List.append_assoc, List.append_assoc, List.drop_left' (length_putUint32 _)]
  have htyp : (frameHead reqID typ ++ rest)[8]? = some typ := by
    rw [frameHead, List.append_assoc, List.getElem?_append_right (by simp)]
    simp
  rw [header, if_neg (by simp [hmagic]), hid, uint32_putUint32, htyp, Option.map_some]

/-- A frame that is cut off at the length of the receive buffer keeps its header. -/
theorem header_take (reqID : UInt32) (typ : UInt8) (rest : Bytes) :
    header ((frameHead reqID typ ++ rest).take udpRelayMaxFrame) = some (reqID, typ) := by
  rw [List.take_append, List.take_of_length_le (by simp [udpRelayMaxFrame])]
  exact header_frameHead ..

/-- The fields of a response frame, with a body that need not have the length it says. -/
theorem udpDecodeResponse_fields (reqID : UInt32) (status : UInt16) (bLen : UInt32) (body : Bytes) :
    udpDecodeResponse (frameHead reqID udpRelayTypeResponse ++
        (putUint16 status ++ putUint32 bLen ++ body)) =
      if body.length < bLen.toNat then none else some ⟨status.toNat, body.take bLen.toNat⟩ := by
  have hstatus : (frameHead reqID udpRelayTypeResponse ++
      (putUint16 status ++ putUint32 bLen ++ body)).drop 9 =
      putUint16 status ++ (putUint32 bLen ++ body) := by
    rw [List.drop_left' (length_frameHead ..), List.append_assoc]
  have hlen : (frameHead reqID udpRelayTypeResponse ++
      (putUint16 status ++ putUint32 bLen ++ body)).drop 11 = putUint32 bLen ++ body := by
    rw [show 11 = 9 + 2 from rfl, ← List.drop_drop, hstatus, List.drop_left' (length_putUint16 _)]
  have hbody : (frameHead reqID udpRelayTypeResponse ++
      (putUint16 status ++ putUint32 bLen ++ body)).drop 15 = body := by
    rw [show 15 = 11 + 4 from rfl, ← List.drop_drop, hlen, List.drop_left' (length_putUint32 _)]
  rw [udpDecodeResponse, hstatus, hlen, hbody, uint16_putUint16, uint32_putUint32,
    if_neg (by simp; omega)]
  by_cases hshort : body.length < bLen.toNat
  · rw [if_pos (by simp; omega), if_pos hshort]
  · rw [if_neg (by simp; omega), if_neg hshort]

/-- A response is read back as it was written, unless it is cut off and then not read at all. -/
theorem eq_of_udpDecodeResponse {reqID : UInt32} {resp resp' : Resp}
    (hstatus : resp.status < 2 ^ 16) (hbody : resp.body.length < 2 ^ 32)
    (h : udpDecodeResponse ((udpEncodeResponse reqID resp).take udpRelayMaxFrame) = some resp') :
    resp' = resp := by
  have hcut : (udpEncodeResponse reqID resp).take udpRelayMaxFrame =
      frameHead reqID udpRelayTypeResponse ++ (putUint16 (UInt16.ofNat resp.status) ++
        putUint32 (UInt32.ofNat resp.body.length) ++ resp.body.take (udpRelayMaxFrame - 15)) := by
    rw [udpEncodeResponse, List.take_append, List.take_of_length_le (by simp [udpRelayMaxFrame]),
      List.take_append, List.take_of_length_le (by simp [udpRelayMaxFrame])]
    simp [Nat.sub_sub]
  rw [hcut, udpDecodeResponse_fields, UInt32.toNat_ofNat_of_lt' hbody,
    UInt16.toNat_ofNat_of_lt' hstatus] at h
  split at h
  · cases h
  · rename_i hlong
    rw [List.length_take] at hlong
    rw [List.take_take, List.take_of_length_le (by omega), Option.some_inj] at h
    exact h.symm

end TunnelCat.Relay
