import TunnelCat.Dht.Id
import TunnelCat.Lib.Outcome
import TunnelCat.Tunnel.Aead

/-!
# Datagrams of the DHT

A DHT datagram is a nonce and a ciphertext; the plaintext is a message type, a hop count, up to
fifteen bytes of padding and a JSON body.  `sealPacket` and `openPacket` are `Seal` and `Open` of
`dht_wire.go`, and `openPacket_sealPacket` is the round trip.  The bodies are the payload
structures, which stay structures here: `encoding/json` is not part of the repository.
-/

set_option autoImplicit false

namespace TunnelCat.Dht

/-- `MaxTTL`. -/
def maxTTL : UInt8 := 8

/-- The message types a node knows. -/
inductive MsgType where
  | ping | pong | findNode | nodes | announce | ack | getRelays | relayList
  | manifestHave | manifestWant | manifest | holePunch
  | contentHave | contentWant | content | mirrorPunch
deriving DecidableEq, Repr

/-- The byte on the wire. -/
def MsgType.code : MsgType → UInt8
  | .ping => 0x01
  | .pong => 0x02
  | .findNode => 0x03
  | .nodes => 0x04
  | .announce => 0x05
  | .ack => 0x06
  | .getRelays => 0x07
  | .relayList => 0x08
  | .manifestHave => 0x09
  | .manifestWant => 0x0A
  | .manifest => 0x0B
  | .holePunch => 0x0C
  | .contentHave => 0x0D
  | .contentWant => 0x0E
  | .content => 0x0F
  | .mirrorPunch => 0x10

/-- The type a byte stands for; the handler drops all other bytes. -/
def MsgType.ofCode (b : UInt8) : Option MsgType :=
  [.ping, .pong, .findNode, .nodes, .announce, .ack, .getRelays, .relayList, .manifestHave,
    .manifestWant, .manifest, .holePunch, .contentHave, .contentWant, .content,
    .mirrorPunch].find? fun t : MsgType ↦ t.code == b

theorem MsgType.ofCode_code (t : MsgType) : ofCode t.code = some t := by
  cases t <;> decide

/-- `Seal`, with the marshalled body, the padding and the nonce as arguments.  A hop count of zero
starts a new message. -/
def sealPacket (A : ChaCha20Poly1305) (key : Key) (nonce : Vector UInt8 12)
    (pad : {p : Bytes // p.length < 16}) (msgType ttl : UInt8) (body : Bytes) : Bytes :=
  let ttl := if ttl = 0 then maxTTL else ttl
  nonce.toList ++ A.Seal key.1 nonce.toList
    (msgType :: ttl :: UInt8.ofNat pad.1.length :: (pad.1 ++ body))

/-- The padding of length zero. -/
def noPadding : {p : Bytes // p.length < 16} := ⟨[], by decide⟩

/-- `Open`: the message type, the hop count and the body.  `plain[2]` would panic on a plaintext of
fewer than three bytes. -/
def openPacket (A : ChaCha20Poly1305) (key : Key) (pkt : Bytes) : Outcome (UInt8 × UInt8 × Bytes) :=
  let minLen := nonceSize + 3 + overhead
  if pkt.length < minLen then
    .err ("dht-wire: packet too short (" ++ toString pkt.length ++ " < " ++ toString minLen ++ ")")
  else
    match A.Open key.1 (pkt.take nonceSize) (pkt.drop nonceSize) with
    | none => .err "dht-wire: auth failed: chacha20poly1305: message authentication failed"
    | some (msgType :: ttl :: padLen :: rest) =>
      if 3 + padLen.toNat > rest.length + 3 then
        .err ("dht-wire: invalid pad_len " ++ toString padLen.toNat)
      else .ok (msgType, ttl, rest.drop padLen.toNat)
    | some _ => .panic

/-- A datagram comes back if the cipher opens its plaintext. -/
theorem openPacket_of_open (A : ChaCha20Poly1305) (key : Key) (nonce : Vector UInt8 12)
    (pad : {p : Bytes // p.length < 16}) (msgType ttl : UInt8) {body : Bytes}
    (hopen : A.Open key.1 nonce.toList (A.Seal key.1 nonce.toList
        (msgType :: (if ttl = 0 then maxTTL else ttl) :: UInt8.ofNat pad.1.length ::
          (pad.1 ++ body))) =
      some (msgType :: (if ttl = 0 then maxTTL else ttl) :: UInt8.ofNat pad.1.length ::
        (pad.1 ++ body))) :
    openPacket A key (sealPacket A key nonce pad msgType ttl body) =
      .ok (msgType, if ttl = 0 then maxTTL else ttl, body) := by
  have hn : nonce.toList.length = nonceSize := by simp [nonceSize]
  have hpad : (UInt8.ofNat pad.1.length).toNat = pad.1.length := by
    have := pad.2
    rw [UInt8.toNat_ofNat', Nat.mod_eq_of_lt (by omega)]
  rw [sealPacket, openPacket, if_neg, List.take_left' hn, List.drop_left' hn, hopen]
  · simp only [hpad]
    rw [if_neg (by rw [List.length_append]; omega), List.drop_left' rfl]
  · rw [List.length_append, hn, A.length_seal]
    simp only [List.length_cons]
    omega

/-- **A datagram comes back**, whatever nonce and padding are drawn. -/
theorem openPacket_sealPacket (A : ChaCha20Poly1305) (key : Key) (nonce : Vector UInt8 12)
    (pad : {p : Bytes // p.length < 16}) (msgType ttl : UInt8) {body : Bytes}
    (hbody : 3 + pad.1.length + body.length ≤ maxPlaintext) :
    openPacket A key (sealPacket A key nonce pad msgType ttl body) =
      .ok (msgType, if ttl = 0 then maxTTL else ttl, body) := by
  refine openPacket_of_open A key nonce pad msgType ttl (A.open_seal _ _ _ key.2 ?_ ?_)
  · rw [Vector.length_toList, nonceSize]
  · simp only [List.length_cons, List.length_append]
    omega

/-! ## Payloads -/

/-- `ContactJSON`. -/
structure ContactJSON where
  /-- `id`. -/
  id : String
  /-- `addr`. -/
  addr : String
deriving DecidableEq, Repr

/-- `FindNodePayload`. -/
structure FindNodePayload where
  /-- `from`: the sender, as it names itself. -/
  fromContact : ContactJSON
  /-- `target`. -/
  target : String
deriving DecidableEq, Repr

/-- `NodesPayload`. -/
structure NodesPayload where
  /-- `from`: the responder, as it names itself. -/
  fromContact : ContactJSON
  /-- `nodes`. -/
  nodes : List ContactJSON
deriving DecidableEq, Repr

/-- `RelayEntry`. -/
structure RelayEntry where
  /-- `node_id`: the public key of the publisher in hexadecimal. -/
  nodeID : String
  /-- `addr`. -/
  addr : String
  /-- `country_code`. -/
  countryCode : String
  /-- `ts`, in seconds. -/
  ts : Int64
  /-- `sig`: the signature in unpadded base64url. -/
  sig : String
deriving DecidableEq, Repr

/-- `ManifestPayload` and `ContentPayload`: a manifest and the time stamp its sender gives it. -/
structure ManifestPayload where
  /-- `ts`. -/
  ts : ℤ
  /-- `raw`: the JSON of the manifest. -/
  raw : Bytes
deriving DecidableEq, Repr

/-- `HolePunchPayload`. -/
structure HolePunchPayload where
  /-- `peer`. -/
  peer : String
  /-- `control`. -/
  control : String
deriving DecidableEq, Repr

/-- `ContentHavePayload`. -/
structure ContentHavePayload where
  /-- `ts`. -/
  ts : ℤ
  /-- `complete`. -/
  complete : Bool
deriving DecidableEq, Repr

/-- A message with its payload, as the node hands it to `Seal`. -/
inductive Message where
  | ping
  | pong
  | findNode (p : FindNodePayload)
  | nodes (p : NodesPayload)
  | ack
  | relayList (entries : List RelayEntry)
  | manifestWant
  | manifest (p : ManifestPayload)
  | contentWant
  | content (p : ManifestPayload)
deriving DecidableEq, Repr

end TunnelCat.Dht
