import TunnelCat.Dht.Wire
import TunnelCat.Lib.Keyed

/-!
# Relay entries

A relay publishes a signed entry; a node keeps the newest one for each `NodeID` as long as it is
fresh.  `verifyRelayEntry`, `RelayStore.store` and `RelayStore.all` are the three functions of that
name, with the clock reading as an argument.  Time stamps are `int64` and the age of an entry is
computed in that type.
-/

set_option autoImplicit false

open Bytes

namespace TunnelCat.Dht

/-- `RelayTTL` in seconds. -/
def relayTTL : Int64 := 120

/-- The library functions a signature is checked with. -/
structure SigLib where
  /-- `ed25519.Verify` of a public key, the UTF-8 bytes of a text and a signature. -/
  verify : Bytes → String → Bytes → Bool
  /-- `base64.RawURLEncoding.DecodeString`. -/
  base64Decode : String → Option Bytes
  /-- The text of the error of `hex.DecodeString`. -/
  hexError : String → String

/-- `relayEntryPayload`: the text that is signed. -/
def relayEntryPayload (e : RelayEntry) : String :=
  e.nodeID ++ "|" ++ e.addr ++ "|" ++ e.countryCode ++ "|" ++ toString e.ts.toInt

/-- `VerifyRelayEntry`. -/
def verifyRelayEntry (L : SigLib) (e : RelayEntry) : Outcome Unit :=
  if e.nodeID.utf8ByteSize ≠ 64 then
    .err ("dht: bad node_id length " ++ toString e.nodeID.utf8ByteSize)
  else
    match hexDecode e.nodeID with
    | none => .err ("dht: node_id not hex: " ++ L.hexError e.nodeID)
    | some pub =>
      match L.base64Decode e.sig with
      | none => .err "dht: bad sig encoding"
      | some sig =>
        if sig.length ≠ 64 then .err "dht: bad sig encoding"
        else if L.verify pub (relayEntryPayload e) sig then .ok ()
        else .err "dht: signature verification failed"

/-- `relayStore`: the entry kept for each `NodeID`.  It is a map in the source, so the order of the
entries means nothing. -/
abbrev RelayStore := List RelayEntry

namespace RelayStore

/-- The entry kept for a `NodeID`. -/
def lookup (s : RelayStore) (nodeID : String) : Option RelayEntry := s.find? (·.nodeID = nodeID)

/-- Assignment to the entry of a `NodeID`. -/
def assign (s : RelayStore) (e : RelayEntry) : RelayStore :=
  if e.nodeID ∈ s.map RelayEntry.nodeID then
    Keyed.updateFirst RelayEntry.nodeID e.nodeID (fun _ ↦ some e) s
  else s ++ [e]

/-- `relayStore.store` at the clock reading `now`. -/
def store (L : SigLib) (now : Int64) (s : RelayStore) (e : RelayEntry) :
    Outcome Unit × RelayStore :=
  match verifyRelayEntry L e with
  | .err msg => (.err ("relay-store: invalid sig: " ++ msg), s)
  | .panic => (.panic, s)
  | .ok () =>
    let age := now - e.ts
    if age > relayTTL ∨ age < -relayTTL then
      (.err ("relay-store: stale/future entry ts=" ++ toString e.ts.toInt ++ " age=" ++
        toString age.toInt ++ "s"), s)
    else
      match s.lookup e.nodeID with
      | some existing => if existing.ts ≥ e.ts then (.ok (), s) else (.ok (), s.assign e)
      | none => (.ok (), s.assign e)

/-- `relayStore.all` at the clock reading `now`. -/
def all (now : Int64) (s : RelayStore) : List RelayEntry := s.filter fun e ↦ now - e.ts ≤ relayTTL

end RelayStore

end TunnelCat.Dht
