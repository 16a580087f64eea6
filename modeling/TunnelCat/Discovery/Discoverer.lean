import TunnelCat.Lib.Bytes
import TunnelCat.Lib.Outcome

/-!
# The list of control nodes

`Discoverer` keeps the list of control nodes from a manifest the arbiter has signed.  Manifests come
from three places — the cache file, a fetch, and gossip — and each of the three entry points
verifies what it got and hands the result to `setControls`, which replaces the list and everything
that comes with it.

`encoding/json`, the signature scheme and the encryption of the cache file are parameters.  Of the
encryption it is used that decryption inverts it.
-/

set_option autoImplicit false

namespace TunnelCat.Discovery

/-- `manifestNode`. -/
structure ManifestNode where
  /-- `addr`. -/
  addr : String
  /-- The JSON of the other fields, which only the signature covers. -/
  rest : String
deriving DecidableEq, Repr

/-- `Notification`. -/
structure Notification where
  /-- `id`. -/
  id : String
  /-- `message`. -/
  message : String
  /-- `created_at`. -/
  createdAt : ℤ
deriving DecidableEq, Repr

/-- `signedManifest`; the maps are lists of their entries. -/
structure SignedManifest where
  /-- `type`. -/
  type : String
  /-- `ts`. -/
  ts : ℤ
  /-- `nodes`. -/
  nodes : List ManifestNode
  /-- `sig`. -/
  sig : String
  /-- `regions`. -/
  regions : List (String × String)
  /-- `notifications`. -/
  notifications : List Notification
  /-- `node_snis`. -/
  nodeSNIs : List (String × List String)
  /-- `excluded`. -/
  excluded : List String
  /-- `node_alt_udp_ports`. -/
  nodeAltUDPPorts : List (String × List ℤ)
deriving DecidableEq, Repr

/-- What a `Discoverer` calls that is not in this repository, and the encryption of its cache, which
depends on the platform. -/
structure Env where
  /-- `json.Unmarshal` into `signedManifest`. -/
  unmarshal : Bytes → Option SignedManifest
  /-- The text of its error. -/
  unmarshalError : Bytes → String
  /-- What `json.Unmarshal` of a document finds under `ts`, zero if nothing. -/
  unmarshalTS : Bytes → ℤ
  /-- `json.Marshal` of the type, the time stamp and the nodes. -/
  canonical : String → ℤ → List ManifestNode → Bytes
  /-- `base64.RawURLEncoding.DecodeString`. -/
  base64Decode : String → Option Bytes
  /-- `ed25519.Verify` of a public key, a message and a signature. -/
  ed25519Verify : Bytes → Bytes → Bytes → Bool
  /-- `nodeIDEncrypt`. -/
  encrypt : Bytes → Option Bytes
  /-- `nodeIDDecrypt`. -/
  decrypt : Bytes → Option Bytes
  /-- What was encrypted decrypts. -/
  decrypt_encrypt : ∀ plain enc, encrypt plain = some enc → decrypt enc = some plain

/-- How the current manifest was obtained. -/
inductive ManifestSource where
  | none | cached | fresh
deriving DecidableEq, Repr

/-- `Discoverer`. -/
structure Discoverer where
  /-- The public key of the arbiter; without one, signatures are not checked. -/
  pubkey : Option Bytes
  /-- The path of the cache file, empty for none. -/
  cacheFile : String
  /-- The URLs to fetch from. -/
  serverURLs : List String
  /-- The addresses of the control nodes. -/
  controls : List String
  /-- Advisory regions. -/
  regions : List (String × String)
  /-- Advisory server names. -/
  nodeSNIs : List (String × List String)
  /-- Advisory alternate ports. -/
  nodeAltUDPPorts : List (String × List ℤ)
  /-- Broadcast messages. -/
  notifications : List Notification
  /-- How the manifest was obtained. -/
  manifestSource : ManifestSource
  /-- Whether there is a callback for changes of the list. -/
  onChange : Bool
  /-- Whether there is a callback for notifications. -/
  onNotifications : Bool
  /-- Whether there is a callback for fetched manifests. -/
  onFetch : Bool
deriving DecidableEq, Repr

/-- A callback that is made. -/
inductive Effect where
  /-- `onChange`. -/
  | changed (addrs : List String)
  /-- `onNotifications`. -/
  | notified (ns : List Notification)
deriving DecidableEq, Repr

/-- What `Discoverer.verify` returns. -/
structure Verified where
  /-- The addresses that are to be used. -/
  addrs : List String
  /-- Regions. -/
  regions : List (String × String)
  /-- Notifications. -/
  notifications : List Notification
  /-- Server names. -/
  nodeSNIs : List (String × List String)
  /-- Alternate ports. -/
  nodeAltUDPPorts : List (String × List ℤ)
deriving DecidableEq, Repr

/-- The addresses of a manifest: those of its nodes that are neither empty nor excluded. -/
def SignedManifest.addrs (m : SignedManifest) : List String :=
  (m.nodes.map ManifestNode.addr).filter fun a ↦ a ≠ "" ∧ a ∉ m.excluded

namespace Discoverer

/-- Whether the signature of a manifest is right, as far as it is checked. -/
def signatureOk (E : Env) (pubkey : Option Bytes) (m : SignedManifest) : Bool :=
  match pubkey with
  | none => true
  | some key =>
    match E.base64Decode m.sig with
    | none => false
    | some sig => E.ed25519Verify key (E.canonical m.type m.ts m.nodes) sig

/-- `Discoverer.verify`. -/
def verify (E : Env) (d : Discoverer) (data : Bytes) : Outcome Verified :=
  match E.unmarshal data with
  | none => .err ("parse: " ++ E.unmarshalError data)
  | some m =>
    if m.type ≠ "manifest" then .err ("unexpected manifest type " ++ m.type.quote)
    else if !signatureOk E d.pubkey m then .err "signature verification failed"
    else if m.addrs = [] then .err "manifest contains no control nodes"
    else .ok ⟨m.addrs, m.regions, m.notifications, m.nodeSNIs, m.nodeAltUDPPorts⟩

/-- The URL of a control address. -/
def urlOf (a : String) : String := if a.startsWith "http" then a else "https://" ++ a

/-- `Discoverer.setControls`. -/
def setControls (d : Discoverer) (v : Verified) : Discoverer × List Effect :=
  ({ d with
      controls := v.addrs
      regions := v.regions
      notifications := v.notifications
      nodeSNIs := v.nodeSNIs
      nodeAltUDPPorts := v.nodeAltUDPPorts
      serverURLs := if v.addrs = [] then d.serverURLs else v.addrs.map urlOf },
    (if d.controls ≠ v.addrs ∧ d.onChange then [.changed v.addrs] else []) ++
      if v.notifications ≠ [] ∧ d.onNotifications then [.notified v.notifications] else [])

/-- The manifest in a document, if the document passes `verify`. -/
def accepted (E : Env) (d : Discoverer) (data : Bytes) : Option SignedManifest :=
  match d.verify E data with
  | .ok _ => E.unmarshal data
  | _ => none

theorem verify_eq_ok {E : Env} {d : Discoverer} {data : Bytes} {v : Verified}
    (h : d.verify E data = .ok v) :
    ∃ m, E.unmarshal data = some m ∧ d.accepted E data = some m ∧ v.addrs = m.addrs := by
  have hacc : d.accepted E data = E.unmarshal data := by rw [accepted, h]
  rw [verify] at h
  split at h
  · exact absurd h (by simp)
  · rename_i m hm
    refine ⟨m, hm, hacc.trans hm, ?_⟩
    split at h
    · exact absurd h (by simp)
    · split at h
      · exact absurd h (by simp)
      · split at h
        · exact absurd h (by simp)
        · rw [Outcome.ok.injEq] at h
          rw [← h]

theorem accepted_of_not_ok {E : Env} {d : Discoverer} {data : Bytes}
    (h : ∀ v, d.verify E data ≠ .ok v) : d.accepted E data = none := by
  rw [accepted]
  split
  · exact absurd ‹_› (h _)
  · rfl

/-- What passes depends on the key only. -/
theorem accepted_congr (E : Env) {d d' : Discoverer} (h : d.pubkey = d'.pubkey) (data : Bytes) :
    d.accepted E data = d'.accepted E data := by
  rw [accepted, accepted, verify, verify, h]

end Discoverer

end TunnelCat.Discovery
