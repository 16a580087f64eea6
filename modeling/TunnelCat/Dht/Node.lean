import TunnelCat.Dht.Closest
import TunnelCat.Dht.RelayStore

/-!
# A node of the DHT

The state of `dht.Node`, the handler of each of the sixteen message types, and the pings with their
timeouts.  A handler is a function from the state to the state and a list of `Effect`s, the
datagrams it sends and the callbacks it makes; what it reads from outside — the clock, the JSON
decoder, address parsing, signature checks, the order `sort.Slice` leaves equal keys in — is in
`Env` and in the arguments.

A ping that waits for its answer is two things in the source: an entry in the map `pendingPings` and
a goroutine that sleeps.  The goroutine does not notice when the entry is removed or overwritten, so
`timers` keeps all of them, and `expire` is what one does when it wakes up.

`rt_handlePacket` says once what an inbound packet does to the routing table, whatever its type: the
contact that was pinged at the source address is cleared, and the contacts in `learned` are added.
-/

set_option autoImplicit false

open Function

namespace TunnelCat.Dht

/-- What a node calls that is not in this repository. -/
structure Env extends SigLib where
  /-- The cipher. -/
  aead : ChaCha20Poly1305
  /-- The key all nodes share. -/
  key : Key
  /-- `sort.Slice` on contacts. -/
  sort : SortSlice Contact
  /-- `json.Unmarshal` into `FindNodePayload`. -/
  unmarshalFindNode : Bytes → Option FindNodePayload
  /-- `json.Unmarshal` into `NodesPayload`. -/
  unmarshalNodes : Bytes → Option NodesPayload
  /-- `json.Unmarshal` into `AnnouncePayload`. -/
  unmarshalAnnounce : Bytes → Option RelayEntry
  /-- `json.Unmarshal` into `RelayListPayload`. -/
  unmarshalRelayList : Bytes → Option (List RelayEntry)
  /-- `json.Unmarshal` into `ManifestHavePayload`. -/
  unmarshalManifestHave : Bytes → Option ℤ
  /-- `json.Unmarshal` into `ManifestPayload` or `ContentPayload`, which have the same fields. -/
  unmarshalManifest : Bytes → Option ManifestPayload
  /-- `json.Unmarshal` into `HolePunchPayload`. -/
  unmarshalHolePunch : Bytes → Option HolePunchPayload
  /-- `json.Unmarshal` into `ContentHavePayload`. -/
  unmarshalContentHave : Bytes → Option ContentHavePayload
  /-- `json.Unmarshal` into `MirrorPunchPayload`. -/
  unmarshalMirrorPunch : Bytes → Option String
  /-- `json.Unmarshal` into `peersFile`. -/
  unmarshalPeers : Bytes → Option (List ContactJSON)
  /-- Whether bytes are JSON text, without which a `json.RawMessage` does not marshal. -/
  validJSON : Bytes → Bool
  /-- `net.SplitHostPort`. -/
  splitHostPort : String → Option (String × String)
  /-- `net.ParseIP`, in the sixteen-byte form. -/
  parseIP : String → Option Bytes
  /-- `net.ResolveUDPAddr`; a UDP address is represented by its `String`. -/
  resolveUDPAddr : String → Option String

/-- A goroutine of `pingAddr` that waits for `pingTimeout`. -/
structure Timer where
  /-- The address that was pinged. -/
  addr : String
  /-- The contact that was found there. -/
  id : ID
deriving DecidableEq, Repr

/-- `completePeerEntry`, without the address it is kept under. -/
structure CompletePeer where
  /-- The manifest version the peer reported. -/
  ts : ℤ
  /-- Whether it has all of it. -/
  complete : Bool
  /-- When it said so. -/
  lastSeen : ℤ
deriving DecidableEq, Repr

/-- `dht.Node`. -/
structure Node where
  /-- Our identifier. -/
  id : ID
  /-- The address set by `SetOwnAddr`, empty if none was. -/
  ownAddr : String
  /-- `conn.LocalAddr()`. -/
  localAddr : String
  /-- The routing table. -/
  rt : RoutingTable
  /-- The relay entries. -/
  relays : RelayStore
  /-- `pendingPings`: the contact pinged at an address that has not been heard from since. -/
  pendingPings : String → Option ID
  /-- The sleeping goroutines of `pingAddr`, oldest first. -/
  timers : List Timer
  /-- The control manifest we gossip. -/
  manifestRaw : Bytes
  /-- Its time stamp. -/
  manifestTS : ℤ
  /-- Whether `SetManifestHandler` has been called. -/
  onManifest : Bool
  /-- The content manifest we gossip. -/
  contentRaw : Bytes
  /-- Its time stamp. -/
  contentTS : ℤ
  /-- Whether we have all of it. -/
  contentComplete : Bool
  /-- Whether `SetContentHandler` has been called. -/
  onContent : Bool
  /-- What peers last said about their content, by address. -/
  completePeers : String → Option CompletePeer
  /-- Whether `SetHolePunchHandler` has been called. -/
  holePunchHandler : Bool
  /-- Whether `SetMirrorPunchHandler` has been called. -/
  mirrorPunchHandler : Bool

/-- What a handler does to the outside. -/
inductive Effect where
  /-- A datagram to an address. -/
  | send (dst : String) (m : Message)
  /-- The manifest handler is called. -/
  | gotManifest (raw : Bytes)
  /-- The content handler is called. -/
  | gotContent (raw : Bytes)
  /-- The hole-punch handler is started. -/
  | punch (peer control : String)
  /-- The mirror-punch handler is started. -/
  | mirrorPunch (peer : String)
deriving DecidableEq, Repr

namespace Node

/-- `NewNode`, bound to a local address. -/
def new (id : ID) (localAddr : String) : Node where
  id := id
  ownAddr := ""
  localAddr := localAddr
  rt := .new id
  relays := []
  pendingPings := fun _ ↦ none
  timers := []
  manifestRaw := []
  manifestTS := 0
  onManifest := false
  contentRaw := []
  contentTS := 0
  contentComplete := false
  onContent := false
  completePeers := fun _ ↦ none
  holePunchHandler := false
  mirrorPunchHandler := false

/-- `Node.selfAddr`. -/
def selfAddr (n : Node) : String := if n.ownAddr ≠ "" then n.ownAddr else n.localAddr

end Node

/-! ## Contacts on the wire -/

/-- `ContactToJSON`. -/
def contactToJSON (c : Contact) : ContactJSON := ⟨c.id.toHex, c.addr⟩

/-- `ContactFromJSON` at the clock reading `now`. -/
def contactFromJSON (now : ℤ) (j : ContactJSON) : Option Contact :=
  (ID.parse j.id).map fun id ↦ ⟨id, j.addr, now, 0, false⟩

/-- `IP.IsUnspecified`, for an address in the sixteen-byte form. -/
def isUnspecified (ip : Bytes) : Bool :=
  ip = List.replicate 10 0 ++ [255, 255, 0, 0, 0, 0] ∨ ip = List.replicate 16 0

/-- `isValidContactAddr`. -/
def isValidContactAddr (E : Env) (addr : String) : Bool :=
  match E.splitHostPort addr with
  | none => false
  | some (host, _) =>
    match E.parseIP host with
    | none => false
    | some ip => !isUnspecified ip

/-- The contacts a FIND_NODE adds: its sender, unless the request does not parse. -/
def learnedFromFindNode (E : Env) (now : ℤ) (raw : Bytes) : List Contact :=
  match E.unmarshalFindNode raw with
  | none => []
  | some req =>
    match ID.parse req.target with
    | none => []
    | some _ => (contactFromJSON now req.fromContact).toList

/-- The contacts a NODES adds: its sender and those it lists, if their addresses are valid. -/
def learnedFromNodes (E : Env) (now : ℤ) (raw : Bytes) : List Contact :=
  match E.unmarshalNodes raw with
  | none => []
  | some resp =>
    (if resp.fromContact.id ≠ "" ∧ isValidContactAddr E resp.fromContact.addr then
      (contactFromJSON now resp.fromContact).toList else []) ++
    resp.nodes.filterMap fun j ↦
      if isValidContactAddr E j.addr then contactFromJSON now j else none

namespace Node

/-- `rt.Add` for several contacts in turn. -/
def addAll (n : Node) (cs : List Contact) : Node := { n with rt := cs.foldl RoutingTable.add n.rt }

/-! ## Handlers -/

/-- `Node.clearSuspectByAddr`. -/
def clearSuspectByAddr (n : Node) (src : String) : Node :=
  match n.pendingPings src with
  | none => n
  | some id => { n with
      pendingPings := update n.pendingPings src none
      rt := n.rt.resetMissed id }

/-- `Node.handlePing`. -/
def handlePing (n : Node) (src : String) : Node × List Effect := (n, [.send src .pong])

/-- `Node.handleFindNode`: the answer is computed from the table the sender is already in. -/
def handleFindNode (E : Env) (now : ℤ) (n : Node) (src : String) (raw : Bytes) :
    Node × List Effect :=
  let n' := n.addAll (learnedFromFindNode E now raw)
  match E.unmarshalFindNode raw with
  | none => (n', [])
  | some req =>
    match ID.parse req.target with
    | none => (n', [])
    | some target =>
      (n', [.send src (.nodes ⟨⟨n.id.toHex, n.selfAddr⟩,
        (n'.rt.nearest E.sort target K).map contactToJSON⟩)])

/-- `Node.handleNodes`. -/
def handleNodes (E : Env) (now : ℤ) (n : Node) (raw : Bytes) : Node × List Effect :=
  (n.addAll (learnedFromNodes E now raw), [])

/-- `time.Now().Unix()` for a clock reading in nanoseconds. -/
def unix (now : ℤ) : Int64 := Int64.ofInt (now / 1000000000)

/-- `Node.handleAnnounce`. -/
def handleAnnounce (E : Env) (now : ℤ) (n : Node) (src : String) (raw : Bytes) :
    Node × List Effect :=
  match E.unmarshalAnnounce raw with
  | none => (n, [])
  | some entry =>
    match n.relays.store E.toSigLib (unix now) entry with
    | (.ok (), relays) => ({ n with relays := relays }, [.send src .ack])
    | _ => (n, [])

/-- `Node.handleGetRelays`. -/
def handleGetRelays (now : ℤ) (n : Node) (src : String) : Node × List Effect :=
  (n, [.send src (.relayList (n.relays.all (unix now)))])

/-- `Node.handleRelayList`. -/
def handleRelayList (E : Env) (now : ℤ) (n : Node) (raw : Bytes) : Node × List Effect :=
  match E.unmarshalRelayList raw with
  | none => (n, [])
  | some entries =>
    ({ n with
      relays := entries.foldl (fun s e ↦ (RelayStore.store E.toSigLib (unix now) s e).2) n.relays },
      [])

/-- `Node.handleManifestHave`. -/
def handleManifestHave (E : Env) (n : Node) (src : String) (raw : Bytes) : Node × List Effect :=
  match E.unmarshalManifestHave raw with
  | none => (n, [])
  | some ts => (n, if ts > n.manifestTS then [.send src .manifestWant] else [])

/-- `Node.handleManifestWant`. -/
def handleManifestWant (E : Env) (n : Node) (src : String) : Node × List Effect :=
  (n, if n.manifestRaw ≠ [] ∧ E.validJSON n.manifestRaw then
    [.send src (.manifest ⟨n.manifestTS, n.manifestRaw⟩)] else [])

/-- `Node.handleManifestData`.  The time stamp that is compared is the sender's. -/
def handleManifestData (E : Env) (n : Node) (raw : Bytes) : Node × List Effect :=
  match E.unmarshalManifest raw with
  | none => (n, [])
  | some msg =>
    (n, if n.manifestTS < msg.ts ∧ n.onManifest then [.gotManifest msg.raw] else [])

/-- `Node.handleHolePunch`. -/
def handleHolePunch (E : Env) (n : Node) (raw : Bytes) : Node × List Effect :=
  if raw = [] then (n, [])
  else
    match E.unmarshalHolePunch raw with
    | none => (n, [])
    | some p =>
      (n, if p.peer ≠ "" ∧ n.holePunchHandler ∧ ¬ (p.control ≠ "" ∧ p.control = n.selfAddr) then
        [.punch p.peer p.control] else [])

/-- `Node.handleMirrorPunch`. -/
def handleMirrorPunch (E : Env) (n : Node) (raw : Bytes) : Node × List Effect :=
  if raw = [] then (n, [])
  else
    match E.unmarshalMirrorPunch raw with
    | none => (n, [])
    | some peer => (n, if peer ≠ "" ∧ n.mirrorPunchHandler then [.mirrorPunch peer] else [])

/-- `Node.handleContentHave`, with `completeStore.record`. -/
def handleContentHave (E : Env) (now : ℤ) (n : Node) (src : String) (raw : Bytes) :
    Node × List Effect :=
  match E.unmarshalContentHave raw with
  | none => (n, [])
  | some req =>
    ({ n with completePeers :=
        update n.completePeers src (some ⟨req.ts, req.complete, now⟩) },
      if req.ts > n.contentTS then [.send src .contentWant] else [])

/-- `Node.handleContentWant`. -/
def handleContentWant (E : Env) (n : Node) (src : String) : Node × List Effect :=
  (n, if n.contentRaw ≠ [] ∧ E.validJSON n.contentRaw then
    [.send src (.content ⟨n.contentTS, n.contentRaw⟩)] else [])

/-- `Node.handleContentData`. -/
def handleContentData (E : Env) (n : Node) (raw : Bytes) : Node × List Effect :=
  match E.unmarshalManifest raw with
  | none => (n, [])
  | some msg =>
    (n, if n.contentTS < msg.ts ∧ n.onContent then [.gotContent msg.raw] else [])

/-- The switch of `Node.handlePacket`. -/
def dispatch (E : Env) (now : ℤ) (n : Node) (src : String) (raw : Bytes) :
    MsgType → Node × List Effect
  | .ping => n.handlePing src
  | .pong => (n, [])
  | .findNode => n.handleFindNode E now src raw
  | .nodes => n.handleNodes E now raw
  | .announce => n.handleAnnounce E now src raw
  | .ack => (n, [])
  | .getRelays => n.handleGetRelays now src
  | .relayList => n.handleRelayList E now raw
  | .manifestHave => n.handleManifestHave E src raw
  | .manifestWant => n.handleManifestWant E src
  | .manifest => n.handleManifestData E raw
  | .holePunch => n.handleHolePunch E raw
  | .mirrorPunch => n.handleMirrorPunch E raw
  | .contentHave => n.handleContentHave E now src raw
  | .contentWant => n.handleContentWant E src
  | .content => n.handleContentData E raw

/-- `Node.handlePacket`: a datagram that does not open is dropped, any other one first clears the
contact that was pinged at its source. -/
def handlePacket (E : Env) (now : ℤ) (n : Node) (pkt : Bytes) (src : String) :
    Node × List Effect :=
  match openPacket E.aead E.key pkt with
  | .ok (code, _, raw) =>
    match MsgType.ofCode code with
    | some ty => (n.clearSuspectByAddr src).dispatch E now src raw ty
    | none => (n.clearSuspectByAddr src, [])
  | _ => (n, [])

/-! ## Pings -/

/-- `Node.pingAddr`: a ping is sent, and if a contact that is not suspect has this very address, it
is registered and a goroutine waits for its answer. -/
def pingAddr (E : Env) (n : Node) (addr : String) : Node × List Effect :=
  match E.resolveUDPAddr addr with
  | none => (n, [])
  | some raddr =>
    match (n.rt.nearest E.sort n.id (K * idBits)).find? (·.addr = addr) with
    | none => (n, [.send raddr .ping])
    | some c =>
      ({ n with
        pendingPings := update n.pendingPings addr (some c.id)
        timers := n.timers ++ [⟨addr, c.id⟩] }, [.send raddr .ping])

/-- What the goroutine of a ping does after `pingTimeout`: if a ping of this address is still
registered — its own or a later one — it is taken off and counted against the contact. -/
def expire (n : Node) (t : Timer) : Node :=
  match n.pendingPings t.addr with
  | none => n
  | some _ => { n with
      pendingPings := update n.pendingPings t.addr none
      rt := n.rt.markMissed t.id }

/-- `Node.SetManifest`. -/
def setManifest (n : Node) (raw : Bytes) (ts : ℤ) : Node :=
  if ts > n.manifestTS then { n with manifestRaw := raw, manifestTS := ts } else n

/-- `Node.SetContent`. -/
def setContent (n : Node) (raw : Bytes) (ts : ℤ) : Node :=
  if ts > n.contentTS then
    { n with contentRaw := raw, contentTS := ts, contentComplete := false }
  else n

/-- `Node.SetContentComplete`. -/
def setContentComplete (n : Node) (ts : ℤ) (complete : Bool) : Node :=
  if ts = n.contentTS then { n with contentComplete := complete } else n

/-- `Node.loadPeers`, with what reading the file gave and the decryption function: a file that does
not decrypt is taken for plaintext. -/
def loadPeers (E : Env) (now : ℤ) (decrypt : Bytes → Option Bytes) (n : Node)
    (file : Option Bytes) : Node :=
  match file with
  | none => n
  | some enc =>
    match E.unmarshalPeers ((decrypt enc).getD enc) with
    | none => n
    | some cs => n.addAll (cs.filterMap (contactFromJSON now))

/-! ## What a packet does to the table -/

/-- The contacts a message of a type adds. -/
def learnedFrom (E : Env) (now : ℤ) (raw : Bytes) : MsgType → List Contact
  | .findNode => learnedFromFindNode E now raw
  | .nodes => learnedFromNodes E now raw
  | _ => []

/-- The contacts a datagram adds. -/
def learned (E : Env) (now : ℤ) (pkt : Bytes) : List Contact :=
  match openPacket E.aead E.key pkt with
  | .ok (code, _, raw) => ((MsgType.ofCode code).map (learnedFrom E now raw)).getD []
  | _ => []

/-- Whether a datagram opens. -/
def opens (E : Env) (pkt : Bytes) : Bool :=
  match openPacket E.aead E.key pkt with
  | .ok _ => true
  | _ => false

/-- Contacts are learned from a FIND_NODE and from a NODES. -/
theorem mem_learned {E : Env} {now : ℤ} {pkt : Bytes} {c : Contact} (h : c ∈ learned E now pkt) :
    ∃ code ttl raw, openPacket E.aead E.key pkt = .ok (code, ttl, raw) ∧
      (MsgType.ofCode code = some .findNode ∧ c ∈ learnedFromFindNode E now raw ∨
        MsgType.ofCode code = some .nodes ∧ c ∈ learnedFromNodes E now raw) := by
  rw [learned] at h
  split at h
  · rename_i code ttl raw hopen
    refine ⟨code, ttl, raw, hopen, ?_⟩
    cases hty : MsgType.ofCode code with
    | none => simp [hty] at h
    | some ty =>
      rw [hty, Option.map_some, Option.getD_some] at h
      cases ty <;> simp only [learnedFrom, List.not_mem_nil] at h
      case findNode => exact .inl ⟨rfl, h⟩
      case nodes => exact .inr ⟨rfl, h⟩
  · exact absurd h List.not_mem_nil

theorem rt_dispatch (E : Env) (now : ℤ) (n : Node) (src : String) (raw : Bytes) (ty : MsgType) :
    (n.dispatch E now src raw ty).1.rt =
      (learnedFrom E now raw ty).foldl RoutingTable.add n.rt := by
  -- only two of the sixteen handlers add contacts
  cases ty <;>
    simp only [dispatch, learnedFrom, handleFindNode, handleAnnounce, handleRelayList,
      handleManifestHave, handleManifestData, handleHolePunch, handleMirrorPunch,
      handleContentHave, handleContentData] <;>
    (repeat' split) <;>
    rfl

/-- **What a packet does to the table**: a datagram that does not open does nothing; any other one
clears the contact registered at its source and adds the contacts it names. -/
theorem rt_handlePacket (E : Env) (now : ℤ) (n : Node) (pkt : Bytes) (src : String) :
    (n.handlePacket E now pkt src).1.rt =
      if opens E pkt then (learned E now pkt).foldl RoutingTable.add (n.clearSuspectByAddr src).rt
      else n.rt := by
  rw [handlePacket, opens, learned]
  rcases openPacket E.aead E.key pkt with ⟨code, ttl, raw⟩ | msg | _
  · cases hty : MsgType.ofCode code with
    | none => simp [hty]
    | some ty => simpa [hty] using rt_dispatch E now (n.clearSuspectByAddr src) src raw ty
  · rfl
  · rfl

/-- What a ping does: nothing, or it registers a contact of that address that is not suspect. -/
theorem pingAddr_cases (E : Env) (n : Node) (addr : String) :
    ((n.pingAddr E addr).1 = n ∧ (E.resolveUDPAddr addr = none ∨
      ∀ c ∈ n.rt.nearest E.sort n.id (K * idBits), c.addr ≠ addr)) ∨
    ∃ c ∈ n.rt.nearest E.sort n.id (K * idBits), c.addr = addr ∧
      (E.resolveUDPAddr addr).isSome ∧ (n.pingAddr E addr).1 = { n with
        pendingPings := update n.pendingPings addr (some c.id)
        timers := n.timers ++ [⟨addr, c.id⟩] } := by
  rw [pingAddr]
  split
  · rename_i h
    exact Or.inl ⟨rfl, Or.inl h⟩
  · rename_i raddr h
    split
    · rename_i hf
      refine Or.inl ⟨rfl, Or.inr fun c hc ↦ ?_⟩
      simpa using List.find?_eq_none.mp hf c hc
    · rename_i c hf
      refine Or.inr ⟨c, List.mem_of_find?_eq_some hf, ?_, by simp [h], rfl⟩
      simpa using List.find?_some hf

end Node

end TunnelCat.Dht
