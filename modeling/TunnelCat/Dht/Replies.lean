import TunnelCat.Dht.NodeRuns
import TunnelCat.Lib.Json

/-!
# The size of a reply

A node reads a datagram into a buffer of 4096 bytes, and what does not fit is gone before `Open`
sees it.  The three replies whose size depends on what a node has stored — the relay list and the
two manifests — are sent as one datagram, whatever its size.

The datagram is twenty-eight bytes of nonce and tag, three bytes of header, up to fifteen bytes of
padding and the JSON text of the payload, so that it is sure to fit if the text has at most 4050
bytes.  `Small` puts that in terms of what is stored: the texts of the fresh relay entries with the
commas between them, and the time stamp and the compacted text of a manifest, have at most 4036
bytes.  Nothing in the node keeps them below that.
-/

set_option autoImplicit false

namespace TunnelCat.Dht

/-- `maxUDPSize`. -/
def maxUDPSize : ℕ := 4096

/-! ## Messages as datagrams -/

/-- The JSON text of a `ContactJSON`. -/
def ContactJSON.text (j : ContactJSON) : Bytes :=
  Json.object [("id", Json.str j.id), ("addr", Json.str j.addr)]

/-- The JSON text of a `RelayEntry`.  The country code is left out if it is empty. -/
def RelayEntry.text (e : RelayEntry) : Bytes :=
  Json.object ([("node_id", Json.str e.nodeID), ("addr", Json.str e.addr)] ++
    (if e.countryCode = "" then [] else [("country_code", Json.str e.countryCode)]) ++
    [("ts", Json.int e.ts.toInt), ("sig", Json.str e.sig)])

/-- The JSON text of a `ManifestPayload` or a `ContentPayload`. -/
def ManifestPayload.text (p : ManifestPayload) : Bytes :=
  Json.object [("ts", Json.int p.ts), ("raw", Json.raw p.raw)]

namespace Message

/-- The type a message is sent with. -/
def type : Message → MsgType
  | .ping => .ping
  | .pong => .pong
  | .findNode _ => .findNode
  | .nodes _ => .nodes
  | .ack => .ack
  | .relayList _ => .relayList
  | .manifestWant => .manifestWant
  | .manifest _ => .manifest
  | .contentWant => .contentWant
  | .content _ => .content

/-- The JSON text of the payload, empty if there is none. -/
def body : Message → Bytes
  | .ping | .pong | .ack | .manifestWant | .contentWant => []
  | .findNode p => Json.object [("from", p.fromContact.text), ("target", Json.str p.target)]
  | .nodes p =>
    Json.object [("from", p.fromContact.text), ("nodes", Json.array (p.nodes.map ContactJSON.text))]
  | .relayList es => Json.object [("entries", Json.array (es.map RelayEntry.text))]
  | .manifest p | .content p => p.text

/-- What `Seal` makes of a message, for the nonce and the padding it draws. -/
def datagram (E : Env) (nonce : Vector UInt8 12) (pad : {p : Bytes // p.length < 16})
    (m : Message) : Bytes :=
  sealPacket E.aead E.key nonce pad m.type.code maxTTL m.body

/-- What `recvLoop` hands on of a datagram. -/
def received (pkt : Bytes) : Bytes := pkt.take maxUDPSize

/-- A message that reaches the handler of a peer: its datagram fits into the buffer, and what was
read opens to what was sent. -/
structure Arrives (E : Env) (nonce : Vector UInt8 12) (pad : {p : Bytes // p.length < 16})
    (m : Message) : Prop where
  /-- It fits. -/
  length_le : (m.datagram E nonce pad).length ≤ maxUDPSize
  /-- It opens. -/
  opens : openPacket E.aead E.key (received (m.datagram E nonce pad)) =
    .ok (m.type.code, maxTTL, m.body)

theorem length_datagram (E : Env) (nonce : Vector UInt8 12) (pad : {p : Bytes // p.length < 16})
    (m : Message) : (m.datagram E nonce pad).length = 31 + pad.1.length + m.body.length := by
  rw [datagram, sealPacket, List.length_append, E.aead.length_seal, Vector.length_toList, overhead]
  simp only [List.length_cons, List.length_append]
  omega

/-- The longest padding. -/
def longPadding : {p : Bytes // p.length < 16} := ⟨List.replicate 15 0, by decide⟩

/-- **What fits**: with whatever padding, if and only if the JSON text has at most 4050 bytes. -/
theorem arrives_iff (E : Env) (m : Message) :
    (∀ nonce pad, m.Arrives E nonce pad) ↔ m.body.length ≤ 4050 := by
  refine ⟨fun h ↦ ?_, fun h nonce pad ↦ ?_⟩
  · have hlen := (h (Vector.replicate 12 0) longPadding).length_le
    rw [length_datagram, maxUDPSize] at hlen
    have hpad : longPadding.1.length = 15 := rfl
    omega
  · have hpad := pad.2
    have hlen : (m.datagram E nonce pad).length ≤ maxUDPSize := by
      rw [length_datagram, maxUDPSize]
      omega
    refine ⟨hlen, ?_⟩
    rw [received, List.take_of_length_le hlen]
    refine openPacket_sealPacket _ _ _ _ _ _ ?_
    rw [maxPlaintext]
    omega

theorem length_relayList (es : List RelayEntry) : (Message.relayList es).body.length =
    14 + (es.map fun e ↦ e.text.length).sum + (es.length - 1) := by
  have hname : (Json.str "entries").length = 9 := by decide
  rw [body, Json.object, List.map_singleton, Json.commaSep]
  simp only [List.length_cons, List.length_append, hname, Json.length_array, List.map_map,
    List.length_map, List.length_nil, Function.comp_def]
  omega

theorem length_manifest (p : ManifestPayload) :
    p.text.length = 14 + (Json.int p.ts).length + (Json.raw p.raw).length := by
  have hts : (Json.str "ts").length = 4 := by decide
  have hraw : (Json.str "raw").length = 5 := by decide
  rw [ManifestPayload.text, Json.object]
  simp only [List.map_cons, List.map_nil, Json.commaSep, List.length_cons, List.length_append, hts,
    hraw, List.length_nil]
  omega

end Message

/-! ## Replies -/

namespace Node

/-- What the three handlers send that answer with stored data. -/
def replies (E : Env) (now : ℤ) (n : Node) (src : String) : List Effect :=
  (n.handleGetRelays now src).2 ++ (n.handleManifestWant E src).2 ++ (n.handleContentWant E src).2

/-- A manifest that is small enough to be sent. -/
def SmallManifest (E : Env) (raw : Bytes) (ts : ℤ) : Prop :=
  raw ≠ [] → E.validJSON raw = true → (Json.int ts).length + (Json.raw raw).length ≤ 4036

/-- What is stored is small enough to be sent. -/
structure Small (E : Env) (now : ℤ) (n : Node) : Prop where
  /-- The texts of the relay entries that are fresh, and the commas between them. -/
  relays : ((n.relays.all (unix now)).map fun e ↦ e.text.length).sum +
    ((n.relays.all (unix now)).length - 1) ≤ 4036
  /-- The control manifest. -/
  manifest : SmallManifest E n.manifestRaw n.manifestTS
  /-- The content manifest. -/
  content : SmallManifest E n.contentRaw n.contentTS

/-- A manifest that is sent if it is there and is JSON. -/
theorem smallManifest_iff (E : Env) (raw : Bytes) (ts : ℤ) :
    (raw ≠ [] ∧ E.validJSON raw = true → (ManifestPayload.text ⟨ts, raw⟩).length ≤ 4050) ↔
      SmallManifest E raw ts := by
  rw [SmallManifest, and_imp, Message.length_manifest]
  refine imp_congr_right fun _ ↦ imp_congr_right fun _ ↦ ?_
  show 14 + (Json.int ts).length + (Json.raw raw).length ≤ 4050 ↔ _
  omega

/-- **When the replies arrive.**  In every state of a node: the relay list, the control manifest and
the content manifest it answers with fit into the buffer of the receiver and open there, whatever
nonce and padding are drawn, if and only if what is stored is small. -/
theorem replies_arrive_iff (E : Env) (now : ℤ) (n : Node) (src : String) :
    (∀ dst m, .send dst m ∈ n.replies E now src → ∀ nonce pad, m.Arrives E nonce pad) ↔
      n.Small E now := by
  have hsplit : (∀ dst m, .send dst m ∈ n.replies E now src → ∀ nonce pad, m.Arrives E nonce pad) ↔
      (Message.relayList (n.relays.all (unix now))).body.length ≤ 4050 ∧
        (n.manifestRaw ≠ [] ∧ E.validJSON n.manifestRaw = true →
          (ManifestPayload.text ⟨n.manifestTS, n.manifestRaw⟩).length ≤ 4050) ∧
        (n.contentRaw ≠ [] ∧ E.validJSON n.contentRaw = true →
          (ManifestPayload.text ⟨n.contentTS, n.contentRaw⟩).length ≤ 4050) := by
    simp only [Message.arrives_iff, replies, handleGetRelays, handleManifestWant,
      handleContentWant, List.mem_append]
    refine ⟨fun h ↦ ⟨h src _ (Or.inl (Or.inl (by simp))), fun hm ↦ ?_, fun hc ↦ ?_⟩, ?_⟩
    · exact h src (.manifest ⟨n.manifestTS, n.manifestRaw⟩)
        (Or.inl (Or.inr (by rw [if_pos hm]; simp)))
    · exact h src (.content ⟨n.contentTS, n.contentRaw⟩) (Or.inr (by rw [if_pos hc]; simp))
    · rintro ⟨hr, hm, hc⟩ dst m ((hmem | hmem) | hmem)
      · obtain ⟨-, rfl⟩ := Effect.send.inj (List.mem_singleton.mp hmem)
        exact hr
      · split at hmem
        · rename_i hcond
          obtain ⟨-, rfl⟩ := Effect.send.inj (List.mem_singleton.mp hmem)
          exact hm hcond
        · exact absurd hmem List.not_mem_nil
      · split at hmem
        · rename_i hcond
          obtain ⟨-, rfl⟩ := Effect.send.inj (List.mem_singleton.mp hmem)
          exact hc hcond
        · exact absurd hmem List.not_mem_nil
  rw [hsplit, smallManifest_iff, smallManifest_iff, Message.length_relayList]
  refine ⟨fun h ↦ ⟨by omega, h.2.1, h.2.2⟩, fun h ↦ ⟨?_, h.manifest, h.content⟩⟩
  have := h.relays
  omega

/-! ## A reply that does not fit -/

/-- A manifest with five thousand bytes in it. -/
def longManifest : Bytes :=
  Json.utf8 "\x7b\"type\":\"manifest\",\"ts\":1,\"nodes\":[],\"sig\":\"" ++
    (List.replicate 5000 65 ++ Json.utf8 "\"\x7d")

theorem length_raw_longManifest : 5000 ≤ (Json.raw longManifest).length := by
  refine le_trans ?_ (Json.countP_le_length_raw longManifest)
  rw [longManifest, List.countP_append, List.countP_append, List.countP_replicate,
    if_pos (by decide)]
  omega

/-- An environment in which the manifest is JSON. -/
def jsonEnv : Env := { demoEnv with validJSON := fun _ ↦ true }

/-- A node after `SetManifest`. -/
def loadedNode : Node :=
  (Node.new RoutingTable.zeroID "198.51.100.1:4000").setManifest longManifest 1

/-- **A manifest that never arrives**: once it has been set, the datagram that a MANIFEST_WANT is
answered with has more than 4096 bytes, with any nonce and padding. -/
theorem manifest_too_long :
    (loadedNode.handleManifestWant jsonEnv "198.51.100.7:4000").2 =
        [.send "198.51.100.7:4000" (.manifest ⟨1, longManifest⟩)] ∧
      ∀ nonce pad, maxUDPSize <
        ((Message.manifest ⟨1, longManifest⟩).datagram jsonEnv nonce pad).length := by
  have hset : loadedNode.manifestRaw = longManifest ∧ loadedNode.manifestTS = 1 := ⟨rfl, rfl⟩
  have hlen := length_raw_longManifest
  refine ⟨?_, fun nonce pad ↦ ?_⟩
  · have hne : longManifest ≠ [] := by
      intro hnil
      rw [hnil] at hlen
      exact absurd hlen (by decide)
    rw [handleManifestWant, hset.1, hset.2, if_pos ⟨hne, rfl⟩]
  · have htext := Message.length_manifest ⟨1, longManifest⟩
    dsimp only at htext
    rw [Message.length_datagram, Message.body, htext, maxUDPSize]
    omega

end Node

end TunnelCat.Dht
