import TunnelCat.Dht.NodeRuns

/-!
# Addresses in the routing table

A node hands the contacts of its table on to other nodes, so an address that reaches nobody — a
wildcard, or a name instead of an IP address — should not get into it.  `isValidContactAddr` is the
test for that, and there are four places where a contact is added: the sender of a FIND_NODE, the
sender of a NODES, the contacts a NODES lists, and the contacts of the peers file.  Only the two of
`handleNodes` make the test.

`Checked` says of a step that the contacts which the other two places add would have passed it.  If
every step of a run is like that, every address in the table is valid, and so is every address that
is listed in a NODES or that an announcement goes to.
-/

set_option autoImplicit false

open Trace

namespace TunnelCat.Dht.Node

open RoutingTable

/-! ## What adds contacts -/

/-- The contacts in a peers file. -/
def contactsInFile (E : Env) (now : ℤ) (decrypt : Bytes → Option Bytes) (file : Option Bytes) :
    List Contact :=
  match file with
  | none => []
  | some enc =>
    match E.unmarshalPeers ((decrypt enc).getD enc) with
    | none => []
    | some cs => cs.filterMap (contactFromJSON now)

theorem rt_loadPeers (E : Env) (now : ℤ) (decrypt : Bytes → Option Bytes) (n : Node)
    (file : Option Bytes) : (n.loadPeers E now decrypt file).rt =
      (contactsInFile E now decrypt file).foldl add n.rt := by
  cases file with
  | none => rfl
  | some enc =>
    simp only [loadPeers, contactsInFile]
    cases E.unmarshalPeers ((decrypt enc).getD enc) <;> rfl

/-- The contacts a datagram adds without a test of their addresses. -/
def untested (E : Env) (now : ℤ) (pkt : Bytes) : List Contact :=
  match openPacket E.aead E.key pkt with
  | .ok (code, _, raw) =>
    if MsgType.ofCode code = some .findNode then learnedFromFindNode E now raw else []
  | _ => []

/-- `Node.announce`, for the entry it announces: the contacts it is sent to, with the addresses
their addresses resolve to. -/
def announce (E : Env) (n : Node) (entry : Option RelayEntry) : List (Contact × String) :=
  match entry.bind fun e ↦ ID.parse e.nodeID with
  | none => []
  | some id => (n.rt.nearest E.sort id K).filterMap fun c ↦ (E.resolveUDPAddr c.addr).map (c, ·)

/-- What happens to a node, the loading of a peers file included. -/
inductive Arrival where
  /-- A datagram, a ping or a timeout. -/
  | event (e : Event)
  /-- `loadPeers` reads this file. -/
  | peers (now : ℤ) (decrypt : Bytes → Option Bytes) (file : Option Bytes)

/-- One step. -/
def arrive (E : Env) (n : Node) : Arrival → Option Node
  | .event e => n.step E e
  | .peers now decrypt file => some (n.loadPeers E now decrypt file)

/-- Contacts other than the node itself have valid addresses. -/
def HaveValidAddrs (E : Env) (n : Node) (cs : List Contact) : Prop :=
  ∀ c ∈ cs, c.id ≠ n.rt.self → isValidContactAddr E c.addr = true

/-- What is added without a test would have passed it. -/
def Checked (E : Env) (n : Node) : Arrival → Prop
  | .event (.packet now pkt _) => n.HaveValidAddrs E (untested E now pkt)
  | .event _ => True
  | .peers now decrypt file => n.HaveValidAddrs E (contactsInFile E now decrypt file)

instance (E : Env) (n : Node) (a : Arrival) : Decidable (n.Checked E a) :=
  match a with
  | .event (.packet _ _ _) | .peers _ _ _ => List.decidableBAll _ _
  | .event (.timeout _) | .event (.ping _) => isTrue trivial

/-- **The invariant**: every contact has a valid address. -/
structure Addressable (E : Env) (n : Node) : Prop where
  /-- The table is in order. -/
  valid : n.rt.Valid
  /-- The addresses. -/
  addr : ∀ c ∈ n.rt.all, isValidContactAddr E c.addr = true

/-! ## Each step keeps it -/

theorem self_foldl_add (rt : RoutingTable) (cs : List Contact) :
    (cs.foldl add rt).self = rt.self := by
  induction cs generalizing rt with
  | nil => rfl
  | cons c cs ih =>
    rw [List.foldl_cons, ih]
    exact self_apply rt (.add c)

variable {E : Env} {now : ℤ} {n : Node} {j : ContactJSON}

variable {c : Contact} {pkt : Bytes}

theorem addr_of_contactFromJSON (h : contactFromJSON now j = some c) :
    c.addr = j.addr := by
  rw [contactFromJSON, Option.map_eq_some_iff] at h
  obtain ⟨id, -, rfl⟩ := h
  rfl

/-- `handleNodes` tests what it adds. -/
theorem valid_of_mem_learnedFromNodes {raw : Bytes} (h : c ∈ learnedFromNodes E now raw) :
    isValidContactAddr E c.addr = true := by
  unfold learnedFromNodes at h
  split at h
  · exact absurd h List.not_mem_nil
  · rename_i resp hresp
    rcases List.mem_append.mp h with h | h
    · split at h
      · rename_i hvalid
        rw [addr_of_contactFromJSON (Option.mem_toList.mp h)]
        exact hvalid.2
      · exact absurd h List.not_mem_nil
    · obtain ⟨j, -, hj⟩ := List.mem_filterMap.mp h
      split at hj
      · rename_i hvalid
        rw [addr_of_contactFromJSON hj]
        exact hvalid
      · exact absurd hj (by simp)

theorem untested_or_valid (h : c ∈ learned E now pkt) :
    c ∈ untested E now pkt ∨ isValidContactAddr E c.addr = true := by
  obtain ⟨code, ttl, raw, hopen, ⟨hty, h⟩ | ⟨-, h⟩⟩ := mem_learned h
  · left
    rw [untested, hopen]
    dsimp only
    rw [if_pos hty]
    exact h
  · exact Or.inr (valid_of_mem_learnedFromNodes h)

theorem Addressable.addAll (h : n.Addressable E) {cs : List Contact} (hcs : n.HaveValidAddrs E cs) :
    (n.addAll cs).Addressable E := by
  have hv : (cs.foldl add n.rt).Valid := valid_foldl_add h.valid cs
  refine ⟨hv, fun c hc ↦ ?_⟩
  rcases mem_of_mem_foldl_add hc with hmem | hmem
  · refine hcs c hmem ?_
    rw [← self_foldl_add n.rt cs]
    exact ne_self hv hc
  · exact h.addr c hmem

theorem Addressable.clearSuspectByAddr (h : n.Addressable E) (src : String) :
    (n.clearSuspectByAddr src).Addressable E := by
  refine ⟨valid_clearSuspectByAddr h.valid src, fun c hc ↦ ?_⟩
  cases hp : n.pendingPings src with
  | none =>
    rw [Node.clearSuspectByAddr, hp] at hc
    exact h.addr c hc
  | some id =>
    rcases (mem_clearSuspectByAddr_of_registered h.valid hp).mp hc with ⟨hc, -⟩ | ⟨d, hd, -, rfl⟩
    · exact h.addr c hc
    · exact h.addr d hd

theorem self_clearSuspectByAddr (n : Node) (src : String) :
    (n.clearSuspectByAddr src).rt.self = n.rt.self := by
  rw [Node.clearSuspectByAddr]
  split
  · rfl
  · exact self_apply n.rt (.resetMissed _)

/-- **A packet keeps the addresses valid** if what it adds without a test would have passed it. -/
theorem Addressable.handlePacket (h : n.Addressable E)
    (hpkt : n.HaveValidAddrs E (untested E now pkt)) (src : String) :
    (n.handlePacket E now pkt src).1.Addressable E := by
  have hclear := h.clearSuspectByAddr src
  have hadd : (n.clearSuspectByAddr src).HaveValidAddrs E (learned E now pkt) := by
    intro c hc hself
    rw [self_clearSuspectByAddr] at hself
    exact (untested_or_valid hc).elim (fun hu ↦ hpkt c hu hself) fun hv ↦ hv
  have hrt := rt_handlePacket E now n pkt src
  have hall := hclear.addAll hadd
  split at hrt
  · exact ⟨hrt ▸ hall.valid, by rw [hrt]; exact hall.addr⟩
  · exact ⟨hrt ▸ h.valid, by rw [hrt]; exact h.addr⟩

theorem Addressable.expire (h : n.Addressable E) (t : Timer) :
    (n.expire t).Addressable E := by
  have hrt := rt_expire n t
  split at hrt
  · refine ⟨hrt ▸ h.valid.markMissed t.id, fun c hc ↦ ?_⟩
    rw [hrt] at hc
    rcases (mem_markMissed h.valid).mp hc with ⟨hc, -⟩ | ⟨d, hd, -, he⟩
    · exact h.addr c hc
    · rw [(Bucket.missed_eq_some.mp he).2]
      exact h.addr d hd
  · exact ⟨hrt ▸ h.valid, by rw [hrt]; exact h.addr⟩

theorem Addressable.arrive {n m : Node} {a : Arrival} (h : n.Addressable E) (hc : n.Checked E a)
    (hs : n.arrive E a = some m) : m.Addressable E := by
  cases a with
  | event e =>
    cases e with
    | packet now pkt src =>
      rw [Node.arrive, step, Option.some_inj] at hs
      exact hs ▸ h.handlePacket hc src
    | timeout i =>
      obtain ⟨t, -, rfl⟩ := Option.map_eq_some_iff.mp hs
      have hsame : Addressable E { n with timers := n.timers.eraseIdx i } := ⟨h.valid, h.addr⟩
      exact hsame.expire t
    | ping addr =>
      rw [Node.arrive, step, Option.some_inj] at hs
      subst hs
      exact ⟨by rw [rt_pingAddr]; exact h.valid, by rw [rt_pingAddr]; exact h.addr⟩
  | peers now decrypt file =>
    rw [Node.arrive, Option.some_inj] at hs
    subst hs
    have hall := h.addAll hc
    exact ⟨by rw [rt_loadPeers]; exact hall.valid, by rw [rt_loadPeers]; exact hall.addr⟩

/-! ## Where the addresses go -/

/-- The contacts a NODES lists are in the table. -/
theorem mem_all_of_handleFindNode {src dst : String} {raw : Bytes} {p : NodesPayload}
    (h : .send dst (.nodes p) ∈ (n.handleFindNode E now src raw).2) (hj : j ∈ p.nodes) :
    ∃ c ∈ (n.handleFindNode E now src raw).1.rt.all, j = contactToJSON c := by
  unfold handleFindNode at h ⊢
  split at h
  · exact absurd h List.not_mem_nil
  · rename_i req hreq
    split at h
    · exact absurd h List.not_mem_nil
    · rename_i target htarget
      simp only [List.mem_singleton, Effect.send.injEq, Message.nodes.injEq] at h
      obtain ⟨-, rfl⟩ := h
      obtain ⟨c, hc, rfl⟩ := List.mem_map.mp hj
      exact ⟨c, by simpa only [hreq, htarget] using (mem_nearest hc).1, rfl⟩

/-- Only a FIND_NODE is answered with a NODES. -/
theorem mem_all_of_nodes {src dst : String} {p : NodesPayload}
    (h : .send dst (.nodes p) ∈ (n.handlePacket E now pkt src).2) (hj : j ∈ p.nodes) :
    ∃ c ∈ (n.handlePacket E now pkt src).1.rt.all, j = contactToJSON c := by
  unfold handlePacket at h ⊢
  split at h
  · rename_i code ttl raw hopen
    split at h
    · rename_i ty hty
      cases ty
      case findNode => exact mem_all_of_handleFindNode h hj
      all_goals
        simp only [dispatch, handlePing, handleNodes, handleAnnounce, handleGetRelays,
          handleRelayList, handleManifestHave, handleManifestWant, handleManifestData,
          handleHolePunch, handleMirrorPunch, handleContentHave, handleContentWant,
          handleContentData] at h
        repeat' split at h
        all_goals simp at h
    · exact absurd h List.not_mem_nil
  · exact absurd h List.not_mem_nil

/-- **Addresses stay valid.**  In every run from an empty table in which whatever is added without a
test would have passed it, every contact in the table has a valid address; so has every contact that
is announced to, and every contact that is listed in the answer to a further packet of that kind. -/
theorem addressable_of_exec {E : Env} {id : ID} {localAddr : String} {as : List Arrival} {n : Node}
    (hrun : exec (arrive E) (Node.new id localAddr) as = some n)
    (hchecked : Along (arrive E) (Checked E) (Node.new id localAddr) as) :
    (∀ c ∈ n.rt.all, isValidContactAddr E c.addr = true) ∧
      (∀ entry, ∀ p ∈ n.announce E entry, isValidContactAddr E p.1.addr = true) ∧
      ∀ now pkt src, n.Checked E (.event (.packet now pkt src)) →
        ∀ dst p, .send dst (.nodes p) ∈ (n.handlePacket E now pkt src).2 →
          ∀ j ∈ p.nodes, isValidContactAddr E j.addr = true := by
  have hnew : (Node.new id localAddr).Addressable E :=
    ⟨valid_new id, by simp [Node.new, all, RoutingTable.new]⟩
  have hinv : n.Addressable E :=
    inv_of_exec_along (fun h hc hs ↦ Addressable.arrive h hc hs) hnew hchecked hrun
  refine ⟨hinv.addr, fun entry p hp ↦ ?_, fun now pkt src hc dst p hp j hj ↦ ?_⟩
  · unfold announce at hp
    split at hp
    · exact absurd hp List.not_mem_nil
    · obtain ⟨c, hc, hres⟩ := List.mem_filterMap.mp hp
      obtain ⟨addr, -, rfl⟩ := Option.map_eq_some_iff.mp hres
      exact hinv.addr c (mem_nearest hc).1
  · obtain ⟨c, hmem, rfl⟩ := mem_all_of_nodes hp hj
    exact (hinv.handlePacket hc src).addr c hmem

/-- A NODES and a peers file with valid addresses. -/
theorem addressable_of_exec_demo :
    ∃ n, exec (arrive demoEnv) (Node.new zeroID "198.51.100.1:4000")
        [.event (.packet 0 nodesPacket "198.51.100.7:4000"), .peers 0 some (some [])] = some n ∧
      n.rt.all = [peer] ∧ ∀ c ∈ n.rt.all, isValidContactAddr demoEnv c.addr = true := by
  have hrun : (exec (arrive demoEnv) (Node.new zeroID "198.51.100.1:4000")
      [.event (.packet 0 nodesPacket "198.51.100.7:4000"), .peers 0 some (some [])]).map
        (fun n ↦ n.rt.all) = some [peer] := by
    decide +kernel
  obtain ⟨n, hn, hall⟩ := Option.map_eq_some_iff.mp hrun
  exact ⟨n, hn, hall, (addressable_of_exec hn (by decide +kernel)).1⟩

/-- An environment in which a FIND_NODE comes from a node that listens on all interfaces and names
itself by its local address. -/
def wildcardEnv : Env := { demoEnv with
  unmarshalFindNode := fun _ ↦ some ⟨⟨peer.id.toHex, "0.0.0.0:4000"⟩, peer.id.toHex⟩
  splitHostPort := fun addr ↦
    some (if addr = "0.0.0.0:4000" then "0.0.0.0" else "192.0.2.1", "4000")
  parseIP := fun host ↦ some (List.replicate 10 0 ++
    (if host = "0.0.0.0" then [255, 255, 0, 0, 0, 0] else [255, 255, 192, 0, 2, 1])) }

/-- A FIND_NODE. -/
def findNodePacket : Bytes :=
  sealPacket nullAead zeroKey (Vector.replicate 12 0) noPadding MsgType.findNode.code 0 []

/-- **A wildcard address gets into the table**, and the answer hands it on. -/
theorem wildcard_contact :
    ∃ n, exec (arrive wildcardEnv) (Node.new zeroID "198.51.100.1:4000")
        [.event (.packet 0 findNodePacket "198.51.100.7:4000")] = some n ∧
      n.rt.all = [{ peer with addr := "0.0.0.0:4000" }] ∧
      isValidContactAddr wildcardEnv "0.0.0.0:4000" = false ∧
      ((Node.new zeroID "198.51.100.1:4000").handlePacket wildcardEnv 0 findNodePacket
        "198.51.100.7:4000").2 = [.send "198.51.100.7:4000" (.nodes
          ⟨⟨zeroID.toHex, "198.51.100.1:4000"⟩,
            [⟨peer.id.toHex, "0.0.0.0:4000"⟩]⟩)] := by
  refine ⟨_, rfl, ?_, ?_, ?_⟩
  all_goals decide +kernel

end TunnelCat.Dht.Node
