import TunnelCat.Dht.Node
import TunnelCat.Lib.Trace

/-!
# Runs of a node

The three things that happen to the routing table of a running node — a datagram arrives, a ping is
sent, the goroutine of a ping wakes up — as a step function, so that `Trace.exec` runs it.  The
invariant of the table holds along every run (`valid_exec`).  The membership lemmas say what a
packet leaves of a record.

The handler of a datagram is one step here.  In the source every datagram has its own goroutine; the
calls it makes on the table are the steps of `RoutingTable.run`, and the table is valid between any
two of them.
-/

set_option autoImplicit false

open Trace

namespace TunnelCat.Dht.Node

open Bucket (missed cleared)
open RoutingTable

/-- Whether a ping is registered at an address. -/
def registered (n : Node) (addr : String) : Bool := (n.pendingPings addr).isSome

/-! ## What a packet leaves of a record -/

variable {x : Contact} {n : Node}

theorem mem_of_mem_foldl_add {rt : RoutingTable} {cs : List Contact}
    (h : x ∈ (cs.foldl add rt).all) : x ∈ cs ∨ x ∈ rt.all := by
  induction cs generalizing rt with
  | nil => exact Or.inr h
  | cons c cs ih =>
    rcases ih h with hx | hx
    · exact Or.inl (by simp [hx])
    · rcases mem_of_mem_add hx with rfl | hx
      · exact Or.inl (by simp)
      · exact Or.inr hx

theorem valid_foldl_add {rt : RoutingTable} (hv : rt.Valid) (cs : List Contact) :
    (cs.foldl add rt).Valid := by
  induction cs generalizing rt with
  | nil => exact hv
  | cons c cs ih => exact ih (hv.add c)

theorem valid_clearSuspectByAddr (hv : n.rt.Valid) (src : String) :
    (n.clearSuspectByAddr src).rt.Valid := by
  rw [clearSuspectByAddr]
  split
  · exact hv
  · exact hv.resetMissed _

/-- A packet clears the contact that is registered at its source. -/
theorem mem_clearSuspectByAddr_of_registered (hv : n.rt.Valid) {src : String} {id : ID}
    (hid : n.pendingPings src = some id) :
    x ∈ (n.clearSuspectByAddr src).rt.all ↔
      (x ∈ n.rt.all ∧ x.id ≠ id) ∨ ∃ c ∈ n.rt.all, c.id = id ∧ cleared c = x := by
  rw [clearSuspectByAddr, hid]
  exact mem_resetMissed hv

/-- A packet leaves the other contacts alone. -/
theorem mem_clearSuspectByAddr_of_ne (hv : n.rt.Valid) {src : String}
    (hne : n.pendingPings src ≠ some x.id) :
    x ∈ (n.clearSuspectByAddr src).rt.all ↔ x ∈ n.rt.all := by
  cases hp : n.pendingPings src with
  | none => rw [clearSuspectByAddr, hp]
  | some id =>
    rw [hp, ne_eq, Option.some_inj] at hne
    rw [mem_clearSuspectByAddr_of_registered hv hp, and_iff_left (Ne.symm hne)]
    refine or_iff_left fun ⟨c, _, hid, he⟩ ↦ hne ?_
    rw [← he, cleared, hid]

/-! ## Runs of a node -/

/-- What can happen to a node. -/
inductive Event where
  /-- A datagram arrives from an address. -/
  | packet (now : ℤ) (pkt : Bytes) (src : String)
  /-- The goroutine at this position among the sleeping ones wakes up. -/
  | timeout (i : ℕ)
  /-- The maintenance loop pings an address. -/
  | ping (addr : String)

/-- One step of a node. -/
def step (E : Env) (n : Node) : Event → Option Node
  | .packet now pkt src => some (n.handlePacket E now pkt src).1
  | .timeout i => n.timers[i]?.map fun t ↦ expire { n with timers := n.timers.eraseIdx i } t
  | .ping addr => some (n.pingAddr E addr).1

theorem rt_pingAddr (E : Env) (n : Node) (addr : String) : (n.pingAddr E addr).1.rt = n.rt := by
  rcases pingAddr_cases E n addr with ⟨h, -⟩ | ⟨c, -, -, -, h⟩ <;> rw [h]

theorem rt_expire (n : Node) (t : Timer) :
    (n.expire t).rt = if n.registered t.addr then n.rt.markMissed t.id else n.rt := by
  rw [expire, registered]
  split
  · rename_i h
    simp [h]
  · rename_i h
    simp [h]

theorem valid_step {E : Env} {n m : Node} {e : Event} (hv : n.rt.Valid)
    (h : step E n e = some m) : m.rt.Valid := by
  cases e with
  | packet now pkt src =>
    rw [step, Option.some_inj] at h
    subst h
    rw [rt_handlePacket]
    split
    · exact valid_foldl_add (valid_clearSuspectByAddr hv src) _
    · exact hv
  | timeout i =>
    rw [step, Option.map_eq_some_iff] at h
    obtain ⟨t, -, rfl⟩ := h
    rw [rt_expire]
    split
    · exact hv.markMissed _
    · exact hv
  | ping addr =>
    rw [step, Option.some_inj] at h
    subst h
    rw [rt_pingAddr]
    exact hv

theorem valid_exec {E : Env} {n m : Node} {es : List Event} (hv : n.rt.Valid)
    (h : exec (step E) n es = some m) : m.rt.Valid :=
  Trace.inv_of_exec (P := fun n ↦ n.rt.Valid) valid_step hv h

/-! ## A history -/

/-- A PING, as any node can send it. -/
def pingPacket (E : Env) : Bytes :=
  sealPacket E.aead E.key (Vector.replicate 12 0) noPadding MsgType.ping.code 0 []

theorem open_pingPacket (E : Env) :
    openPacket E.aead E.key (pingPacket E) = .ok (MsgType.ping.code, maxTTL, []) :=
  openPacket_sealPacket _ _ _ _ _ _ (by simp [noPadding, maxPlaintext])

theorem learned_pingPacket (E : Env) (now : ℤ) : learned E now (pingPacket E) = [] := by
  rw [learned, open_pingPacket]
  simp [MsgType.ofCode_code, learnedFrom]

/-- A peer. -/
def peer : Contact := farContact 1

/-- The peer after one missed ping. -/
def suspectPeer : Contact := { peer with missedPings := 1, suspect := true }

/-- The peer at another address. -/
def movedPeer : Contact := { peer with addr := "192.0.2.2:4000" }

/-- An environment in which every NODES names the peer, at its second address if it has a body. -/
def demoEnv : Env where
  verify _ _ _ := false
  base64Decode _ := none
  hexError _ := ""
  aead := nullAead
  key := zeroKey
  sort := .insertion
  unmarshalFindNode _ := none
  unmarshalNodes raw := some ⟨⟨"", ""⟩, [contactToJSON (if raw = [] then peer else movedPeer)]⟩
  unmarshalAnnounce _ := none
  unmarshalRelayList _ := none
  unmarshalManifestHave _ := none
  unmarshalManifest _ := none
  unmarshalHolePunch _ := none
  unmarshalContentHave _ := none
  unmarshalMirrorPunch _ := none
  unmarshalPeers _ := none
  validJSON _ := false
  splitHostPort _ := some ("192.0.2.1", "4000")
  parseIP _ := some (List.replicate 10 0 ++ [255, 255, 192, 0, 2, 1])
  resolveUDPAddr := some

/-- A NODES. -/
def nodesPacket : Bytes :=
  sealPacket nullAead zeroKey (Vector.replicate 12 0) noPadding MsgType.nodes.code 0 []

/-- A third party names the peer, the peer is pinged and does not answer. -/
def demoHistory : List Event :=
  [.packet 0 nodesPacket "198.51.100.7:4000", .ping "192.0.2.1:4000", .timeout 0]

/-- The node after that. -/
def demoNode : Node :=
  (exec (step demoEnv) (Node.new zeroID "198.51.100.1:4000") demoHistory).getD
    (Node.new zeroID "198.51.100.1:4000")

theorem exec_demoHistory : exec (step demoEnv)
    (Node.new zeroID "198.51.100.1:4000") demoHistory = some demoNode := by
  have hsome : (exec (step demoEnv) (Node.new zeroID "198.51.100.1:4000")
      demoHistory).isSome = true := by decide +kernel
  obtain ⟨n, hn⟩ := Option.isSome_iff_exists.mp hsome
  rw [demoNode, hn, Option.getD_some]

theorem valid_demoNode : demoNode.rt.Valid :=
  valid_exec (valid_new _) exec_demoHistory

theorem all_demoNode : demoNode.rt.all = [suspectPeer] := by decide +kernel

theorem mem_demoNode : suspectPeer ∈ demoNode.rt.all := by simp [all_demoNode]

end TunnelCat.Dht.Node
