import TunnelCat.Lib.HostPort
import TunnelCat.Lib.Keyed
import TunnelCat.Lib.Trace
import TunnelCat.Router.BestPaths

/-!
# Relays, and the node itself

A node that is a relay for others finds itself among the relays.  `MergeDHTRelays` leaves out the
node whose id has been set with `SetSelfNodeID`, with the remark that we never route through
ourselves.  `BuildPaths` does not look at the id, so this is all there is: what holds of the paths
is what holds of the list of relays.

The list comes from `UpdateRelays` as well, which takes whatever it is given, and it may have been
filled before the id was known.  `never_through_self` is the property for runs in which neither
brings the node's own id into the list, and `through_self` has the two ways in which it fails.
-/

set_option autoImplicit false

open Trace

namespace TunnelCat

namespace Router

/-! ## Addresses -/

/-- `trimPrefix`. -/
def trimPrefix (s start : List Char) : List Char :=
  if start.isPrefixOf s then s.drop start.length else s

/-- `normaliseAddr`. -/
def normaliseAddr (addr : String) : String :=
  let addr := trimPrefix (trimPrefix addr.toList "https://".toList) "http://".toList
  let addr := addr.takeWhile (· ≠ '/')
  match HostPort.splitHostPort Marks.chars addr with
  | .ok _ => String.ofList addr
  | .error _ => String.ofList addr ++ ":443"

/-- The host of an address, or all of it if there is no port. -/
def operatorOf (addr : String) : String :=
  match HostPort.splitHostPort Marks.chars addr.toList with
  | .ok (host, _) => String.ofList host
  | .error _ => addr

/-! ## The relays on the paths -/

theorem topRelays_subset {E : Env} {r : Router} {now : ℤ} : r.topRelays E now ⊆ r.relays := by
  intro n hn
  have hlive : n ∈ r.liveRelays now := E.sort.mem_byKey.mp (List.mem_of_mem_take hn)
  unfold liveRelays at hlive
  dsimp only at hlive
  split at hlive
  · exact (List.mem_filter.mp hlive).1
  · exact (List.mem_filter.mp hlive).1

theorem relays_buildPaths (E : Env) (r : Router) (now : ℤ) :
    (r.buildPaths E now).relays = r.relays := by
  rw [buildPaths]
  split
  · rfl
  · rfl

/-- The relays on a path are on the list. -/
theorem mem_relays_of_mem_paths {E : Env} {r : Router} {now : ℤ} {p : RouterPath}
    (hp : p ∈ (r.buildPaths E now).paths) {n : RouterPathNode} (hn : n ∈ p.relays) :
    ∃ x ∈ r.relays, x.id = n.id := by
  obtain ⟨c, -, chain, hchain, rfl⟩ := candidate_of_mem_paths hp
  obtain ⟨x, hx, rfl⟩ := List.mem_map.mp hn
  exact ⟨x, topRelays_subset (hchain.subset hx), rfl⟩

end Router

/-- What the router reads of a `RelayEntry` or a `DHTRelayEntry`. -/
structure RelayListing where
  /-- `NodeID`. -/
  nodeID : String
  /-- `Addr`. -/
  addr : String
  /-- `CountryCode`. -/
  countryCode : String
  deriving DecidableEq, Repr

/-- A relay as it is put on the list. -/
def RelayListing.toNode (e : RelayListing) (now : ℤ) : RouterNode where
  id := e.nodeID
  addr := Router.normaliseAddr e.addr
  operatorID := Router.operatorOf e.addr
  countryCode := e.countryCode
  rtt := 0
  trafficRTT := 0
  lastSeen := now
  isAlive := true
  transport := .tcp

/-- A router that may know the id of the node it runs on. -/
structure Member extends Router where
  /-- `selfNodeID`, empty if it is not known. -/
  selfNodeID : String

namespace Member

variable (m : Member)

/-! ## The calls -/

/-- `SetSelfNodeID`. -/
def setSelfNodeID (id : String) : Member := { m with selfNodeID := id }

/-- `UpdateRelays`. -/
def updateRelays (now : ℤ) (relays : List RelayListing) : Member :=
  { m with relays := relays.map fun e ↦ e.toNode now }

/-- One entry of `MergeDHTRelays`. -/
def mergeRelay (now : ℤ) (relays : List RouterNode) (e : RelayListing) : List RouterNode :=
  if e.nodeID ∈ relays.map RouterNode.id then relays
  else if m.selfNodeID ≠ "" ∧ e.nodeID = m.selfNodeID then relays
  else relays ++ [e.toNode now]

/-- `MergeDHTRelays`. -/
def mergeDHTRelays (now : ℤ) (entries : List RelayListing) : Member :=
  { m with relays := entries.foldl (m.mergeRelay now) m.relays }

/-- `MarkRelayAlive`, for the first relay with this id or this address. -/
def markRelayAlive (now : ℤ) (id : String) : Member :=
  let relays := Keyed.updateFirst (fun n : RouterNode ↦ decide (n.id = id ∨ n.addr = id)) true
    (fun n ↦ some { n with isAlive := true, lastSeen := now }) m.relays
  { m with relays := relays }

/-- `BuildPaths`. -/
def buildPaths (E : Router.Env) (now : ℤ) : Member :=
  { m with toRouter := m.toRouter.buildPaths E now }

/-- The calls that change the relays, the node's own id or the paths. -/
inductive Call where
  /-- `SetSelfNodeID`. -/
  | setSelfNodeID (id : String)
  /-- `UpdateRelays`. -/
  | updateRelays (now : ℤ) (relays : List RelayListing)
  /-- `MergeDHTRelays`. -/
  | mergeDHTRelays (now : ℤ) (entries : List RelayListing)
  /-- `MarkRelayAlive`. -/
  | markRelayAlive (now : ℤ) (id : String)
  /-- `BuildPaths`. -/
  | buildPaths (E : Router.Env) (now : ℤ)

/-- One call.  None of them can fail. -/
def step : Call → Option Member
  | .setSelfNodeID id => some (m.setSelfNodeID id)
  | .updateRelays now relays => some (m.updateRelays now relays)
  | .mergeDHTRelays now entries => some (m.mergeDHTRelays now entries)
  | .markRelayAlive now id => some (m.markRelayAlive now id)
  | .buildPaths E now => some (m.buildPaths E now)

/-! ## The list of relays -/

/-- The node is not on its own list of relays. -/
def Excludes : Prop := m.selfNodeID ≠ "" → ∀ n ∈ m.relays, n.id ≠ m.selfNodeID

/-- The call does not bring the node's own id and a relay with this id together. -/
def Keeps : Call → Prop
  | .setSelfNodeID id => id ≠ "" → ∀ n ∈ m.relays, n.id ≠ id
  | .updateRelays _ relays => m.selfNodeID ≠ "" → ∀ e ∈ relays, e.nodeID ≠ m.selfNodeID
  | .mergeDHTRelays .. => True
  | .markRelayAlive .. => True
  | .buildPaths .. => True

variable {m} {m' : Member}

theorem mem_mergeRelays {now : ℤ} {entries : List RelayListing} {relays : List RouterNode}
    {n : RouterNode} (h : n ∈ entries.foldl (m.mergeRelay now) relays) :
    n ∈ relays ∨ (m.selfNodeID ≠ "" → n.id ≠ m.selfNodeID) := by
  induction entries generalizing relays with
  | nil => exact .inl h
  | cons e entries ih =>
    rcases ih h with hmem | hne
    · rw [mergeRelay] at hmem
      split at hmem
      · exact .inl hmem
      split at hmem
      · exact .inl hmem
      · rename_i hself
        rcases List.mem_append.mp hmem with hmem | hmem
        · exact .inl hmem
        · rw [List.mem_singleton.mp hmem]
          exact .inr fun hne hid ↦ hself ⟨hne, hid⟩
    · exact .inr hne

/-- What a call keeps. -/
theorem excludes_of_step {c : Call} (hm : m.Excludes) (hc : m.Keeps c) (h : m.step c = some m') :
    m'.Excludes := by
  cases c with
  | setSelfNodeID id =>
    cases h
    exact hc
  | updateRelays now relays =>
    cases h
    intro hself n hn
    obtain ⟨e, he, rfl⟩ := List.mem_map.mp hn
    exact hc hself e he
  | mergeDHTRelays now entries =>
    cases h
    intro hself n hn
    rcases mem_mergeRelays hn with hmem | hne
    · exact hm hself n hmem
    · exact hne hself
  | markRelayAlive now id =>
    cases h
    intro hself n hn
    rcases Keyed.mem_of_mem_updateFirst hn with hmem | ⟨x, hx, heq⟩
    · exact hm hself n hmem
    · rw [Option.some_inj] at heq
      subst heq
      exact hm hself x hx
  | buildPaths E now =>
    cases h
    intro hself n hn
    have hmem : n ∈ m.relays := Router.relays_buildPaths E m.toRouter now ▸ hn
    exact hm hself n hmem

/-! ## Whole runs -/

/-- **We never route through ourselves**, if the id is set while no relay with it is known, and no
list that replaces the relays later has it. -/
theorem never_through_self (m m' : Member) (cs : List Call) (E : Router.Env) (now : ℤ)
    (hnew : m.relays = []) (hkeeps : Along step Keeps m cs)
    (h : exec step m (cs ++ [.buildPaths E now]) = some m') (hself : m'.selfNodeID ≠ "") :
    ∀ p ∈ m'.paths, ∀ n ∈ p.relays, n.id ≠ m'.selfNodeID := by
  obtain ⟨u, hu, hlast⟩ := Trace.exec_append.mp h
  have hinit : m.Excludes := by
    intro _ n hn
    rw [hnew] at hn
    cases hn
  have hex : u.Excludes := inv_of_exec_along excludes_of_step hinit hkeeps hu
  obtain ⟨v, hv, hend⟩ := Trace.exec_cons_eq_some.mp hlast
  cases hv
  cases hend
  intro p hp n hn
  obtain ⟨x, hx, hid⟩ := Router.mem_relays_of_mem_paths hp hn
  exact hid ▸ hex hself x hx

/-- A new router with one control. -/
def demo : Member where
  relays := []
  controls := [⟨"c", "c:443", "c", "", 0, 0, 0, true, .tcp⟩]
  paths := []
  pathIdx := 0
  myCountry := ""
  dataDead _ := none
  udpPeers _ := none
  flaps _ := []
  selfNodeID := ""

/-- The id is set first, and the node finds itself in the DHT, and another. -/
def demoCalls : List Call :=
  [.setSelfNodeID "me", .mergeDHTRelays 0 [⟨"me", "192.0.2.1", ""⟩, ⟨"you", "192.0.2.2", ""⟩]]

/-- After these calls the paths do not lead through the node. -/
theorem never_through_self_demo :
    ∃ m', exec step demo (demoCalls ++ [.buildPaths .plain 0]) = some m' ∧
      m'.selfNodeID = "me" ∧ ∀ p ∈ m'.paths, ∀ n ∈ p.relays, n.id ≠ "me" := by
  have hkeeps : Along step Keeps demo demoCalls :=
    ⟨fun _ _ hn ↦ (nomatch hn), fun _ _ ↦ ⟨trivial, fun _ _ ↦ trivial⟩⟩
  exact ⟨_, rfl, rfl, never_through_self demo _ _ .plain 0 rfl hkeeps rfl (by decide)⟩

/-- The relays of the paths that are stored in the end. -/
def storedRelays (m : Member) (cs : List Call) : Option (String × List (List RouterPathNode)) :=
  (exec step m cs).map fun m ↦ (m.selfNodeID, m.paths.map RouterPath.relays)

/-- The node finds itself in the DHT before the id is set, or on the list of the control after it:
both times there is a path through it. -/
theorem through_self :
    storedRelays demo [.mergeDHTRelays 0 [⟨"me", "192.0.2.1", ""⟩], .setSelfNodeID "me",
      .buildPaths .plain 0] = some ("me", [[⟨"me", "192.0.2.1:443"⟩], []]) ∧
    storedRelays demo [.setSelfNodeID "me", .updateRelays 0 [⟨"me", "192.0.2.1", ""⟩],
      .buildPaths .plain 0] = some ("me", [[⟨"me", "192.0.2.1:443"⟩], []]) := by
  decide +kernel

end Member

end TunnelCat
