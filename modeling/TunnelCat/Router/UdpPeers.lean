import TunnelCat.Relay.Conn
import TunnelCat.Router.Degradation

/-!
# Live UDP connections

A router keeps the UDP connections to its peers in a map, under the id of a peer or under its
address.  A path whose first relay has one is handed out with the connection and with a score that
is 30 ms lower, which is called a bonus for a live connection.

Whether it is live is asked by `HasUDPPeer` only.  It looks under the id, and whether the connection
that is there has failed.  `udpPeer`, which the paths are built with, looks under the id and then
under the address, and does not ask.  A connection that fails stays in the map until somebody
removes it.  `pathLive_iff` says for which contents of the map and which states of the connections
the two agree on a path.
-/

set_option autoImplicit false

namespace TunnelCat

/-- A router with the connections that are registered with it. -/
structure Linked extends Router where
  /-- The state of each connection. -/
  conns : ℕ → Relay.Conn

namespace Linked

open Router

variable (s : Linked)

/-! ## The registry -/

/-- `RegisterUDPPeer`: what was registered under the key before is closed. -/
def registerUDPPeer (key : String) (c : ℕ) : Linked :=
  { s with
    udpPeers := Function.update s.udpPeers key (some c)
    conns :=
      match s.udpPeers key with
      | some old => Function.update s.conns old { s.conns old with stopped := true }
      | none => s.conns }

/-- `HasUDPPeer`. -/
def hasUDPPeer (nodeID : String) : Bool :=
  match s.udpPeers nodeID with
  | some c => !(s.conns c).failed
  | none => false

/-! ## Paths -/

/-- The score a path would have without UDP connections. -/
def plainScore (E : Env) (now : ℤ) (p : RouterPath) : ℤ :=
  (Router.scorePath { s.toRouter with udpPeers := fun _ ↦ none } now p
    (s.eligibleControls E now) (s.topRelays E now)).1

/-- What is expected of a path that is stored. -/
structure PathLive (E : Env) (now : ℤ) (p : RouterPath) : Prop where
  /-- Its connection is registered for its first relay. -/
  registered : ∀ c, p.udpRelay = some c →
    ∃ rn, p.relays.head? = some rn ∧ (s.udpPeers rn.id = some c ∨ s.udpPeers rn.addr = some c)
  /-- Its connection has not failed. -/
  live : ∀ c, p.udpRelay = some c → (s.conns c).failed = false
  /-- It has no bonus without such a connection. -/
  bonus : p.score ≠ s.plainScore E now p → ∃ c, p.udpRelay = some c ∧ (s.conns c).failed = false
  /-- It has a connection exactly if `HasUDPPeer` says so of its first relay. -/
  agrees : p.udpRelay.isSome = true ↔
    ∃ rn, p.relays.head? = some rn ∧ s.hasUDPPeer rn.id = true

variable {s} {E : Env} {now : ℤ} {p : RouterPath}

/-- The connection of a path that is stored, and its bonus. -/
theorem udpRelay_of_mem_paths (hp : p ∈ (s.toRouter.buildPaths E now).paths) :
    p.udpRelay = (p.relays.head?.bind fun rn ↦ s.udpPeer rn.id rn.addr) ∧
      p.score = s.plainScore E now p - if p.udpRelay.isSome then 30 else 0 := by
  obtain ⟨c, -, chain, -, rfl⟩ := candidate_of_mem_paths hp
  refine ⟨rfl, ?_⟩
  have hplain : ∀ l : List RouterPathNode, (l.head?.bind fun rn ↦
      Router.udpPeer { s.toRouter with udpPeers := fun _ ↦ none } rn.id rn.addr) = none := by
    intro l
    cases l.head? with
    | none => rfl
    | some rn => rfl
  rw [plainScore, scorePath]
  dsimp only
  rw [hplain, Option.isSome_none, if_neg Bool.false_ne_true, Int.sub_zero]
  rfl

/-- What is found for the first relay of a path. -/
theorem udpPeer_eq_some_iff {id addr : String} {c : ℕ} :
    s.udpPeer id addr = some c ↔
      s.udpPeers id = some c ∨ s.udpPeers id = none ∧ s.udpPeers addr = some c := by
  rw [udpPeer, Option.orElse_eq_orElse, Option.orElse_eq_or, Option.or_eq_some_iff]

theorem hasUDPPeer_eq_true_iff {id : String} :
    s.hasUDPPeer id = true ↔ ∃ c, s.udpPeers id = some c ∧ (s.conns c).failed = false := by
  rw [hasUDPPeer]
  cases s.udpPeers id with
  | none =>
    refine ⟨fun h ↦ absurd h Bool.false_ne_true, ?_⟩
    rintro ⟨_, h, -⟩
    cases h
  | some c =>
    dsimp only
    rw [Bool.not_eq_true']
    refine ⟨fun h ↦ ⟨c, rfl, h⟩, ?_⟩
    rintro ⟨_, h, hlive⟩
    cases h
    exact hlive

/-- Nothing that has failed is registered under the id of a relay, and nothing is under its address
if nothing is under its id. -/
structure Sound (s : Linked) (rn : RouterPathNode) : Prop where
  live : ∀ c, s.udpPeers rn.id = some c → (s.conns c).failed = false
  byId : s.udpPeers rn.id = none → s.udpPeers rn.addr = none

/-- What is found for such a relay is what `HasUDPPeer` asks about. -/
theorem Sound.found {rn : RouterPathNode} (h : s.Sound rn) {c : ℕ}
    (hc : s.udpPeer rn.id rn.addr = some c) :
    s.udpPeers rn.id = some c ∧ (s.conns c).failed = false := by
  rcases udpPeer_eq_some_iff.mp hc with hid | ⟨hid, haddr⟩
  · exact ⟨hid, h.live c hid⟩
  · rw [h.byId hid] at haddr
    cases haddr

/-- **When a path carries a live connection only**: nothing that has failed is registered under the
id of its first relay, and nothing under the address only. -/
theorem pathLive_iff (s : Linked) (E : Env) (now : ℤ) (p : RouterPath)
    (hp : p ∈ (s.toRouter.buildPaths E now).paths) :
    s.PathLive E now p ↔ ∀ rn, p.relays.head? = some rn → s.Sound rn := by
  obtain ⟨hrelay, hscore⟩ := udpRelay_of_mem_paths hp
  refine ⟨fun h rn hrn ↦ ?_, fun h ↦ ?_⟩
  · have hcarried : p.udpRelay = s.udpPeer rn.id rn.addr := by rw [hrelay, hrn, Option.bind_some]
    refine ⟨fun c hc ↦ h.live c (hcarried.trans (udpPeer_eq_some_iff.mpr (.inl hc))), fun hid ↦ ?_⟩
    by_contra haddr
    obtain ⟨c, hc⟩ := Option.ne_none_iff_exists'.mp haddr
    obtain ⟨rn', hrn', hhas⟩ := h.agrees.mp
      (by rw [hcarried, udpPeer_eq_some_iff.mpr (.inr ⟨hid, hc⟩)]; rfl)
    rw [hrn, Option.some_inj] at hrn'
    obtain ⟨d, hd, -⟩ := hasUDPPeer_eq_true_iff.mp (hrn' ▸ hhas)
    rw [hid] at hd
    cases hd
  · have hfound : ∀ c, p.udpRelay = some c → ∃ rn, p.relays.head? = some rn ∧
        s.udpPeers rn.id = some c ∧ (s.conns c).failed = false := by
      intro c hc
      rw [hrelay, Option.bind_eq_some_iff] at hc
      obtain ⟨rn, hrn, hpeer⟩ := hc
      exact ⟨rn, hrn, (h rn hrn).found hpeer⟩
    refine ⟨fun c hc ↦ ?_, fun c hc ↦ ?_, fun hbonus ↦ ?_, ?_, ?_⟩
    · obtain ⟨rn, hrn, hid, -⟩ := hfound c hc
      exact ⟨rn, hrn, .inl hid⟩
    · obtain ⟨rn, hrn, -, hlive⟩ := hfound c hc
      exact hlive
    · cases hc : p.udpRelay with
      | none =>
        rw [hc, Option.isSome_none, if_neg Bool.false_ne_true, Int.sub_zero] at hscore
        exact absurd hscore hbonus
      | some c =>
        obtain ⟨rn, hrn, -, hlive⟩ := hfound c hc
        exact ⟨c, rfl, hlive⟩
    · intro hsome
      obtain ⟨c, hc⟩ := Option.isSome_iff_exists.mp hsome
      obtain ⟨rn, hrn, hid, hlive⟩ := hfound c hc
      exact ⟨rn, hrn, hasUDPPeer_eq_true_iff.mpr ⟨c, hid, hlive⟩⟩
    · rintro ⟨rn, hrn, hhas⟩
      obtain ⟨c, hid, -⟩ := hasUDPPeer_eq_true_iff.mp hhas
      rw [hrelay, hrn, Option.bind_some, udpPeer_eq_some_iff.mpr (.inl hid)]
      rfl

/-- A control and a relay, with a connection registered for the relay. -/
def demo : Linked :=
  registerUDPPeer
    { toRouter := demoRouter "" [demoControl "a" "" 50 .tcp] [demoControl "b" "" 40 .tcp]
      conns := fun _ ↦ Relay.Conn.new "" }
    "b" 0

/-- The path over the relay. -/
def demoPath : RouterPath := ⟨[⟨"b", "b:443"⟩], "a:443", 70, some 0⟩

theorem pathLive_iff_demo :
    demoPath ∈ (demo.toRouter.buildPaths .plain 0).paths ∧ demo.PathLive .plain 0 demoPath := by
  have hp : demoPath ∈ (demo.toRouter.buildPaths .plain 0).paths := by decide +kernel
  refine ⟨hp, (pathLive_iff demo .plain 0 demoPath hp).mpr ?_⟩
  intro rn hrn
  cases hrn
  exact ⟨fun _ hc ↦ by cases hc; rfl, fun hid ↦ by cases hid⟩

/-- The connection has failed. -/
def demoFailed : Linked :=
  { demo with conns := fun _ ↦ (Relay.Conn.new "").markFailed }

/-- The path carries it all the same, with the bonus, and `HasUDPPeer` says that there is none. -/
theorem failed_udpRelay_kept :
    demoPath ∈ (demoFailed.toRouter.buildPaths .plain 0).paths ∧
      demoPath.udpRelay = some 0 ∧ (demoFailed.conns 0).failed = true ∧
      demoPath.score = demoFailed.plainScore .plain 0 demoPath - 30 ∧
      demoFailed.hasUDPPeer "b" = false := by
  decide +kernel

end Linked

end TunnelCat
