import TunnelCat.Lib.Selection

/-!
# Paths to a control node

A router knows relays and control nodes, and what has been measured of them.  `BuildPaths` picks the
control nodes and the relays to be used, lists all paths over at most three of the relays to one of
the control nodes, gives each a score and keeps the best five.

A call is taken to happen at one instant, and under one state of what other locks guard: the stream
evictions and the connected UDP peers.  The fields `udpDataFailed` and `selfNodeID` of the router,
and the loss of a node, which nothing ever measures, are not part of the model; so scores are whole
numbers of milliseconds.  What the program does with chance, or leaves to the library, is an
argument: `Env` is how floats are rounded when two measurements are blended, where a sort that is
not stable puts elements with equal keys, and how paths are shuffled.
-/

set_option autoImplicit false

namespace TunnelCat

/-- `controlTransport`. -/
inductive ControlTransport where
  /-- `transportTCP`. -/
  | tcp
  /-- `transportUDP`. -/
  | udp
  deriving DecidableEq, Repr

/-- `routerNode`.  Times are in nanoseconds. -/
structure RouterNode where
  /-- `ID`. -/
  id : String
  /-- `Addr`. -/
  addr : String
  /-- `OperatorID`. -/
  operatorID : String
  /-- `CountryCode`. -/
  countryCode : String
  /-- `RTT`, 0 if it is not measured. -/
  rtt : ℤ
  /-- `TrafficRTT`, 0 if it is not measured. -/
  trafficRTT : ℤ
  /-- `LastSeen`. -/
  lastSeen : ℤ
  /-- `IsAlive`. -/
  isAlive : Bool
  /-- `transport`. -/
  transport : ControlTransport
  deriving DecidableEq, Repr

/-- `RouterPathNode`. -/
structure RouterPathNode where
  /-- `ID`. -/
  id : String
  /-- `Addr`. -/
  addr : String
  deriving DecidableEq, Repr

/-- `RouterPath`. -/
structure RouterPath where
  /-- `Relays`. -/
  relays : List RouterPathNode
  /-- `ControlAddr`. -/
  controlAddr : String
  /-- `Score`. -/
  score : ℤ
  /-- `UDPRelay`: which connection, if there is one. -/
  udpRelay : Option ℕ
  deriving DecidableEq, Repr

/-- `Router`. -/
structure Router where
  /-- `relays`. -/
  relays : List RouterNode
  /-- `controls`. -/
  controls : List RouterNode
  /-- `paths`. -/
  paths : List RouterPath
  /-- `pathIdx`. -/
  pathIdx : ℕ
  /-- `myCountry`, empty for no filter. -/
  myCountry : String
  /-- `dataDead`. -/
  dataDead : String → Option ℤ
  /-- `udpPeers`: which connection is registered under an id or an address. -/
  udpPeers : String → Option ℕ
  /-- `flaps`. -/
  flaps : String → List ℤ

namespace Router

/-- What the router does not decide. -/
structure Env where
  /-- `time.Duration(0.3*float64(probe) + 0.7*float64(traffic))`. -/
  blend : ℤ → ℤ → ℤ
  /-- `sort.Slice` of nodes. -/
  sort : SortSlice RouterNode
  /-- `rand.Shuffle` of paths. -/
  shuffle : List RouterPath → List RouterPath
  /-- Shuffling loses nothing and adds nothing. -/
  shuffle_perm : ∀ l, (shuffle l).Perm l

variable (E : Env) (r : Router) (now : ℤ)

/-! ## Scores -/

/-- A number of seconds. -/
def seconds (n : ℤ) : ℤ := n * 1000000000

/-- `Duration.Milliseconds`. -/
def milliseconds (d : ℤ) : ℤ := d.tdiv 1000000

/-- `flapWindow`. -/
def flapWindow : ℤ := seconds 300

/-- `alive`. -/
def alive (n : RouterNode) : Bool :=
  if !n.isAlive || seconds 30 ≤ now - n.lastSeen then false
  else
    match r.dataDead n.addr with
    | some exp => !(now < exp)
    | none => true

/-- `flapPenaltyOf`: 200 for each eviction in the window, and 2000 at most. -/
def flapPenaltyOf (addr : String) : ℤ :=
  let cutoff := now - flapWindow
  let count := (r.flaps addr).countP fun t ↦ cutoff ≤ t
  min (count * 200) 2000

/-- `nodeScore`. -/
def nodeScore (n : RouterNode) : ℤ :=
  let rtt :=
    if 0 < n.trafficRTT ∧ 0 < n.rtt then E.blend n.rtt n.trafficRTT
    else if 0 < n.trafficRTT then n.trafficRTT
    else n.rtt
  milliseconds rtt + r.flapPenaltyOf now n.addr

/-- `instabilityPenalty`. -/
def instabilityPenalty (n : RouterNode) : ℤ :=
  let since := now - n.lastSeen
  if seconds 15 < since then 100 else if seconds 5 < since then 20 else 0

/-- `udpPeer`. -/
def udpPeer (id addr : String) : Option ℕ := r.udpPeers id <|> r.udpPeers addr

/-- What a node adds to the score of a path. -/
def contribution (n : Option RouterNode) : ℤ :=
  match n with
  | some n => milliseconds n.rtt + instabilityPenalty now n
  | none => 0

/-- `scorePath`: the score, and the UDP connection to the first relay.  Nodes are looked up by the
address and by the id. -/
def scorePath (p : RouterPath) (controls live : List RouterNode) : ℤ × Option ℕ :=
  let ctrl := controls.find? fun c ↦ c.addr = p.controlAddr
  let hop (s : ℤ) (rn : RouterPathNode) :=
    s + contribution now (live.find? fun n ↦ n.id = rn.id) + 10
  let uc := p.relays.head?.bind fun rn ↦ r.udpPeer rn.id rn.addr
  (p.relays.foldl hop (contribution now ctrl) - (if uc.isSome then 30 else 0), uc)

/-! ## Controls and relays -/

/-- The controls that are alive, split by country: those to be used, and those to fall back on. -/
def splitByCountry : List RouterNode × List RouterNode :=
  let aliveControls := r.controls.filter (r.alive now)
  if r.myCountry = "" then (aliveControls, [])
  else
    let inCountry := aliveControls.filter fun c ↦ c.countryCode = r.myCountry
    let outOfCountry := aliveControls.filter fun c ↦ c.countryCode ≠ r.myCountry
    if inCountry ≠ [] then (inCountry, outOfCountry) else (aliveControls, [])

/-- The controls that can be reached by TCP. -/
def tcpOnly (cs : List RouterNode) : List RouterNode := cs.filter fun c ↦ c.transport = .tcp

/-- The controls after the filters: those of the country if there are any, of these those that can
be reached by TCP if there are any. -/
def aliveControls : List RouterNode :=
  let cs := (r.splitByCountry now).1
  if tcpOnly cs ≠ [] then tcpOnly cs else cs

/-- The controls of other countries that may be added. -/
def outOfCountry : List RouterNode := tcpOnly (r.splitByCountry now).2

/-- The controls that paths are built to: if there are less than three, some of other countries are
added. -/
def eligibleControls : List RouterNode :=
  let cs := r.aliveControls now
  if cs.length < 3 ∧ r.outOfCountry now ≠ [] then
    cs ++ (E.sort.byKey (r.nodeScore E now) (r.outOfCountry now)).take (3 - cs.length)
  else cs

/-- The relays that are alive, of the same country if there are any. -/
def liveRelays : List RouterNode :=
  let live := r.relays.filter fun n ↦
    r.alive now n && (r.myCountry = "" || n.countryCode = r.myCountry)
  if r.myCountry ≠ "" ∧ live = [] then r.relays.filter (r.alive now) else live

/-- The relays that paths are built over: the twenty with the lowest score. -/
def topRelays : List RouterNode :=
  (E.sort.byKey (r.nodeScore E now) (r.liveRelays now)).take 20

/-! ## BuildPaths -/

/-- The chains of up to three relays, in the order of the three nested loops. -/
def relayChains (live : List RouterNode) : List (List RouterNode) :=
  [] :: live.flatMap fun r1 ↦
    [r1] :: live.flatMap fun r2 ↦
      if r2.id = r1.id ∨ r2.operatorID = r1.operatorID then []
      else
        [r1, r2] :: live.flatMap fun r3 ↦
          if r3.id = r1.id ∨ r3.id = r2.id then []
          else if r3.operatorID = r1.operatorID ∨ r3.operatorID = r2.operatorID then []
          else [[r1, r2, r3]]

/-- The path over a chain of relays to a control, before it has a score. -/
def pathTo (ctrl : RouterNode) (chain : List RouterNode) : RouterPath where
  relays := chain.map fun n ↦ ⟨n.id, n.addr⟩
  controlAddr := ctrl.addr
  score := 0
  udpRelay := none

/-- All paths over these relays to these controls. -/
def allPaths (controls live : List RouterNode) : List RouterPath :=
  controls.flatMap fun ctrl ↦ (relayChains live).map (pathTo ctrl)

/-- A path with its score. -/
def scored (controls live : List RouterNode) (p : RouterPath) : RouterPath :=
  let s := r.scorePath now p controls live
  { p with score := s.1, udpRelay := s.2 }

/-- Whether a path comes before another: paths over relays first, then lower scores. -/
def precedes (p q : RouterPath) : Bool :=
  let pRelay := 0 < p.relays.length
  let qRelay := 0 < q.relays.length
  if pRelay ↔ qRelay then p.score < q.score else pRelay

/-- `sort.SliceStable` by this order. -/
def sortStable (paths : List RouterPath) : List RouterPath :=
  paths.insertionSort fun p q ↦ precedes q p = false

/-- The paths to choose from, with their scores. -/
def candidates : List RouterPath :=
  let controls := r.eligibleControls E now
  let live := r.topRelays E now
  (allPaths controls live).map (r.scored now controls live)

/-- `BuildPaths`. -/
def buildPaths : Router :=
  if r.aliveControls now = [] then { r with paths := [] }
  else
    { r with paths := E.shuffle ((sortStable (r.candidates E now)).take 5), pathIdx := 0 }

end Router

end TunnelCat
