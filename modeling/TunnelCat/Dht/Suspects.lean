import Mathlib.Algebra.Order.BigOperators.Group.List
import TunnelCat.Dht.NodeRuns
import TunnelCat.Lib.Expiry

/-!
# The life of a suspect contact

A contact that does not answer a ping becomes suspect; `reprobeSuspects` pings the suspects again,
and the contact should either answer and be cleared or use up its missed pings and be removed:
`Progresses`.

Neither follows from the round itself.  `pingAddr` looks the contact up with `Closest`, which leaves
suspects out, so the ping is sent but never registered: the round leaves the registration and the
goroutines of every suspect as they were (`reprobe_spec`).  What happens afterwards is the business
of pings from before the contact became suspect, and the main theorem says exactly which of those
there must be.
-/

set_option autoImplicit false

open Function

namespace TunnelCat.Dht

open Bucket (missed cleared)

/-! ## The record of an identifier -/

namespace RoutingTable

/-- The table has this record for the identifier, or none. -/
def Records (rt : RoutingTable) (id : ID) (o : Option Contact) : Prop :=
  ∀ x, x ∈ rt.all ∧ x.id = id ↔ o = some x

variable {rt : RoutingTable}

theorem Records.markMissed (hv : rt.Valid) {id j : ID} {o : Option Contact} (h : rt.Records id o) :
    (rt.markMissed j).Records id (if j = id then o.bind missed else o) := by
  intro x
  rw [mem_markMissed hv]
  split
  · rename_i hj
    subst hj
    constructor
    · rintro ⟨⟨-, hne⟩ | ⟨c, hc, hid, he⟩, hx⟩
      · exact absurd hx hne
      · rw [(h c).mp ⟨hc, hid⟩, Option.bind_some]
        exact he
    · intro he
      obtain ⟨c, hc, he⟩ := Option.bind_eq_some_iff.mp he
      obtain ⟨hc, hid⟩ := (h c).mpr hc
      exact ⟨Or.inr ⟨c, hc, hid, he⟩, (missed_id he).trans hid⟩
  · rename_i hj
    rw [← h x]
    constructor
    · rintro ⟨⟨hx, -⟩ | ⟨c, -, hid, he⟩, hxid⟩
      · exact ⟨hx, hxid⟩
      · exact absurd (hid.symm.trans ((missed_id he).symm.trans hxid)) hj
    · exact fun ⟨hx, hxid⟩ ↦ ⟨Or.inl ⟨hx, fun he ↦ hj (he.symm.trans hxid)⟩, hxid⟩

end RoutingTable

/-! ## A round of probes -/

namespace Node

open RoutingTable

/-- The addresses a round of probes registers: those that a suspect contact shares with one that is
not suspect. -/
def Probed (E : Env) (n : Node) (addr : String) : Prop :=
  (∃ c ∈ n.rt.all, c.suspect = true ∧ c.addr = addr) ∧ (E.resolveUDPAddr addr).isSome = true ∧
    ∃ d ∈ n.rt.all, d.suspect = false ∧ d.addr = addr

/-- The registration of a ping. -/
def register (p : String → Option ID) (t : Timer) : String → Option ID :=
  update p t.addr (some t.id)

variable {n : Node} {c : Contact} {new : List Timer}

variable {a : String} {p : String → Option ID}

/-- A ping of `c` is registered under the address that an answer comes with, and the round of
probes does not register another contact there. -/
def Expected (E : Env) (n : Node) (c : Contact) : Prop :=
  ∀ src, E.resolveUDPAddr c.addr = some src →
    n.pendingPings src = some c.id ∧ ¬ Probed E n src

end Node

end TunnelCat.Dht
