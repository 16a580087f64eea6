import TunnelCat.Dht.NodeRuns

/-!
# Who can clear a suspicion

A suspect contact should stay suspect, with its count of missed pings, until something is heard from
its own address or it is removed.  Three things in the source work against that.  `bucket.add`
overwrites the whole record, so a FIND_NODE or NODES that names the contact gives it a clean one,
whoever sent it.  `clearSuspectByAddr` clears the contact that was registered when an address was
pinged, which may have moved since.  And a ping of the contact that runs out counts against it.

`Unnamed` is the condition that none of these happens in a step.  In a run whose steps all meet it
and that has no packet from the contact's own address, the record is unchanged in every state up to
the step that removes it.
-/

set_option autoImplicit false

open Trace

namespace TunnelCat.Dht.Node

open RoutingTable

/-- The address an event comes from. -/
def Event.source : Event → Option String
  | .packet _ _ src => some src
  | _ => none

/-- The step is not about the contact: a packet that opens neither comes from an address the contact
was pinged at nor adds a contact with its identifier, and a ping that runs out is not one of it. -/
def Unnamed (E : Env) (c : Contact) (n : Node) : Event → Prop
  | .packet now pkt src => opens E pkt = true →
      n.pendingPings src ≠ some c.id ∧ ∀ d ∈ learned E now pkt, d.id ≠ c.id
  | .timeout i => ∀ t, n.timers[i]? = some t → n.registered t.addr = true → t.id ≠ c.id
  | .ping _ => True

variable {E : Env} {n m : Node} {e : Event} {c : Contact}

/-- A step that is not about the contact gives it no other record. -/
theorem eq_of_mem_step {c x : Contact} (hv : n.rt.Valid) (hc : c ∈ n.rt.all) (hq : Unnamed E c n e)
    (h : step E n e = some m) (hx : x ∈ m.rt.all) (hid : x.id = c.id) : x = c := by
  cases e with
  | packet now pkt src =>
    rw [step, Option.some_inj] at h
    subst h
    rw [rt_handlePacket] at hx
    split at hx
    · rename_i hopen
      obtain ⟨hp, hl⟩ := hq hopen
      rcases mem_of_mem_foldl_add hx with hx | hx
      · exact absurd hid (hl x hx)
      · rw [mem_clearSuspectByAddr_of_ne hv (hid ▸ hp)] at hx
        exact eq_of_id_eq hv hx hc hid
    · exact eq_of_id_eq hv hx hc hid
  | timeout i =>
    rw [step, Option.map_eq_some_iff] at h
    obtain ⟨t, ht, rfl⟩ := h
    rw [rt_expire] at hx
    split at hx
    · rename_i hr
      rcases (mem_markMissed hv).mp hx with ⟨hx, -⟩ | ⟨d, -, hd, he⟩
      · exact eq_of_id_eq hv hx hc hid
      · exact absurd (hd.symm.trans ((missed_id he).symm.trans hid)) (hq t ht hr)
    · exact eq_of_id_eq hv hx hc hid
  | ping addr =>
    rw [step, Option.some_inj] at h
    subst h
    rw [rt_pingAddr] at hx
    exact eq_of_id_eq hv hx hc hid

theorem step_keeps (hv : n.rt.Valid) (hc : c ∈ n.rt.all) (hq : Unnamed E c n e)
    (h : step E n e = some m) :
    c ∈ m.rt.all ∨ ∀ x ∈ m.rt.all, x.id ≠ c.id := by
  by_cases hex : ∃ x ∈ m.rt.all, x.id = c.id
  · obtain ⟨x, hx, hid⟩ := hex
    exact Or.inl (eq_of_mem_step hv hc hq h hx hid ▸ hx)
  · exact Or.inr fun x hx hid ↦ hex ⟨x, hx, hid⟩

/-- Some step of the run removes the contact. -/
def RemovedIn (E : Env) (n : Node) (es : List Event) (c : Contact) : Prop :=
  ∃ es₁ e es₂ u v, es = es₁ ++ e :: es₂ ∧ exec (step E) n es₁ = some u ∧
    step E u e = some v ∧ c ∈ u.rt.all ∧ ∀ x ∈ v.rt.all, x.id ≠ c.id

theorem RemovedIn.cons {n u : Node} {es : List Event} (h : step E n e = some u)
    (hr : RemovedIn E u es c) : RemovedIn E n (e :: es) c := by
  obtain ⟨es₁, e', es₂, v, w, rfl, hv, hw, hcv, hgone⟩ := hr
  exact ⟨e :: es₁, e', es₂, v, w, rfl, Trace.exec_cons_eq_some.mpr ⟨u, h, hv⟩, hw, hcv, hgone⟩

theorem kept_or_removed {es : List Event} (hv : n.rt.Valid) (hc : c ∈ n.rt.all)
    (hq : Along (step E) (fun n e ↦ c ∈ n.rt.all → Unnamed E c n e) n es)
    (h : exec (step E) n es = some m) : c ∈ m.rt.all ∨ RemovedIn E n es c := by
  induction es generalizing n with
  | nil =>
    rw [exec_nil, Option.some_inj] at h
    exact Or.inl (h ▸ hc)
  | cons e es ih =>
    obtain ⟨u, hu, hum⟩ := Trace.exec_cons_eq_some.mp h
    rcases step_keeps hv hc (hq.1 hc) hu with hcu | hgone
    · exact (ih (valid_step hv hu) hcu (hq.2 u hu) hum).imp_right (RemovedIn.cons hu)
    · exact Or.inr ⟨[], e, es, n, u, rfl, rfl, hu, hc, hgone⟩

/-- **Suspicion is kept.**  In a run without a packet from its own address, in which no step is
about it while it is in the table, a suspect contact is still suspect, with the missed pings it had,
or it has been removed. -/
theorem suspicion_kept (E : Env) {c : Contact} {es : List Event} {n m : Node} (hv : n.rt.Valid)
    (hc : c ∈ n.rt.all) (hs : c.suspect = true) (hsrc : ∀ e ∈ es, e.source ≠ some c.addr)
    (hq : Along (step E)
      (fun n e ↦ e.source ≠ some c.addr → c ∈ n.rt.all → Unnamed E c n e) n es)
    (h : exec (step E) n es = some m) :
    (∃ x ∈ m.rt.all, x.id = c.id ∧ x.suspect = true ∧ x.missedPings = c.missedPings) ∨
      RemovedIn E n es c := by
  refine (kept_or_removed hv hc ?_ h).imp_left fun hm ↦ ⟨c, hm, rfl, hs, rfl⟩
  clear hv hc h
  induction es generalizing n with
  | nil => trivial
  | cons e es ih =>
    exact ⟨hq.1 (hsrc e (by simp)), fun u hu ↦ ih (fun e' he ↦ hsrc e' (by simp [he])) (hq.2 u hu)⟩

/-- A run in which the suspect peer is pinged again and someone else sends a PING. -/
theorem suspicion_kept_demo :
    ∃ m, exec (step demoEnv) demoNode
        [.ping "192.0.2.1:4000", .packet 0 (pingPacket demoEnv) "198.51.100.7:4000"] = some m ∧
      ((∃ x ∈ m.rt.all, x.id = suspectPeer.id ∧ x.suspect = true ∧
        x.missedPings = suspectPeer.missedPings) ∨
      RemovedIn demoEnv demoNode
        [.ping "192.0.2.1:4000", .packet 0 (pingPacket demoEnv) "198.51.100.7:4000"]
        suspectPeer) := by
  refine ⟨_, rfl, suspicion_kept demoEnv valid_demoNode mem_demoNode rfl ?_
    ⟨fun _ _ ↦ trivial, ?_⟩ rfl⟩
  · intro e he
    rcases List.mem_cons.mp he with rfl | he
    · exact by simp [Event.source]
    · rw [List.mem_singleton.mp he]
      decide
  · intro u hu
    rw [step, Option.some_inj] at hu
    subst hu
    refine ⟨fun _ _ _ ↦ ⟨?_, by simp [learned_pingPacket]⟩, fun _ _ ↦ trivial⟩
    decide +kernel

/-- **A third party clears a suspicion**: a NODES from another address that names the suspect peer,
and its record is clean. -/
theorem suspicion_cleared_by_third_party :
    suspectPeer ∈ demoNode.rt.all ∧ suspectPeer.suspect = true ∧
      Event.source (.packet 0 nodesPacket "198.51.100.7:4000") ≠ some suspectPeer.addr ∧
      ∃ m, exec (step demoEnv) demoNode [.packet 0 nodesPacket "198.51.100.7:4000"] = some m ∧
        m.rt.all = [peer] ∧ peer.id = suspectPeer.id ∧ peer.suspect = false ∧
          peer.missedPings = 0 ∧ suspectPeer.missedPings = 1 := by
  refine ⟨mem_demoNode, rfl, by decide, _, rfl, ?_, rfl, rfl, rfl, rfl⟩
  decide +kernel

end TunnelCat.Dht.Node
