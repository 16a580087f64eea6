import TunnelCat.Router.Controls
import TunnelCat.Router.Relays

/-!
# Probing the controls while a UDP channel fails

`ProbeDataPlane` starts one goroutine for each control.  It pings the control by TCP; if this fails,
it looks whether UDP has been marked as failed for the address, and if not, it pings by UDP; in the
end it writes into the node what it has found.  `MarkUDPDataFailed` turns a control back to TCP and
marks the address for five minutes, in which probes are to leave UDP alone.

The look at the mark and the write are two critical sections, and a ping is in between.  A channel
that fails meanwhile is marked, and then turned on again by the goroutine that had looked before.
`udp_off_iff` says that this is all: in every state of a run the marked addresses are reached by
TCP, exactly if no UDP ping that was answered is written to the control of an address that is marked
by then.  `udp_back_on` is the run in which it happens.

A goroutine holds a pointer to its node.  It is modelled by the position of the node in the list of
controls, and is lost when `SetControls` replaces the list: what is written then is not seen.
-/

set_option autoImplicit false

open Trace

namespace TunnelCat

/-- Where a goroutine of `ProbeDataPlane` is. -/
inductive ProbePhase where
  /-- Before `probeControlPing` returns. -/
  | pinging
  /-- Before the mark is read. -/
  | checking
  /-- The mark was set; before this is written. -/
  | suppressed
  /-- The mark was not set; before `probeControlUDP` has returned and the result is written. -/
  | probing
  /-- The goroutine has ended. -/
  | done
  deriving DecidableEq, Repr

/-- A goroutine of `ProbeDataPlane`. -/
structure Probe where
  /-- `n.Addr`. -/
  addr : String
  /-- `n`: where the node stands in the list of controls, if it is still there. -/
  node : Option ℕ
  /-- How far it has come. -/
  phase : ProbePhase

/-- A router and the goroutines that probe its controls. -/
structure Prober extends Router where
  /-- `udpDataFailed`. -/
  udpDataFailed : String → Option ℤ
  /-- The time. -/
  now : ℤ
  /-- The goroutines of all calls of `ProbeDataPlane`. -/
  probes : List Probe

namespace Prober

/-- What can happen. -/
inductive Event where
  /-- `ProbeDataPlane` starts its goroutines. -/
  | probeDataPlane
  /-- `probeControlPing` returns in the `i`-th goroutine, with a time if there was an answer. -/
  | ping (i : ℕ) (rtt : Option ℤ)
  /-- The `i`-th goroutine reads the mark. -/
  | check (i : ℕ)
  /-- The `i`-th goroutine writes that UDP was not tried. -/
  | suppress (i : ℕ)
  /-- The `i`-th goroutine writes what `probeControlUDP` has returned. -/
  | udp (i : ℕ) (rtt : Option ℤ)
  /-- `MarkUDPDataFailed`. -/
  | markUDPDataFailed (addr : String)
  /-- `SetControls`. -/
  | setControls (addrs : List String)
  /-- Time passes. -/
  | tick (d : ℕ)

variable (s : Prober)

/-- `time.Now().Before(r.udpDataFailed[addr])`. -/
def udpSuppressed (addr : String) : Bool :=
  match s.udpDataFailed addr with
  | some exp => s.now < exp
  | none => false

/-- The `i`-th goroutine, if it is in this phase. -/
def probeAt (i : ℕ) (phase : ProbePhase) : Option Probe :=
  s.probes[i]?.filter fun p ↦ p.phase = phase

/-- A goroutine goes on. -/
def advance (i : ℕ) (phase : ProbePhase) : Prober :=
  { s with probes := s.probes.modify i fun p ↦ { p with phase := phase } }

/-- A goroutine writes into its node. -/
def write (p : Probe) (f : RouterNode → RouterNode) : Prober :=
  match p.node with
  | some k => { s with controls := s.controls.modify k f }
  | none => s

/-- What is written after an answer. -/
def answered (rtt : ℤ) (transport : ControlTransport) (n : RouterNode) : RouterNode :=
  { n with rtt := rtt, isAlive := true, lastSeen := s.now, transport := transport }

/-- What is written if there was none. -/
def unanswered (n : RouterNode) : RouterNode := { n with isAlive := false, transport := .tcp }

/-- `MarkUDPDataFailed`. -/
def markUDPDataFailed (addr : String) : Prober :=
  let controls := Keyed.updateFirst
    (fun c : RouterNode ↦ decide (c.addr = addr ∧ c.transport = .udp)) true
    (fun c ↦ some { c with transport := .tcp }) s.controls
  { s with
    controls := controls
    udpDataFailed := Function.update s.udpDataFailed addr (some (s.now + Router.seconds 300)) }

/-- `SetControls`. -/
def setControls (addrs : List String) : Prober :=
  let node (addr : String) : RouterNode :=
    ⟨addr, Router.normaliseAddr addr, addr, "", 0, 0, s.now, true, .tcp⟩
  { s with
    controls := addrs.map node
    probes := s.probes.map fun p ↦ { p with node := none } }

/-- One step of the router or of a goroutine. -/
def step : Event → Option Prober
  | .probeDataPlane =>
    some { s with probes := s.probes ++ s.controls.mapIdx fun k n ↦ ⟨n.addr, some k, .pinging⟩ }
  | .ping i (some rtt) =>
    (s.probeAt i .pinging).map fun p ↦ (s.write p (s.answered rtt .tcp)).advance i .done
  | .ping i none => (s.probeAt i .pinging).map fun _ ↦ s.advance i .checking
  | .check i =>
    (s.probeAt i .checking).map fun p ↦
      s.advance i (if s.udpSuppressed p.addr then .suppressed else .probing)
  | .suppress i => (s.probeAt i .suppressed).map fun p ↦ (s.write p unanswered).advance i .done
  | .udp i (some rtt) =>
    (s.probeAt i .probing).map fun p ↦ (s.write p (s.answered rtt .udp)).advance i .done
  | .udp i none => (s.probeAt i .probing).map fun p ↦ (s.write p unanswered).advance i .done
  | .markUDPDataFailed addr => some (s.markUDPDataFailed addr)
  | .setControls addrs => some (s.setControls addrs)
  | .tick d => some { s with now := s.now + d }

/-- An address that is marked is reached by TCP. -/
def UdpOff : Prop := ∀ addr, s.udpSuppressed addr = true → s.controlTransport addr = .tcp

/-- An answer by UDP is written to the control of an address that is marked. -/
def revives : Event → Bool
  | .udp i (some _) =>
    match s.probes[i]? with
    | some ⟨addr, some k, _⟩ =>
      s.controls.findIdx? (fun c ↦ c.addr = addr) = some k && s.udpSuppressed addr
    | _ => false
  | _ => false

/-- A goroutine's node has the address it was started with. -/
def Bound : Prop :=
  ∀ p ∈ s.probes, ∀ k, p.node = some k → (s.controls.map RouterNode.addr)[k]? = some p.addr

end Prober

/-! ## The transport after a write -/

section Lists

variable {α : Type*} {f : α → α}

theorem find?_modify {p : α → Bool} (hf : ∀ x, p (f x) = p x) (l : List α) (k : ℕ) :
    (l.modify k f).find? p = if l.findIdx? p = some k then (l.find? p).map f else l.find? p := by
  induction l generalizing k with
  | nil => simp
  | cons x l ih =>
    cases k with
    | zero =>
      rw [List.modify_zero_cons, List.find?_cons, List.find?_cons, List.findIdx?_cons, hf]
      cases p x <;> simp
    | succ k =>
      rw [List.modify_succ_cons, List.find?_cons, List.find?_cons, List.findIdx?_cons, ih]
      cases p x <;> simp

theorem map_modify_of_eq {β : Type*} {g : α → β} (hf : ∀ x, g (f x) = g x) (l : List α) (k : ℕ) :
    (l.modify k f).map g = l.map g := by
  induction l generalizing k with
  | nil => simp
  | cons x l ih =>
    cases k with
    | zero => rw [List.modify_zero_cons, List.map_cons, List.map_cons, hf]
    | succ k => rw [List.modify_succ_cons, List.map_cons, List.map_cons, ih]

end Lists

namespace Router

variable (r : Router) (addr a : String)

/-- What is written leaves the address of a node as it is, and leaves the node with a transport. -/
def Writes (f : RouterNode → RouterNode) (transport : ControlTransport) : Prop :=
  ∀ n, (f n).addr = n.addr ∧ (f n).transport = transport

theorem controlTransport_eq :
    r.controlTransport a =
      ((r.controls.find? fun c ↦ c.addr = a).map RouterNode.transport).getD .tcp := by
  rw [controlTransport]
  cases r.controls.find? fun c ↦ c.addr = a with
  | none => rfl
  | some c => rfl

/-- Something is written into a node: only the transport of the address that it is the first of can
change. -/
theorem controlTransport_modify {f : RouterNode → RouterNode} {transport : ControlTransport}
    (hf : Writes f transport) (k : ℕ) :
    controlTransport { r with controls := r.controls.modify k f } a =
      if r.controls.findIdx? (fun c ↦ c.addr = a) = some k then transport
      else r.controlTransport a := by
  rw [controlTransport_eq, controlTransport_eq]
  dsimp only
  rw [find?_modify (fun n ↦ by rw [(hf n).1])]
  split
  · rename_i hk
    cases hfind : r.controls.find? fun c ↦ c.addr = a with
    | none =>
      obtain ⟨hlt, haddr, -⟩ := List.findIdx?_eq_some_iff_getElem.mp hk
      exact absurd haddr (List.find?_eq_none.mp hfind _ (List.getElem_mem hlt))
    | some c => rw [Option.map_some, Option.map_some, Option.getD_some, (hf c).2]
  · rfl

/-- The first control with the address is turned back to TCP, if it is not there already. -/
theorem find?_downgrade (controls : List RouterNode) :
    ((Keyed.updateFirst (fun c : RouterNode ↦ decide (c.addr = addr ∧ c.transport = .udp)) true
        (fun c ↦ some { c with transport := .tcp }) controls).find? fun c ↦ c.addr = a).map
          RouterNode.transport =
      if a = addr then (controls.find? fun c ↦ c.addr = a).map fun _ ↦ .tcp
      else (controls.find? fun c ↦ c.addr = a).map RouterNode.transport := by
  induction controls with
  | nil => simp [Keyed.updateFirst]
  | cons c cs ih =>
    rw [Keyed.updateFirst]
    by_cases hc : c.addr = addr ∧ c.transport = .udp
    · rw [if_pos (decide_eq_true hc)]
      by_cases ha : c.addr = a
      · simp [ha, ← hc.1]
      · have hne : a ≠ addr := fun h ↦ ha (hc.1.trans h.symm)
        simp [ha, hne]
    · rw [if_neg (by simpa using hc), List.find?_cons, List.find?_cons]
      by_cases ha : c.addr = a
      · have htcp : a = addr → c.transport = .tcp := by
          intro haddr
          cases ht : c.transport with
          | tcp => rfl
          | udp => exact absurd ⟨ha.trans haddr, ht⟩ hc
        simp only [ha, decide_true, Option.map_some]
        split
        · rename_i haddr
          rw [htcp haddr]
        · rfl
      · simpa only [ha, decide_false] using ih

end Router

namespace Prober

variable {s t : Prober}

theorem writes_answered (rtt : ℤ) (transport : ControlTransport) :
    Router.Writes (s.answered rtt transport) transport := fun _ ↦ ⟨rfl, rfl⟩

theorem writes_unanswered : Router.Writes unanswered .tcp := fun _ ↦ ⟨rfl, rfl⟩

theorem controlTransport_markUDPDataFailed (addr a : String) :
    (s.markUDPDataFailed addr).controlTransport a =
      if a = addr then .tcp else s.controlTransport a := by
  rw [Router.controlTransport_eq, markUDPDataFailed]
  dsimp only
  rw [Router.find?_downgrade]
  split
  · cases s.controls.find? fun c ↦ c.addr = a with
    | none => rfl
    | some c => rfl
  · rw [Router.controlTransport_eq]

theorem controlTransport_setControls (addrs : List String) (a : String) :
    (s.setControls addrs).controlTransport a = .tcp := by
  rw [Router.controlTransport]
  split
  · rename_i c hc
    obtain ⟨addr, -, rfl⟩ := List.mem_map.mp (List.mem_of_find?_eq_some hc)
    rfl
  · rfl

@[simp] theorem controlTransport_advance (i : ℕ) (phase : ProbePhase) (a : String) :
    (s.advance i phase).controlTransport a = s.controlTransport a := rfl

@[simp] theorem udpSuppressed_advance (i : ℕ) (phase : ProbePhase) (a : String) :
    (s.advance i phase).udpSuppressed a = s.udpSuppressed a := rfl

@[simp] theorem udpSuppressed_write (p : Probe) (f : RouterNode → RouterNode) (a : String) :
    (s.write p f).udpSuppressed a = s.udpSuppressed a := by
  rw [write]
  split <;> rfl

theorem probes_write (p : Probe) (f : RouterNode → RouterNode) :
    (s.write p f).probes = s.probes := by
  rw [write]
  split <;> rfl

/-! ## One step -/

/-- A write that leaves the control with TCP turns nothing on. -/
theorem udpOff_write {f : RouterNode → RouterNode} (hf : Router.Writes f .tcp) (hs : s.UdpOff)
    (p : Probe) (i : ℕ) (phase : ProbePhase) :
    ((s.write p f).advance i phase).UdpOff := by
  intro a ha
  rw [udpSuppressed_advance, udpSuppressed_write] at ha
  rw [controlTransport_advance]
  rw [write]
  split
  · rw [Router.controlTransport_modify _ a hf]
    split
    · rfl
    · exact hs a ha
  · exact hs a ha

/-- A write that leaves it with UDP turns it on, if it is the control of an address that is
marked. -/
theorem udpOff_write_udp (hs : s.UdpOff) {p : Probe} {i : ℕ} (hp : s.probes[i]? = some p)
    (hb : s.Bound) (rtt : ℤ) (phase : ProbePhase) :
    ((s.write p (s.answered rtt .udp)).advance i phase).UdpOff ↔
      s.revives (.udp i (some rtt)) = false := by
  obtain ⟨addr, node, ph⟩ := p
  cases node with
  | none => simpa [revives, hp, write, UdpOff] using hs
  | some k =>
    have hrev : s.revives (.udp i (some rtt)) =
        (decide (s.controls.findIdx? (fun c ↦ c.addr = addr) = some k) &&
          s.udpSuppressed addr) := by
      simp only [revives, hp]
    have hnew : ∀ a, ((s.write ⟨addr, some k, ph⟩ (s.answered rtt .udp)).advance i
        phase).controlTransport a = if s.controls.findIdx? (fun c ↦ c.addr = a) = some k then .udp
          else s.controlTransport a :=
      fun a ↦ Router.controlTransport_modify s.toRouter a (writes_answered rtt .udp) k
    rw [hrev, Bool.and_eq_false_iff, decide_eq_false_iff_not]
    refine ⟨fun h ↦ ?_, fun h a ha ↦ ?_⟩
    · by_contra hboth
      rw [not_or, not_not, Bool.not_eq_false] at hboth
      have htcp := h addr (by simpa using hboth.2)
      rw [hnew, if_pos hboth.1] at htcp
      cases htcp
    · rw [udpSuppressed_advance, udpSuppressed_write] at ha
      rw [hnew]
      split
      · rename_i hk
        -- The first control of the address is the goroutine's node, and so the address is its own.
        obtain ⟨hlt, haddr, -⟩ := List.findIdx?_eq_some_iff_getElem.mp hk
        have hbound := hb _ (List.mem_of_getElem? hp) k rfl
        rw [List.getElem?_map, List.getElem?_eq_getElem hlt, Option.map_some, Option.some_inj,
          of_decide_eq_true haddr] at hbound
        subst hbound
        rcases h with hne | hoff
        · exact absurd hk hne
        · rw [hoff] at ha
          cases ha
      · exact hs a ha

theorem getElem?_of_probeAt {i : ℕ} {phase : ProbePhase} {p : Probe}
    (h : s.probeAt i phase = some p) : s.probes[i]? = some p :=
  (Option.filter_eq_some_iff.mp h).1

/-- **What a step turns on.** -/
theorem udpOff_step_iff {e : Event} (hs : s.UdpOff) (hb : s.Bound) (h : s.step e = some t) :
    t.UdpOff ↔ s.revives e = false := by
  have hkept : t.UdpOff → s.revives e = false → (t.UdpOff ↔ s.revives e = false) :=
    fun h₁ h₂ ↦ ⟨fun _ ↦ h₂, fun _ ↦ h₁⟩
  cases e with
  | probeDataPlane =>
    cases h
    exact hkept hs rfl
  | ping i rtt =>
    cases rtt with
    | some rtt =>
      obtain ⟨p, hp, rfl⟩ := Option.map_eq_some_iff.mp h
      exact hkept (udpOff_write (writes_answered rtt .tcp) hs p i _) rfl
    | none =>
      obtain ⟨p, hp, rfl⟩ := Option.map_eq_some_iff.mp h
      exact hkept hs rfl
  | check i =>
    obtain ⟨p, hp, rfl⟩ := Option.map_eq_some_iff.mp h
    exact hkept hs rfl
  | suppress i =>
    obtain ⟨p, hp, rfl⟩ := Option.map_eq_some_iff.mp h
    exact hkept (udpOff_write writes_unanswered hs p i _) rfl
  | udp i rtt =>
    cases rtt with
    | some rtt =>
      obtain ⟨p, hp, rfl⟩ := Option.map_eq_some_iff.mp h
      exact udpOff_write_udp hs (getElem?_of_probeAt hp) hb rtt _
    | none =>
      obtain ⟨p, hp, rfl⟩ := Option.map_eq_some_iff.mp h
      exact hkept (udpOff_write writes_unanswered hs p i _) rfl
  | markUDPDataFailed addr =>
    cases h
    refine hkept (fun a ha ↦ ?_) rfl
    rw [controlTransport_markUDPDataFailed]
    split
    · rfl
    · rename_i hne
      refine hs a ?_
      simpa [udpSuppressed, markUDPDataFailed, Function.update_of_ne hne] using ha
  | setControls addrs =>
    cases h
    exact hkept (fun a _ ↦ controlTransport_setControls addrs a) rfl
  | tick d =>
    cases h
    refine hkept (fun a ha ↦ hs a ?_) rfl
    rw [udpSuppressed] at ha ⊢
    split at ha
    · rename_i exp hexp
      dsimp only at ha hexp
      rw [hexp]
      dsimp only
      have := of_decide_eq_true ha
      exact decide_eq_true (by omega)
    · cases ha

theorem addrs_write {f : RouterNode → RouterNode} {transport : ControlTransport}
    (hf : Router.Writes f transport) (p : Probe) :
    (s.write p f).controls.map RouterNode.addr = s.controls.map RouterNode.addr := by
  rw [write]
  split
  · exact map_modify_of_eq (fun n ↦ (hf n).1) _ _
  · rfl

theorem addrs_markUDPDataFailed (addr : String) :
    (s.markUDPDataFailed addr).controls.map RouterNode.addr = s.controls.map RouterNode.addr := by
  rw [markUDPDataFailed]
  dsimp only
  induction s.controls with
  | nil => rfl
  | cons c cs ih =>
    rw [Keyed.updateFirst]
    split
    · rfl
    · rw [List.map_cons, List.map_cons, ih]

/-- The goroutines keep their nodes as long as the nodes keep their addresses. -/
theorem bound_of_addrs (haddrs : t.controls.map RouterNode.addr = s.controls.map RouterNode.addr)
    (hprobes : ∀ p ∈ t.probes, ∃ q ∈ s.probes, q.addr = p.addr ∧ q.node = p.node) (hb : s.Bound) :
    t.Bound := by
  intro p hp k hk
  obtain ⟨q, hq, haddr, hnode⟩ := hprobes p hp
  rw [haddrs, ← haddr]
  exact hb q hq k (hnode.trans hk)

theorem bound_advance {u : Prober}
    (haddrs : u.controls.map RouterNode.addr = s.controls.map RouterNode.addr)
    (hprobes : u.probes = s.probes) (hb : s.Bound) (i : ℕ) (phase : ProbePhase) :
    (u.advance i phase).Bound := by
  refine bound_of_addrs haddrs (fun p hp ↦ ?_) hb
  obtain ⟨j, hj⟩ := List.mem_iff_getElem?.mp hp
  rw [advance] at hj
  dsimp only at hj
  rw [List.getElem?_modify, hprobes] at hj
  obtain ⟨q, hq, rfl⟩ := Option.map_eq_some_iff.mp hj
  refine ⟨q, List.mem_of_getElem? hq, ?_⟩
  split
  · exact ⟨rfl, rfl⟩
  · exact ⟨rfl, rfl⟩

theorem bound_step {e : Event} (hb : s.Bound) (h : s.step e = some t) : t.Bound := by
  have hwrite : ∀ {f : RouterNode → RouterNode} {tr : ControlTransport}, Router.Writes f tr →
      ∀ p i phase, ((s.write p f).advance i phase).Bound :=
    fun hf p i phase ↦ bound_advance (addrs_write hf p) (probes_write p _) hb i phase
  cases e with
  | probeDataPlane =>
    cases h
    intro p hp k hk
    rcases List.mem_append.mp hp with hp | hp
    · exact hb p hp k hk
    · obtain ⟨j, hj, rfl⟩ := List.mem_mapIdx.mp hp
      cases hk
      rw [List.getElem?_map, List.getElem?_eq_getElem hj, Option.map_some]
  | ping i rtt =>
    cases rtt with
    | some rtt =>
      obtain ⟨p, hp, rfl⟩ := Option.map_eq_some_iff.mp h
      exact hwrite (writes_answered rtt .tcp) p i _
    | none =>
      obtain ⟨p, hp, rfl⟩ := Option.map_eq_some_iff.mp h
      exact bound_advance rfl rfl hb i _
  | check i =>
    obtain ⟨p, hp, rfl⟩ := Option.map_eq_some_iff.mp h
    exact bound_advance rfl rfl hb i _
  | suppress i =>
    obtain ⟨p, hp, rfl⟩ := Option.map_eq_some_iff.mp h
    exact hwrite writes_unanswered p i _
  | udp i rtt =>
    cases rtt with
    | some rtt =>
      obtain ⟨p, hp, rfl⟩ := Option.map_eq_some_iff.mp h
      exact hwrite (writes_answered rtt .udp) p i _
    | none =>
      obtain ⟨p, hp, rfl⟩ := Option.map_eq_some_iff.mp h
      exact hwrite writes_unanswered p i _
  | markUDPDataFailed addr =>
    cases h
    exact bound_of_addrs (addrs_markUDPDataFailed addr) (fun p hp ↦ ⟨p, hp, rfl, rfl⟩) hb
  | setControls addrs =>
    cases h
    intro p hp k hk
    obtain ⟨q, -, rfl⟩ := List.mem_map.mp hp
    cases hk
  | tick d =>
    cases h
    exact hb

/-! ## Whole runs -/

/-- **A failed UDP channel stays off**, exactly if no answer by UDP is written to the control of an
address that has been marked since the goroutine looked. -/
theorem udp_off_iff (s t : Prober) (es : List Event) (hnew : s.probes = []) (hs : s.UdpOff)
    (h : exec step s es = some t) :
    (∀ pre post u, es = pre ++ post → exec step s pre = some u → u.UdpOff) ↔
      Along step (fun u e ↦ u.revives e = false) s es := by
  rw [Trace.forall_states_iff_along hs]
  have hb : s.Bound := by
    intro p hp
    rw [hnew] at hp
    cases hp
  refine Trace.along_iff_along (P := fun u ↦ u.UdpOff ∧ u.Bound) (E := fun _ ↦ True)
    (fun hu _ he ↦ ?_) (fun hu hnext he ↦ ⟨hnext _ he, bound_step hu.2 he⟩) ⟨hs, hb⟩
    (fun _ _ ↦ trivial) h
  rw [← udpOff_step_iff hu.1 hu.2 he]
  refine ⟨fun hall ↦ hall _ he, fun hoff v hv ↦ ?_⟩
  rw [he, Option.some_inj] at hv
  exact hv ▸ hoff

/-- A router with one control, which was found to be reached by UDP only. -/
def demo : Prober where
  relays := []
  controls := [⟨"c", "c:443", "c", "", 0, 0, 0, true, .udp⟩]
  paths := []
  pathIdx := 0
  myCountry := ""
  dataDead _ := none
  udpPeers _ := none
  flaps _ := []
  udpDataFailed _ := none
  now := 0
  probes := []

/-- The channel is marked before the goroutine looks. -/
def demoInTime : List Event :=
  [.probeDataPlane, .ping 0 none, .markUDPDataFailed "c:443", .check 0, .tick 1000000000,
    .suppress 0]

/-- It stays off. -/
theorem udp_off_iff_demo :
    (exec step demo demoInTime).isSome = true ∧
      ∀ pre post u, demoInTime = pre ++ post → exec step demo pre = some u → u.UdpOff :=
  ⟨rfl, (udp_off_iff demo _ demoInTime rfl (fun _ h ↦ (nomatch h)) rfl).mpr (by decide +kernel)⟩

/-- The channel is marked after the goroutine has looked: a second later the address is marked and
the control is reached by UDP. -/
theorem udp_back_on :
    (exec step demo [.probeDataPlane, .ping 0 none, .check 0, .markUDPDataFailed "c:443",
      .tick 1000000000, .udp 0 (some 40000000)]).map
        (fun s ↦ (s.udpSuppressed "c:443", s.controlTransport "c:443")) = some (true, .udp) := by
  decide +kernel

end Prober

end TunnelCat
