import TunnelCat.Router.Degradation

/-!
# Controls that are up and carry no data

A control can answer every probe and still carry no data.  `MarkControlDataDead` takes it out of the
paths until a time: it is noted in a map, and `alive` asks the map.

The router knows a control by an address with a port, and is told about it in other spellings, such
as `https://203.0.113.1:443`.  `MarkControlAlive` and `UpdateTrafficRTT` bring what they are given
into the form the router uses.  `MarkControlDataDead` notes it as it is, and `alive` looks under
the address of the control.  `markControlDataDead_iff` says which spellings have an effect: those
that are already in this form.
-/

set_option autoImplicit false

open Function

namespace TunnelCat.Router

/-- `MarkControlDataDead`: the address is not normalised. -/
def markControlDataDead (r : Router) (addr : String) (exp : ℤ) : Router :=
  { r with dataDead := update r.dataDead addr (some exp) }

/-- `MarkControlAlive`: of the first control with the address. -/
def markControlAlive (r : Router) (now : ℤ) (addr : String) : Router :=
  let set (n : RouterNode) : Option RouterNode := some { n with isAlive := true, lastSeen := now }
  { r with controls := Keyed.updateFirst RouterNode.addr (normaliseAddr addr) set r.controls }

variable {E : Env} {r : Router} {now : ℤ} {a : String}

/-! ## The calls that normalise -/

theorem exists_markControlAlive (now : ℤ) (h : ∃ c ∈ r.controls, c.addr = normaliseAddr a) :
    ∃ c ∈ r.controls, c.addr = normaliseAddr a ∧
      { c with isAlive := true, lastSeen := now } ∈ (r.markControlAlive now a).controls := by
  obtain ⟨c, hc, haddr⟩ := h
  obtain ⟨d, hd, hdaddr, hset⟩ := Keyed.exists_mem_updateFirst hc haddr
  exact ⟨d, hd, hdaddr, hset _ rfl⟩

theorem exists_updateTrafficRTT (rtt : ℤ) (h : ∃ c ∈ r.controls, c.addr = normaliseAddr a) :
    ∃ c ∈ r.controls, c.addr = normaliseAddr a ∧
      { c with trafficRTT := rtt } ∈ (r.updateTrafficRTT a rtt).controls := by
  obtain ⟨c, hc, haddr⟩ := h
  have hany : (r.controls.any fun c ↦ c.addr = normaliseAddr a) = true :=
    List.any_eq_true.mpr ⟨c, hc, decide_eq_true haddr⟩
  obtain ⟨d, hd, hdaddr, hset⟩ := Keyed.exists_mem_updateFirst hc haddr
  refine ⟨d, hd, hdaddr, ?_⟩
  rw [updateTrafficRTT, if_pos hany]
  exact hset _ rfl

/-! ## The call that does not -/

/-- A control is in no path as long as its own address is marked. -/
theorem controlAddr_ne_of_dataDead {exp : ℤ} (hdead : r.dataDead a = some exp)
    (hnow : now < exp) {p : RouterPath} (hp : p ∈ (r.buildPaths E now).paths) :
    p.controlAddr ≠ a := by
  obtain ⟨c, hc, haddr⟩ := exists_control hp
  obtain ⟨-, halive, -⟩ := eligible_of_mem hc
  intro h
  rw [alive, ← haddr, h, hdead] at halive
  split at halive
  · exact Bool.false_ne_true halive
  · dsimp only at halive
    rw [decide_eq_true hnow] at halive
    exact Bool.false_ne_true halive

/-- A control at the address, seen just now. -/
def controlAt (addr : String) : RouterNode := ⟨addr, addr, addr, "", 0, 0, 0, true, .tcp⟩

/-- A control that is not marked under its own address is used if it is the only one. -/
theorem exists_path_to_controlAt (E : Env) {addr : String} (exp : ℤ) (hne : addr ≠ a) :
    ∃ p ∈ (((demoRouter "" [controlAt addr] []).markControlDataDead a exp).buildPaths E 0).paths,
      p.controlAddr = addr := by
  set r := (demoRouter "" [controlAt addr] []).markControlDataDead a exp
  have halive : r.alive 0 (controlAt addr) = true := by
    have hdead : r.dataDead (controlAt addr).addr = none := update_of_ne hne _ _
    rw [alive, hdead]
    rfl
  have hsome : r.aliveControls 0 ≠ [] := fun hnil ↦ by
    rw [aliveControls_eq_nil_iff.mp hnil (controlAt addr) List.mem_cons_self] at halive
    exact absurd halive Bool.false_ne_true
  obtain ⟨p, hp⟩ := List.exists_mem_of_ne_nil _ (paths_ne_nil (E := E) hsome)
  obtain ⟨c, hc, haddr⟩ := exists_control hp
  obtain ⟨hmem, -⟩ := eligible_of_mem hc
  rw [List.mem_singleton.mp hmem] at haddr
  exact ⟨p, hp, haddr⟩

/-- **Which spellings of the address of a control mark it**: the calls that say that a control is
alive, or how long its requests take, reach it by any spelling; marking it as dead keeps it out of
the paths only if the address is spelled as the router spells it.  Between the call and `BuildPaths`
anything may happen but another mark under the same spelling. -/
theorem markControlDataDead_iff (a : String) :
    (∀ (r : Router) (now : ℤ), (∃ c ∈ r.controls, c.addr = normaliseAddr a) →
      ∃ c ∈ r.controls, c.addr = normaliseAddr a ∧
        { c with isAlive := true, lastSeen := now } ∈ (r.markControlAlive now a).controls) ∧
    (∀ (r : Router) (rtt : ℤ), (∃ c ∈ r.controls, c.addr = normaliseAddr a) →
      ∃ c ∈ r.controls, c.addr = normaliseAddr a ∧
        { c with trafficRTT := rtt } ∈ (r.updateTrafficRTT a rtt).controls) ∧
    ((∀ (E : Env) (r r' : Router) (exp now : ℤ),
      (∃ c ∈ r.controls, c.addr = normaliseAddr a) →
      r'.dataDead a = (r.markControlDataDead a exp).dataDead a → now < exp →
        ∀ p ∈ (r'.buildPaths E now).paths, p.controlAddr ≠ normaliseAddr a) ↔
      normaliseAddr a = a) := by
  refine ⟨fun r now ↦ exists_markControlAlive now, fun r rtt ↦ exists_updateTrafficRTT rtt,
    fun h ↦ ?_, fun h E r r' exp now _ hkept hnow p hp ↦ ?_⟩
  · by_contra hne
    obtain ⟨p, hp, haddr⟩ := exists_path_to_controlAt .plain 1 hne
    exact h .plain (demoRouter "" [controlAt (normaliseAddr a)] []) _ 1 0
      ⟨_, List.mem_cons_self, rfl⟩ rfl Int.one_pos p hp haddr
  · rw [markControlDataDead] at hkept
    dsimp only at hkept
    rw [update_self] at hkept
    rw [h]
    exact controlAddr_ne_of_dataDead hkept hnow hp

/-- A control that is marked by its URL stays in the paths. -/
theorem marked_by_url_kept :
    normaliseAddr "https://203.0.113.1:443" = "203.0.113.1:443" ∧
      ∃ p ∈ (((demoRouter "" [demoControl "203.0.113.1" "" 50 .tcp] []).markControlDataDead
          "https://203.0.113.1:443" 60000000000).buildPaths .plain 0).paths,
        p.controlAddr = "203.0.113.1:443" := by
  decide +kernel

end TunnelCat.Router
