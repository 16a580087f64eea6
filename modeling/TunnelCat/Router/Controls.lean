import Mathlib.Algebra.Order.BigOperators.Group.List
import Mathlib.Algebra.Order.Group.Nat
import Mathlib.Algebra.Ring.Int.Defs
import Mathlib.Algebra.Ring.Nat
import Mathlib.Data.List.Perm.Subperm
import TunnelCat.Lib.Keyed
import TunnelCat.Router.BestPaths

/-!
# Which controls the paths lead to

`BuildPaths` filters the controls by country and then by transport, adds controls of other countries
if less than three are left, and in the end cuts the list of *paths*, not that of the controls.  Two
things are expected of the result: that a control which only UDP can reach is the last resort, and
that no single control is a point of failure.

The score of a path is the sum of what its control and what its relays cost, so all that counts is
how many paths to other controls are ahead of the best one to a control.  A control is `Reached` if
these are less than five, and `mem_qualifyingControlAddrs_iff` says that the paths lead to the
controls that are reached.

* The filter by transport sees only what the filter by country has left.  A control that can be
  reached by TCP keeps those that cannot out of the paths if it passes the filter by country;
  otherwise they stay in, unless the cut happens to remove them (`udp_last_iff`, `udp_path_kept`).
* Three controls stand at the beginning, but the five best paths may all lead to one of them
  (`three_controls_iff`, `one_control_left`).
-/

set_option autoImplicit false

open Function

namespace TunnelCat.Router

variable {E : Env} {r : Router} {now : ℤ}

/-- `ControlTransport`. -/
def controlTransport (r : Router) (addr : String) : ControlTransport :=
  match r.controls.find? fun c ↦ c.addr = addr with
  | some c => c.transport
  | none => .tcp

/-- `QualifyingControlAddrs`.  An address has been seen if it is in the result. -/
def qualifyingControlAddrs (r : Router) : List String :=
  r.paths.foldl (fun out p ↦ if p.controlAddr ∈ out then out else out ++ [p.controlAddr]) []

/-- A path that is kept leads to a control that paths are built to. -/
theorem exists_control {p : RouterPath} (hp : p ∈ (r.buildPaths E now).paths) :
    ∃ c ∈ r.eligibleControls E now, p.controlAddr = c.addr := by
  obtain ⟨c, hc, chain, -, rfl⟩ := candidate_of_mem_paths hp
  exact ⟨c, hc, rfl⟩

/-! ## What a path costs -/

/-- The control that is looked up by an address: the first one there. -/
def firstAt (E : Env) (r : Router) (now : ℤ) (addr : String) : Option RouterNode :=
  (r.eligibleControls E now).find? fun c ↦ c.addr = addr

/-- What the relays of a path add to its score. -/
def hopsCost (now : ℤ) (live : List RouterNode) (hops : List RouterPathNode) : ℤ :=
  (hops.map fun rn ↦ contribution now (live.find? fun n ↦ n.id = rn.id) + 10).sum

/-- What a connection to the first relay takes off the score of a path. -/
def udpBonus (r : Router) (hops : List RouterPathNode) : ℤ :=
  if (hops.head?.bind fun rn ↦ r.udpPeer rn.id rn.addr).isSome then 30 else 0

/-- What the path over a chain to a control costs. -/
def cost (E : Env) (r : Router) (now : ℤ) (c : RouterNode) (chain : List RouterNode) : ℤ :=
  let hops := (pathTo c chain).relays
  contribution now (r.firstAt E now c.addr) + hopsCost now (r.topRelays E now) hops -
    r.udpBonus hops

theorem score_scored (c : RouterNode) (chain : List RouterNode) :
    (r.scored now (r.eligibleControls E now) (r.topRelays E now) (pathTo c chain)).score =
      r.cost E now c chain := by
  have hfold : ∀ (hops : List RouterPathNode) (s : ℤ), hops.foldl
      (fun s rn ↦ s + contribution now ((r.topRelays E now).find? fun n ↦ n.id = rn.id) + 10) s =
        s + hopsCost now (r.topRelays E now) hops := by
    intro hops
    induction hops with
    | nil => exact fun s ↦ (Int.add_zero s).symm
    | cons rn hops ih =>
      intro s
      rw [List.foldl_cons, ih, hopsCost, hopsCost, List.map_cons, List.sum_cons]
      omega
  exact congrArg (· - _) (hfold _ _)

/-- Whether a chain has relays, as the rank of its paths. -/
theorem rank_scored (controls live chain : List RouterNode) (c : RouterNode) :
    rank (r.scored now controls live (pathTo c chain)) = if chain = [] then 1 else 0 := by
  cases chain <;> simp [rank, scored, pathTo]

/-! ## Which controls are reached -/

/-- The chains of the paths that come first: those with relays, unless there are none. -/
def frontChains (live : List RouterNode) : List (List RouterNode) :=
  (relayChains live).filter fun chain ↦ chain ≠ [] ∨ live = []

/-- How many paths to other controls are ahead of one with a score: those to controls that stand
earlier in the list if they cost no more, those to later ones if they cost less. -/
def rivals (E : Env) (r : Router) (now : ℤ) (earlier later : List RouterNode) (score : ℤ) : ℕ :=
  let chains := frontChains (r.topRelays E now)
  (earlier.map fun c ↦ chains.countP fun chain ↦ r.cost E now c chain ≤ score).sum +
    (later.map fun c ↦ chains.countP fun chain ↦ r.cost E now c chain < score).sum

/-- Over some chain of relays, or over none if there are no relays, less than five paths to other
controls are ahead of that to a control at the address. -/
def Reached (E : Env) (r : Router) (now : ℤ) (addr : String) : Prop :=
  ∃ earlier c later, r.eligibleControls E now = earlier ++ c :: later ∧ c.addr = addr ∧
    ∃ chain, IsChain (r.topRelays E now) chain ∧ (chain ≠ [] ∨ r.topRelays E now = []) ∧
      r.rivals E now earlier later (r.cost E now c chain) < 5

/-- The candidates to a control. -/
def candidatesTo (E : Env) (r : Router) (now : ℤ) (c : RouterNode) : List RouterPath :=
  (relayChains (r.topRelays E now)).map fun chain ↦
    r.scored now (r.eligibleControls E now) (r.topRelays E now) (pathTo c chain)

theorem candidates_eq :
    r.candidates E now = (r.eligibleControls E now).flatMap (r.candidatesTo E now) := by
  rw [candidates, allPaths, List.map_flatMap]
  simp only [List.map_map]
  rfl

/-- The rank of the paths that come first. -/
def frontRank (live : List RouterNode) : ℕ := if live = [] then 1 else 0

theorem frontRank_le {live chain : List RouterNode} (h : chain ∈ relayChains live) :
    frontRank live ≤ if chain = [] then 1 else 0 := by
  rw [frontRank]
  split
  · rename_i hlive
    rw [if_pos (List.subset_nil.mp (hlive ▸ (mem_relayChains.mp h).subset))]
  · exact Nat.zero_le _

theorem frontRank_eq_iff {live chain : List RouterNode} (h : chain ∈ relayChains live) :
    (if chain = [] then 1 else 0) = frontRank live ↔ chain ≠ [] ∨ live = [] := by
  by_cases hlive : live = []
  · have hnil : chain = [] := List.subset_nil.mp (hlive ▸ (mem_relayChains.mp h).subset)
    simp [frontRank, hlive, hnil]
  · simp [frontRank, hlive]

theorem exists_frontChain (live : List RouterNode) :
    ∃ chain, IsChain live chain ∧ (chain ≠ [] ∨ live = []) := by
  cases live with
  | nil => exact ⟨[], ⟨by simp, by simp, .nil⟩, .inr rfl⟩
  | cons n live => exact ⟨[n], ⟨by simp, by simp, by simp⟩, by simp⟩

variable {c d : RouterNode} {p : RouterPath} {score : ℤ}

theorem exists_chain_of_mem_candidatesTo (hp : p ∈ r.candidatesTo E now c) :
    ∃ chain ∈ relayChains (r.topRelays E now), p.controlAddr = c.addr ∧
      p.score = r.cost E now c chain ∧ rank p = if chain = [] then 1 else 0 := by
  obtain ⟨chain, hchain, rfl⟩ := List.mem_map.mp hp
  exact ⟨chain, hchain, rfl, score_scored _ _, rank_scored _ _ _ _⟩

/-- Of the candidates to a control, those that cost less than a path that comes first are before
it, and no others. -/
theorem countP_candidatesTo_le (hp : rank p = frontRank (r.topRelays E now))
    (hscore : p.score ≤ score) :
    (r.candidatesTo E now d).countP (fun q ↦ !precedes p q) ≤
        (frontChains (r.topRelays E now)).countP (fun chain ↦ r.cost E now d chain ≤ score) ∧
      (r.candidatesTo E now d).countP (fun q ↦ precedes q p) ≤
        (frontChains (r.topRelays E now)).countP fun chain ↦ r.cost E now d chain < score := by
  rw [frontChains, List.countP_filter, List.countP_filter, candidatesTo, List.countP_map,
    List.countP_map]
  refine ⟨List.countP_mono_left fun chain hchain h ↦ ?_,
    List.countP_mono_left fun chain hchain h ↦ ?_⟩ <;>
  · have hle := frontRank_le hchain
    simp only [comp_apply, Bool.not_eq_true', precedes_eq_false_iff, precedes_iff,
      rank_scored, score_scored] at h
    rw [Bool.and_eq_true, decide_eq_true_eq, decide_eq_true_eq, ← frontRank_eq_iff hchain]
    omega

/-- All that cost less than a path are before it, if it is one that comes first, and otherwise all
that come first. -/
theorem le_countP_candidatesTo (hp : frontRank (r.topRelays E now) ≤ rank p)
    (hscore : rank p = frontRank (r.topRelays E now) → score = p.score) :
    (frontChains (r.topRelays E now)).countP (fun chain ↦ r.cost E now d chain ≤ score) ≤
        (r.candidatesTo E now d).countP (fun q ↦ !precedes p q) ∧
      (frontChains (r.topRelays E now)).countP (fun chain ↦ r.cost E now d chain < score) ≤
        (r.candidatesTo E now d).countP fun q ↦ precedes q p := by
  rw [frontChains, List.countP_filter, List.countP_filter, candidatesTo, List.countP_map,
    List.countP_map]
  refine ⟨List.countP_mono_left fun chain hchain h ↦ ?_,
    List.countP_mono_left fun chain hchain h ↦ ?_⟩ <;>
  · rw [Bool.and_eq_true, decide_eq_true_eq, decide_eq_true_eq, ← frontRank_eq_iff hchain] at h
    simp only [comp_apply, Bool.not_eq_true', precedes_eq_false_iff, precedes_iff,
      rank_scored, score_scored]
    omega

variable {earlier later : List RouterNode} {l₁ l₂ : List RouterPath}

/-- Where a candidate stands. -/
theorem candidates_split (hsplit : r.eligibleControls E now = earlier ++ c :: later)
    (hl : r.candidatesTo E now c = l₁ ++ p :: l₂) :
    r.candidates E now = (earlier.flatMap (r.candidatesTo E now) ++ l₁) ++
      p :: (l₂ ++ later.flatMap (r.candidatesTo E now)) := by
  rw [candidates_eq, hsplit, List.flatMap_append, List.flatMap_cons, hl]
  simp

/-- How many candidates come before one to a control: those to the same control, and others. -/
theorem before_candidates :
    Selection.before precedes p (earlier.flatMap (r.candidatesTo E now) ++ l₁)
        (l₂ ++ later.flatMap (r.candidatesTo E now)) =
      Selection.before precedes p l₁ l₂ +
        ((earlier.map fun d ↦ (r.candidatesTo E now d).countP fun q ↦ !precedes p q).sum +
          (later.map fun d ↦ (r.candidatesTo E now d).countP fun q ↦ precedes q p).sum) := by
  rw [Selection.before, Selection.before, List.countP_append, List.countP_append,
    List.countP_flatMap, List.countP_flatMap]
  simp only [comp_def]
  omega

/-- If no path to the same control is ahead of one that comes first, only rivals are. -/
theorem before_le_rivals (hp : rank p = frontRank (r.topRelays E now)) (hscore : p.score ≤ score)
    (hnone : Selection.before precedes p l₁ l₂ = 0) :
    Selection.before precedes p (earlier.flatMap (r.candidatesTo E now) ++ l₁)
      (l₂ ++ later.flatMap (r.candidatesTo E now)) ≤ r.rivals E now earlier later score := by
  rw [before_candidates, hnone, Nat.zero_add]
  refine Nat.add_le_add (List.sum_le_sum fun d _ ↦ ?_) (List.sum_le_sum fun d _ ↦ ?_)
  · exact (countP_candidatesTo_le hp hscore).1
  · exact (countP_candidatesTo_le hp hscore).2

/-- The rivals are ahead of a path. -/
theorem rivals_le_before (hp : frontRank (r.topRelays E now) ≤ rank p)
    (hscore : rank p = frontRank (r.topRelays E now) → score = p.score) :
    r.rivals E now earlier later score ≤
      Selection.before precedes p (earlier.flatMap (r.candidatesTo E now) ++ l₁)
        (l₂ ++ later.flatMap (r.candidatesTo E now)) := by
  rw [before_candidates]
  refine le_trans ?_ (Nat.le_add_left _ _)
  refine Nat.add_le_add (List.sum_le_sum fun d _ ↦ ?_) (List.sum_le_sum fun d _ ↦ ?_)
  · exact (le_countP_candidatesTo hp hscore).1
  · exact (le_countP_candidatesTo hp hscore).2

theorem mem_paths_iff (hsome : r.aliveControls now ≠ []) :
    p ∈ (r.buildPaths E now).paths ↔ p ∈ (stableSort precedes (r.candidates E now)).take 5 := by
  rw [buildPaths, if_neg hsome]
  exact (E.shuffle_perm _).mem_iff

/-- The addresses of the paths, each once. -/
theorem qualifyingControlAddrs_spec (r : Router) : r.qualifyingControlAddrs.Nodup ∧
    ∀ a, a ∈ r.qualifyingControlAddrs ↔ ∃ p ∈ r.paths, p.controlAddr = a := by
  have hfold : ∀ (paths : List RouterPath) (out : List String), out.Nodup →
      (paths.foldl (fun out p ↦ if p.controlAddr ∈ out then out else out ++ [p.controlAddr])
        out).Nodup ∧
      ∀ a, a ∈ paths.foldl (fun out p ↦ if p.controlAddr ∈ out then out
        else out ++ [p.controlAddr]) out ↔ a ∈ out ∨ ∃ p ∈ paths, p.controlAddr = a := by
    intro paths
    induction paths with
    | nil => exact fun out h ↦ ⟨h, by simp⟩
    | cons p paths ih =>
      intro out h
      rw [List.foldl_cons]
      split
      · rename_i hp
        refine ⟨(ih out h).1, fun a ↦ ((ih out h).2 a).trans ?_⟩
        rw [List.exists_mem_cons_iff, ← or_assoc, or_iff_left_of_imp fun ha : _ = a ↦ ha ▸ hp]
      · rename_i hp
        obtain ⟨hnd, hmem⟩ := ih _ (List.concat_eq_append ▸ List.Nodup.concat hp h)
        exact ⟨hnd, fun a ↦ (hmem a).trans (by simp [eq_comm, or_assoc])⟩
  simpa [qualifyingControlAddrs] using hfold r.paths [] List.nodup_nil

theorem reached_of_mem (hp : p ∈ (r.buildPaths E now).paths) : r.Reached E now p.controlAddr := by
  have hsome : r.aliveControls now ≠ [] := fun hnone ↦ by
    rw [buildPaths, if_pos hnone] at hp
    cases hp
  obtain ⟨c', hc', chain, hchain, hpath⟩ := candidate_of_mem_paths hp
  -- The first control at the address, and the first place of the path among those to it.
  have haddr : p.controlAddr = c'.addr := hpath ▸ rfl
  have hex : ∃ d ∈ r.eligibleControls E now, d.addr = c'.addr := ⟨c', hc', rfl⟩
  obtain ⟨c, -, hc, hfind⟩ := Keyed.exists_find? hex
  obtain ⟨-, earlier, later, hsplit, hfirst⟩ := List.find?_eq_some_iff_append.mp hfind
  have hto : p ∈ r.candidatesTo E now c := by
    refine List.mem_map.mpr ⟨chain, mem_relayChains.mpr hchain, ?_⟩
    rw [hpath, pathTo, pathTo, hc]
  obtain ⟨l₁, l₂, hl, hnot⟩ := List.eq_append_cons_of_mem hto
  have hearlier : p ∉ earlier.flatMap (r.candidatesTo E now) := by
    intro hmem
    obtain ⟨d, hd, hpd⟩ := List.mem_flatMap.mp hmem
    obtain ⟨-, -, hdaddr, -⟩ := exists_chain_of_mem_candidatesTo hpd
    exact absurd (hdaddr.symm.trans haddr) (by simpa using hfirst d hd)
  rw [mem_paths_iff hsome, candidates_split hsplit hl] at hp
  have hfive := Selection.before_lt_of_mem_take strictWeak_precedes
    (by simp only [List.mem_append, not_or]; exact ⟨hearlier, hnot⟩) hp
  obtain ⟨chain', hchain', -, hscore, hrank⟩ := exists_chain_of_mem_candidatesTo hto
  have hle : frontRank (r.topRelays E now) ≤ rank p := hrank ▸ frontRank_le hchain'
  have hrivals : ∀ score, (rank p = frontRank (r.topRelays E now) → score = p.score) →
      r.rivals E now earlier later score < 5 :=
    fun score hfront ↦ (rivals_le_before hle hfront).trans_lt hfive
  refine ⟨earlier, c, later, hsplit, hc.trans haddr.symm, ?_⟩
  by_cases hfront : rank p = frontRank (r.topRelays E now)
  · exact ⟨chain', mem_relayChains.mp hchain',
      (frontRank_eq_iff hchain').mp (hrank.symm.trans hfront), hrivals _ fun _ ↦ hscore.symm⟩
  · obtain ⟨front, hmem, hsome⟩ := exists_frontChain (r.topRelays E now)
    exact ⟨front, hmem, hsome, hrivals _ fun h ↦ absurd h hfront⟩

/-- A control that is reached is on a path: the best of those to it is kept. -/
theorem mem_of_reached {addr : String} (h : r.Reached E now addr) :
    ∃ p ∈ (r.buildPaths E now).paths, p.controlAddr = addr := by
  obtain ⟨earlier, c, later, hsplit, haddr, chain, hchain, hfront, hfive⟩ := h
  have hsome : r.aliveControls now ≠ [] := aliveControls_ne_nil (E := E) (by simp [hsplit])
  rw [← mem_relayChains] at hchain
  set q := r.scored now (r.eligibleControls E now) (r.topRelays E now) (pathTo c chain)
  have hq : q ∈ r.candidatesTo E now c := List.mem_map_of_mem hchain
  obtain ⟨p, l₁, l₂, hl, hnone⟩ := Selection.exists_before_eq_zero strictWeak_precedes
    (List.ne_nil_of_mem hq)
  have hpq : precedes q p = false := Selection.not_less_of_before_eq_zero strictWeak_precedes hnone
    (hl ▸ hq)
  have hp : p ∈ r.candidatesTo E now c := hl ▸ by simp
  obtain ⟨chain', hchain', hpaddr, -, hrank⟩ := exists_chain_of_mem_candidatesTo hp
  have hle := frontRank_le hchain'
  have hqrank : rank q = frontRank (r.topRelays E now) :=
    (rank_scored _ _ _ _).trans ((frontRank_eq_iff hchain).mpr hfront)
  have hqscore : q.score = r.cost E now c chain := score_scored _ _
  rw [precedes_eq_false_iff, hqrank, hqscore, hrank] at hpq
  have hprank : rank p = frontRank (r.topRelays E now) := by omega
  have hcost : p.score ≤ r.cost E now c chain := by omega
  refine ⟨p, (mem_paths_iff hsome).mpr ?_, hpaddr.trans haddr⟩
  rw [candidates_split hsplit hl]
  exact Selection.mem_take_of_before_lt strictWeak_precedes
    ((before_le_rivals hprank hcost hnone).trans_lt hfive)

/-- **Which controls the paths lead to**: those that are reached. -/
theorem mem_qualifyingControlAddrs_iff {addr : String} :
    addr ∈ (r.buildPaths E now).qualifyingControlAddrs ↔ r.Reached E now addr := by
  rw [(qualifyingControlAddrs_spec _).2]
  refine ⟨?_, mem_of_reached⟩
  rintro ⟨p, hp, rfl⟩
  exact reached_of_mem hp

/-! ## UDP as the last resort -/

theorem controlTransport_of_mem (hnd : (r.controls.map RouterNode.addr).Nodup) {c : RouterNode}
    (hc : c ∈ r.controls) : r.controlTransport c.addr = c.transport := by
  have hsome : ∃ d ∈ r.controls, d.addr = c.addr := ⟨c, hc, rfl⟩
  obtain ⟨d, hd, haddr, hfind⟩ := Keyed.exists_find? hsome
  rw [List.inj_on_of_nodup_map hnd hd hc haddr] at hfind
  rw [controlTransport, hfind]

/-- A path leads to the controls at its address that paths are built to. -/
def LeadsTo (E : Env) (r : Router) (now : ℤ) (p : RouterPath) (c : RouterNode) : Prop :=
  c ∈ r.eligibleControls E now ∧ c.addr = p.controlAddr

/-- Either a control that can be reached by TCP passes the filter by country, or each of the others
that do is outdone by five paths to other controls. -/
def UDPOutdone (E : Env) (r : Router) (now : ℤ) : Prop :=
  (∃ c ∈ r.controls, r.alive now c = true ∧ r.InCountry now c ∧ c.transport = .tcp) ∨
    ∀ c ∈ r.controls, r.alive now c = true → r.InCountry now c → c.transport = .udp →
      ¬ r.Reached E now c.addr

/-- If none that passes the filter by country can be reached by TCP, all of them are used. -/
theorem mem_eligibleControls_udp (hnone : ¬ ∃ c ∈ r.controls, r.alive now c = true ∧
    r.InCountry now c ∧ c.transport = .tcp) {c : RouterNode} :
    c ∈ r.eligibleControls E now ∧ c.transport = .udp ↔
      c ∈ r.controls ∧ r.alive now c = true ∧ r.InCountry now c ∧ c.transport = .udp := by
  refine ⟨fun ⟨hc, hudp⟩ ↦ ?_, fun ⟨hc, ha, hin, hudp⟩ ↦ ⟨aliveControls_subset ?_, hudp⟩⟩
  · obtain ⟨hmem, ha, ⟨hin, -⟩ | ⟨-, -, htcp⟩⟩ := eligible_of_mem hc
    · exact ⟨hmem, ha, hin, hudp⟩
    · exact absurd (htcp.symm.trans hudp) (by decide)
  · refine mem_aliveControls.mpr ⟨hc, ha, hin, .inr fun d hd had hdin htcp ↦ ?_⟩
    exact hnone ⟨d, hd, had, hdin, htcp⟩

theorem tcp_of_mem_eligibleControls (hsome : ∃ c ∈ r.controls, r.alive now c = true ∧
    r.InCountry now c ∧ c.transport = .tcp) {c : RouterNode} (hc : c ∈ r.eligibleControls E now) :
    c.transport = .tcp := by
  obtain ⟨-, -, ⟨-, htcp | hnone⟩ | ⟨-, -, htcp⟩⟩ := eligible_of_mem hc
  · exact htcp
  · obtain ⟨d, hd, ha, hin, hd'⟩ := hsome
    exact absurd hd' (hnone d hd ha hin)
  · exact htcp

theorem transport_eq_tcp_iff {t : ControlTransport} : t = .tcp ↔ t ≠ .udp := by
  cases t <;> simp

theorem forall_leadsTo_tcp_iff :
    (∀ p ∈ (r.buildPaths E now).paths, ∀ c, r.LeadsTo E now p c → c.transport = .tcp) ↔
      r.UDPOutdone E now := by
  by_cases hsome : ∃ c ∈ r.controls, r.alive now c = true ∧ r.InCountry now c ∧ c.transport = .tcp
  · exact iff_of_true (fun p _ c hc ↦ tcp_of_mem_eligibleControls hsome hc.1) (.inl hsome)
  rw [UDPOutdone, or_iff_right hsome]
  refine ⟨fun h c hc ha hin hudp hreached ↦ ?_, fun h p hp c hc ↦ ?_⟩
  · obtain ⟨p, hp, haddr⟩ := mem_of_reached hreached
    have hmem := (mem_eligibleControls_udp (E := E) hsome).mpr ⟨hc, ha, hin, hudp⟩
    exact absurd ((h p hp c ⟨hmem.1, haddr.symm⟩).symm.trans hudp) (by decide)
  · refine transport_eq_tcp_iff.mpr fun hudp ↦ ?_
    obtain ⟨hmem, ha, hin, -⟩ := (mem_eligibleControls_udp hsome).mp ⟨hc.1, hudp⟩
    exact h c hmem ha hin hudp (hc.2 ▸ reached_of_mem hp)

/-- **When UDP is the last resort.**  No path leads to a control that only UDP can reach exactly if
a control that TCP can reach passes the filter by country, or each of the country's is outdone by
five paths.  If the addresses are different, it is the same for what `ControlTransport` returns. -/
theorem udp_last_iff (E : Env) (r : Router) (now : ℤ) :
    r.Selected E now ∧
    ((∀ p ∈ (r.buildPaths E now).paths, ∀ c, r.LeadsTo E now p c → c.transport = .tcp) ↔
      r.UDPOutdone E now) ∧
    ((r.controls.map RouterNode.addr).Nodup →
      ((∀ p ∈ (r.buildPaths E now).paths, r.controlTransport p.controlAddr = .tcp) ↔
        r.UDPOutdone E now)) := by
  refine ⟨selected E r now, forall_leadsTo_tcp_iff,
    fun hnd ↦ Iff.trans ?_ forall_leadsTo_tcp_iff⟩
  refine forall₂_congr fun p hp ↦ ?_
  obtain ⟨d, hd, hdaddr⟩ := exists_control hp
  rw [hdaddr, controlTransport_of_mem hnd (eligible_of_mem hd).1]
  refine ⟨fun htcp c ⟨hc, hcaddr⟩ ↦ ?_, fun h ↦ h d ⟨hd, hdaddr.symm⟩⟩
  rwa [List.inj_on_of_nodup_map hnd (eligible_of_mem hc).1 (eligible_of_mem hd).1
    (hcaddr.trans hdaddr)]

/-- A control in a country, with the time a request takes in milliseconds. -/
def demoControl (name country : String) (ms : ℤ) (transport : ControlTransport) : RouterNode :=
  ⟨name, name ++ ":443", name, country, ms * 1000000, 0, 0, true, transport⟩

/-- A router in a country, with no measurements but those of its nodes. -/
def demoRouter (country : String) (controls relays : List RouterNode) : Router where
  relays := relays
  controls := controls
  paths := []
  pathIdx := 0
  myCountry := country
  dataDead _ := none
  udpPeers _ := none
  flaps _ := []

/-- A control by UDP in the country, a much faster one by TCP in another, and five relays of one
operator. -/
def demoOutdone : Router :=
  demoRouter "RU" [demoControl "a" "RU" 500 .udp, demoControl "b" "SE" 10 .tcp]
    (["r", "s", "t", "u", "v"].map fun n ↦ ⟨n, n ++ ":443", "o", "", 10000000, 0, 0, true, .tcp⟩)

/-- The control by UDP passes the filters, and five paths to the other keep it out. -/
theorem udp_last_iff_outdone :
    (∃ p, p ∈ (demoOutdone.buildPaths .plain 0).paths) ∧ demoOutdone.UDPOutdone .plain 0 := by
  refine ⟨List.exists_mem_of_ne_nil _ (by decide +kernel), ?_⟩
  exact ((udp_last_iff .plain demoOutdone 0).2.2 (by decide +kernel)).mp (by decide +kernel)

/-- Two controls, one by UDP in the country and one by TCP in another. -/
def demoAbroad : Router :=
  demoRouter "RU" [demoControl "a" "RU" 50 .udp, demoControl "b" "SE" 90 .tcp] []

/-- A control by TCP is alive, and there is a path to the one by UDP. -/
theorem udp_path_kept :
    (∃ c ∈ demoAbroad.controls, demoAbroad.alive 0 c = true ∧ c.transport = .tcp) ∧
      ∃ p ∈ (demoAbroad.buildPaths .plain 0).paths,
        demoAbroad.controlTransport p.controlAddr = .udp ∧
        ∀ c ∈ demoAbroad.controls, c.addr = p.controlAddr → c.transport = .udp := by
  decide +kernel

/-! ## Three controls -/

/-- **When no single control is a point of failure.**  The paths lead to three controls exactly if
three different addresses are reached. -/
theorem three_controls_iff (E : Env) (r : Router) (now : ℤ) :
    r.Selected E now ∧
    (3 ≤ (r.buildPaths E now).qualifyingControlAddrs.length ↔
      ∃ a b c, [a, b, c].Nodup ∧ ∀ addr ∈ [a, b, c], r.Reached E now addr) := by
  have hnd := (qualifyingControlAddrs_spec (r.buildPaths E now)).1
  simp only [← mem_qualifyingControlAddrs_iff]
  refine ⟨selected E r now, fun h ↦ ?_, ?_⟩
  · match hl : (r.buildPaths E now).qualifyingControlAddrs, h with
    | a :: b :: c :: rest, _ =>
      rw [hl] at hnd
      have hsub : [a, b, c].Sublist (a :: b :: c :: rest) := by simp
      exact ⟨a, b, c, hnd.sublist hsub, fun addr haddr ↦ hsub.subset haddr⟩
  · rintro ⟨a, b, c, hdiff, hmem⟩
    exact (List.subperm_of_subset hdiff hmem).length_le

/-- Three controls, and five relays of one operator: the five paths over a relay to the nearest
control are the best. -/
theorem one_control_left :
    ((demoRouter "" [demoControl "a" "" 10 .tcp, demoControl "b" "" 90 .tcp,
      demoControl "c" "" 95 .tcp] (["r", "s", "t", "u", "v"].map fun n ↦ ⟨n, n ++ ":443", "o", "",
        10000000, 0, 0, true, .tcp⟩)).buildPaths .plain 0).qualifyingControlAddrs = ["a:443"] := by
  decide +kernel

end TunnelCat.Router
