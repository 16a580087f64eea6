import TunnelCat.Router.Paths

/-!
# The best paths are kept

`BuildPaths` enumerates the chains of relays by three nested loops with tests of their own at each
depth.  `mem_relayChains` says what comes out of them: the lists of at most three of the relays, no
two with the same id and no two with the same operator.  `mem_aliveControls` and `mem_outOfCountry`
say which controls pass the filters.  The rest is that a sorted list is cut: `WellChosen` is what is
true of the five paths that are kept.
-/

set_option autoImplicit false

namespace TunnelCat.Router

variable {E : Env} {r : Router} {now : ℤ}

/-! ## Chains of relays -/

/-- At most three relays, no two with the same id or the same operator. -/
structure IsChain (live chain : List RouterNode) : Prop where
  /-- There are at most three. -/
  length_le : chain.length ≤ 3
  /-- All of them are relays to be used. -/
  subset : chain ⊆ live
  /-- They are different, and of different operators. -/
  distinct : chain.Pairwise fun a b ↦ a.id ≠ b.id ∧ a.operatorID ≠ b.operatorID

variable {c : RouterNode} {live chain : List RouterNode}

theorem isChain_of_mem_relayChains (h : chain ∈ relayChains live) :
    IsChain live chain := by
  -- From the outermost loop to the innermost.
  rcases List.mem_cons.mp h with rfl | h
  · exact ⟨by simp, by simp, .nil⟩
  obtain ⟨r1, h1, h⟩ := List.mem_flatMap.mp h
  rcases List.mem_cons.mp h with rfl | h
  · exact ⟨by simp, by simpa using h1, by simp⟩
  obtain ⟨r2, h2, h⟩ := List.mem_flatMap.mp h
  split at h
  · simp at h
  rename_i h12
  rw [not_or] at h12
  rcases List.mem_cons.mp h with rfl | h
  · refine ⟨by simp, by simp [h1, h2], ?_⟩
    simp [Ne.symm h12.1, Ne.symm h12.2]
  obtain ⟨r3, h3, h⟩ := List.mem_flatMap.mp h
  split at h
  · simp at h
  rename_i hid
  split at h
  · simp at h
  rename_i hop
  rw [not_or] at hid hop
  obtain rfl := List.mem_singleton.mp h
  refine ⟨by simp, by simp [h1, h2, h3], ?_⟩
  simp [Ne.symm h12.1, Ne.symm h12.2, Ne.symm hid.1, Ne.symm hid.2, Ne.symm hop.1,
    Ne.symm hop.2]

theorem IsChain.mem_relayChains (h : IsChain live chain) :
    chain ∈ relayChains live := by
  obtain ⟨hlen, hsub, hdist⟩ := h
  match chain with
  | [] => exact List.mem_cons_self ..
  | [r1] =>
    have h1 : r1 ∈ live := hsub (by simp)
    exact List.mem_cons_of_mem _ (List.mem_flatMap.mpr ⟨r1, h1, List.mem_cons_self ..⟩)
  | [r1, r2] =>
    have h1 : r1 ∈ live := hsub (by simp)
    have h2 : r2 ∈ live := hsub (by simp)
    have h12 : r1.id ≠ r2.id ∧ r1.operatorID ≠ r2.operatorID := by simpa using hdist
    refine List.mem_cons_of_mem _ (List.mem_flatMap.mpr ⟨r1, h1, List.mem_cons_of_mem _ ?_⟩)
    refine List.mem_flatMap.mpr ⟨r2, h2, ?_⟩
    rw [if_neg (not_or.mpr ⟨Ne.symm h12.1, Ne.symm h12.2⟩)]
    exact List.mem_cons_self ..
  | [r1, r2, r3] =>
    have h1 : r1 ∈ live := hsub (by simp)
    have h2 : r2 ∈ live := hsub (by simp)
    have h3 : r3 ∈ live := hsub (by simp)
    simp only [List.pairwise_cons, List.mem_cons, List.not_mem_nil, or_false, forall_eq_or_imp,
      forall_eq] at hdist
    obtain ⟨⟨h12, h13⟩, h23, -⟩ := hdist
    refine List.mem_cons_of_mem _ (List.mem_flatMap.mpr ⟨r1, h1, List.mem_cons_of_mem _ ?_⟩)
    refine List.mem_flatMap.mpr ⟨r2, h2, ?_⟩
    rw [if_neg (not_or.mpr ⟨Ne.symm h12.1, Ne.symm h12.2⟩)]
    refine List.mem_cons_of_mem _ (List.mem_flatMap.mpr ⟨r3, h3, ?_⟩)
    rw [if_neg (not_or.mpr ⟨Ne.symm h13.1, Ne.symm h23.1⟩),
      if_neg (not_or.mpr ⟨Ne.symm h13.2, Ne.symm h23.2⟩)]
    exact List.mem_singleton_self _
  | _ :: _ :: _ :: _ :: _ =>
    simp only [List.length_cons] at hlen
    omega

theorem mem_relayChains :
    chain ∈ relayChains live ↔ IsChain live chain :=
  ⟨isChain_of_mem_relayChains, IsChain.mem_relayChains⟩

/-! ## Controls -/

/-- A control passes the filter by country: it is of the country, unless there is none that is. -/
def InCountry (r : Router) (now : ℤ) (c : RouterNode) : Prop :=
  r.myCountry = "" ∨ c.countryCode = r.myCountry ∨
    ∀ d ∈ r.controls, r.alive now d = true → d.countryCode ≠ r.myCountry

/-- A control passes the filter by transport: it can be reached by TCP, unless there is none that
can. -/
def ByTCP (r : Router) (now : ℤ) (c : RouterNode) : Prop :=
  c.transport = .tcp ∨
    ∀ d ∈ r.controls, r.alive now d = true → r.InCountry now d → d.transport ≠ .tcp

theorem mem_splitByCountry : c ∈ (r.splitByCountry now).1 ↔
    c ∈ r.controls ∧ r.alive now c = true ∧ r.InCountry now c := by
  unfold splitByCountry InCountry
  dsimp only
  split
  · rename_i hany
    simp [hany]
  rename_i hcountry
  split
  · rename_i hsome
    obtain ⟨d, hd⟩ := List.exists_mem_of_ne_nil _ hsome
    simp only [List.mem_filter, decide_eq_true_eq] at hd ⊢
    refine ⟨fun ⟨⟨hc, ha⟩, hin⟩ ↦ ⟨hc, ha, .inr (.inl hin)⟩, fun ⟨hc, ha, hin⟩ ↦ ⟨⟨hc, ha⟩, ?_⟩⟩
    exact (hin.resolve_left hcountry).resolve_right fun hnone ↦ hnone d hd.1.1 hd.1.2 hd.2
  · rename_i hnone
    rw [ne_eq, not_not, List.filter_eq_nil_iff] at hnone
    rw [List.mem_filter]
    refine ⟨fun ⟨hc, ha⟩ ↦ ⟨hc, ha, .inr (.inr fun d hd had ↦ ?_)⟩, fun ⟨hc, ha, _⟩ ↦ ⟨hc, ha⟩⟩
    simpa using hnone d (List.mem_filter.mpr ⟨hd, had⟩)

/-- Which controls pass both filters. -/
theorem mem_aliveControls : c ∈ r.aliveControls now ↔
    c ∈ r.controls ∧ r.alive now c = true ∧ r.InCountry now c ∧ r.ByTCP now c := by
  unfold aliveControls ByTCP
  dsimp only
  split
  · rename_i hsome
    obtain ⟨d, hd⟩ := List.exists_mem_of_ne_nil _ hsome
    simp only [tcpOnly, List.mem_filter, mem_splitByCountry, decide_eq_true_eq] at hd ⊢
    refine ⟨fun ⟨⟨hc, ha, hin⟩, htcp⟩ ↦ ⟨hc, ha, hin, .inl htcp⟩,
      fun ⟨hc, ha, hin, htcp⟩ ↦ ⟨⟨hc, ha, hin⟩, ?_⟩⟩
    exact htcp.resolve_right fun hnone ↦ hnone d hd.1.1 hd.1.2.1 hd.1.2.2 hd.2
  · rename_i hnone
    rw [ne_eq, not_not, tcpOnly, List.filter_eq_nil_iff] at hnone
    rw [mem_splitByCountry]
    refine ⟨fun ⟨hc, ha, hin⟩ ↦ ⟨hc, ha, hin, .inr fun d hd had hdin ↦ ?_⟩,
      fun ⟨hc, ha, hin, _⟩ ↦ ⟨hc, ha, hin⟩⟩
    simpa using hnone d (mem_splitByCountry.mpr ⟨hd, had, hdin⟩)

/-- A control of another country that may be added. -/
theorem mem_outOfCountry (h : c ∈ r.outOfCountry now) :
    c ∈ r.controls ∧ r.alive now c = true ∧ c.countryCode ≠ r.myCountry ∧ c.transport = .tcp := by
  rw [outOfCountry, tcpOnly, List.mem_filter] at h
  obtain ⟨hc, htcp⟩ := h
  unfold splitByCountry at hc
  dsimp only at hc
  split at hc
  · simp at hc
  split at hc
  · simp only [List.mem_filter, decide_eq_true_eq] at hc
    exact ⟨hc.1.1, hc.1.2, hc.2, by simpa using htcp⟩
  · simp at hc

theorem mem_outOfCountry_of_not_inCountry (hc : c ∈ r.controls) (ha : r.alive now c = true)
    (hin : ¬ r.InCountry now c) (htcp : c.transport = .tcp) :
    c ∈ r.outOfCountry now := by
  rw [InCountry, not_or, not_or] at hin
  obtain ⟨hcountry, hother, hsome⟩ := hin
  have hne :
      ((r.controls.filter (r.alive now)).filter fun d ↦ d.countryCode = r.myCountry) ≠ [] := by
    intro hnil
    refine hsome fun d hd had hdc ↦ ?_
    exact List.filter_eq_nil_iff.mp hnil d (List.mem_filter.mpr ⟨hd, had⟩) (decide_eq_true hdc)
  rw [outOfCountry, tcpOnly, List.mem_filter, splitByCountry]
  dsimp only
  rw [if_neg hcountry, if_pos hne]
  simp [hc, ha, hother, htcp]

/-- The filters let some control pass if any is alive. -/
theorem aliveControls_eq_nil_iff :
    r.aliveControls now = [] ↔ ∀ c ∈ r.controls, r.alive now c = false := by
  refine ⟨fun h ↦ ?_, fun h ↦ ?_⟩
  · have hsplit : (r.splitByCountry now).1 = [] := by
      unfold aliveControls at h
      dsimp only at h
      split at h
      · contradiction
      · exact h
    have halive : r.controls.filter (r.alive now) = [] := by
      unfold splitByCountry at hsplit
      dsimp only at hsplit
      split at hsplit
      · exact hsplit
      split at hsplit
      · contradiction
      · exact hsplit
    simpa using List.filter_eq_nil_iff.mp halive
  · rw [List.eq_nil_iff_forall_not_mem]
    intro c hc
    obtain ⟨hc, ha, -⟩ := mem_aliveControls.mp hc
    rw [h c hc] at ha
    cases ha

/-- A control that paths may be built to: it passes the filters, or it is one of another country
that is added because less than three do. -/
def Eligible (r : Router) (now : ℤ) (c : RouterNode) : Prop :=
  c ∈ r.controls ∧ r.alive now c = true ∧ (r.InCountry now c ∧ r.ByTCP now c ∨
    (r.aliveControls now).length < 3 ∧ c.countryCode ≠ r.myCountry ∧ c.transport = .tcp)

theorem eligible_of_mem (h : c ∈ r.eligibleControls E now) : r.Eligible now c := by
  have hfiltered : c ∈ r.aliveControls now → r.Eligible now c := fun hc ↦ by
    obtain ⟨hc, ha, hpass⟩ := mem_aliveControls.mp hc
    exact ⟨hc, ha, .inl hpass⟩
  unfold eligibleControls at h
  dsimp only at h
  split at h
  · rename_i hfew
    rcases List.mem_append.mp h with h | h
    · exact hfiltered h
    · have hout := E.sort.mem_byKey.mp (List.mem_of_mem_take h)
      obtain ⟨hc, ha, hcountry, htcp⟩ := mem_outOfCountry hout
      exact ⟨hc, ha, .inr ⟨hfew.1, hcountry, htcp⟩⟩
  · exact hfiltered h

theorem aliveControls_subset : r.aliveControls now ⊆ r.eligibleControls E now := by
  unfold eligibleControls
  dsimp only
  split
  · exact List.subset_append_left _ _
  · exact List.Subset.refl _

/-- If less than three controls are used, all that can be reached by TCP are. -/
theorem mem_eligibleControls_of_few (hfew : (r.eligibleControls E now).length < 3)
    (hc : c ∈ r.controls) (ha : r.alive now c = true) (htcp : c.transport = .tcp) :
    c ∈ r.eligibleControls E now := by
  by_cases hin : r.InCountry now c
  · exact aliveControls_subset (mem_aliveControls.mpr ⟨hc, ha, hin, .inl htcp⟩)
  have hout : c ∈ r.outOfCountry now := mem_outOfCountry_of_not_inCountry hc ha hin htcp
  unfold eligibleControls at hfew ⊢
  dsimp only at hfew ⊢
  split at hfew
  · rename_i hcond
    rw [if_pos hcond, List.mem_append]
    rw [List.length_append, List.length_take, (E.sort.perm_byKey _ _).length_eq] at hfew
    right
    rw [List.take_of_length_le (by rw [(E.sort.perm_byKey _ _).length_eq]; omega)]
    exact E.sort.mem_byKey.mpr hout
  · rename_i hcond
    exact absurd ⟨hfew, List.ne_nil_of_mem hout⟩ hcond

theorem aliveControls_ne_nil (h : r.eligibleControls E now ≠ []) : r.aliveControls now ≠ [] := by
  obtain ⟨c, hc⟩ := List.exists_mem_of_ne_nil _ h
  intro hnil
  obtain ⟨hmem, ha, -⟩ := eligible_of_mem hc
  rw [aliveControls_eq_nil_iff.mp hnil c hmem] at ha
  cases ha

/-! ## Relays -/

/-- A relay that paths may be built over: it is alive and of the country, unless none is. -/
def Usable (r : Router) (now : ℤ) (n : RouterNode) : Prop :=
  n ∈ r.relays ∧ r.alive now n = true ∧ (r.myCountry = "" ∨ n.countryCode = r.myCountry ∨
    ∀ m ∈ r.relays, r.alive now m = true → m.countryCode ≠ r.myCountry)

theorem mem_liveRelays {n : RouterNode} : n ∈ r.liveRelays now ↔ r.Usable now n := by
  unfold liveRelays Usable
  dsimp only
  split
  · rename_i hnone
    obtain ⟨hcountry, hnil⟩ := hnone
    rw [List.mem_filter]
    refine ⟨fun ⟨hn, ha⟩ ↦ ⟨hn, ha, .inr (.inr fun m hm hma hmc ↦ ?_)⟩, fun ⟨hn, ha, _⟩ ↦ ⟨hn, ha⟩⟩
    exact List.filter_eq_nil_iff.mp hnil m hm (by simp [hma, hmc])
  · rename_i hsome
    simp only [List.mem_filter, Bool.and_eq_true, Bool.or_eq_true, decide_eq_true_eq]
    refine ⟨fun ⟨hn, ha, hc⟩ ↦ ⟨hn, ha, hc.imp_right .inl⟩, fun ⟨hn, ha, hc⟩ ↦ ⟨hn, ha, ?_⟩⟩
    by_contra hout
    rw [not_or] at hout
    have hnone := (hc.resolve_left hout.1).resolve_left hout.2
    refine hsome ⟨hout.1, List.filter_eq_nil_iff.mpr fun m hm hma ↦ ?_⟩
    simp only [Bool.and_eq_true, Bool.or_eq_true, decide_eq_true_eq] at hma
    exact hnone m hm hma.1 (hma.2.resolve_left hout.1)

/-- A relay that is left out has no lower score than one that is used. -/
theorem nodeScore_le_of_notMem_topRelays {n m : RouterNode} (hn : n ∈ r.liveRelays now)
    (hout : n ∉ r.topRelays E now) (hm : m ∈ r.topRelays E now) :
    r.nodeScore E now m ≤ r.nodeScore E now n :=
  Selection.rel_of_mem_take_drop (E.sort.sorted_byKey _ _) hm
    (Selection.mem_drop_of_notMem_take (E.sort.mem_byKey.mpr hn) hout)

/-! ## The order of paths -/

/-- What paths are ordered by. -/
def rank (p : RouterPath) : ℕ := if 0 < p.relays.length then 0 else 1

theorem precedes_iff (p q : RouterPath) :
    precedes p q = true ↔ rank p < rank q ∨ rank p = rank q ∧ p.score < q.score := by
  unfold precedes rank
  by_cases hp : 0 < p.relays.length <;> by_cases hq : 0 < q.relays.length <;> simp [hp, hq]

theorem precedes_eq_false_iff (p q : RouterPath) :
    precedes p q = false ↔ rank q < rank p ∨ rank q = rank p ∧ q.score ≤ p.score := by
  rw [← Bool.not_eq_true, precedes_iff]
  omega

theorem strictWeak_precedes : StrictWeak precedes where
  asymm {p q} hpq := by
    rw [precedes_iff] at hpq
    rw [precedes_eq_false_iff]
    omega
  trans {p q s} hpq hqs := by
    rw [precedes_eq_false_iff] at hpq hqs ⊢
    omega

/-! ## The paths that are kept -/

/-- A path over some of the relays to one of the controls, with its score. -/
def Candidate (E : Env) (r : Router) (now : ℤ) (p : RouterPath) : Prop :=
  ∃ c ∈ r.eligibleControls E now, ∃ chain, IsChain (r.topRelays E now) chain ∧
    p = r.scored now (r.eligibleControls E now) (r.topRelays E now) (pathTo c chain)

theorem mem_candidates {p : RouterPath} : p ∈ r.candidates E now ↔ r.Candidate E now p := by
  simp only [candidates, allPaths, List.mem_map, List.mem_flatMap, mem_relayChains, Candidate]
  refine ⟨?_, ?_⟩
  · rintro ⟨-, ⟨c, hc, chain, hchain, rfl⟩, rfl⟩
    exact ⟨c, hc, chain, hchain, rfl⟩
  · rintro ⟨c, hc, chain, hchain, rfl⟩
    exact ⟨_, ⟨c, hc, chain, hchain, rfl⟩, rfl⟩

/-- What is true of the controls that paths are built to and of the relays they are built over. -/
structure Selected (E : Env) (r : Router) (now : ℤ) : Prop where
  /-- All controls that paths are built to are eligible. -/
  controls : ∀ c ∈ r.eligibleControls E now, r.Eligible now c
  /-- All controls that pass the filters are among them. -/
  filtered : ∀ c ∈ r.controls, r.alive now c = true → r.InCountry now c → r.ByTCP now c →
    c ∈ r.eligibleControls E now
  /-- With less than three, all controls that can be reached by TCP are. -/
  supplemented : (r.eligibleControls E now).length < 3 → ∀ c ∈ r.controls, r.alive now c = true →
    c.transport = .tcp → c ∈ r.eligibleControls E now
  /-- The relays to choose from are those that are alive, of the country if there are any. -/
  usable : ∀ n, n ∈ r.liveRelays now ↔ r.Usable now n
  /-- The relays that paths are built over are some of these. -/
  relays : (r.topRelays E now).Subperm (r.liveRelays now)
  /-- There are twenty, or all of them. -/
  relays_length : (r.topRelays E now).length = min 20 (r.liveRelays now).length
  /-- No relay that is left out has a lower score. -/
  relays_best : ∀ n ∈ r.liveRelays now, n ∉ r.topRelays E now → ∀ m ∈ r.topRelays E now,
    r.nodeScore E now m ≤ r.nodeScore E now n
  /-- The chains are those of at most three of them with different ids and operators. -/
  chains : ∀ chain, chain ∈ relayChains (r.topRelays E now) ↔ IsChain (r.topRelays E now) chain

theorem selected (E : Env) (r : Router) (now : ℤ) : r.Selected E now where
  controls _ := eligible_of_mem
  filtered _ hc ha hin htcp := aliveControls_subset (mem_aliveControls.mpr ⟨hc, ha, hin, htcp⟩)
  supplemented hfew _ hc ha htcp := mem_eligibleControls_of_few hfew hc ha htcp
  usable _ := mem_liveRelays
  relays := (List.take_sublist _ _).subperm.trans (E.sort.perm_byKey _ _).subperm
  relays_length := by rw [topRelays, List.length_take, (E.sort.perm_byKey _ _).length_eq]
  relays_best _ hn hout _ hm := nodeScore_le_of_notMem_topRelays hn hout hm
  chains _ := mem_relayChains

/-- What is true of the paths that are kept. -/
structure WellChosen (E : Env) (r : Router) (now : ℤ) (paths : List RouterPath) : Prop
    extends Selected E r now where
  /-- There is a path. -/
  length_pos : 1 ≤ paths.length
  /-- There are at most five. -/
  length_le : paths.length ≤ 5
  /-- The paths are over at most three relays with different ids and different operators. -/
  candidate : ∀ p ∈ paths, r.Candidate E now p
  /-- No candidate that is left out comes before one that is kept. -/
  best : ∀ p, r.Candidate E now p → p ∉ paths → ∀ q ∈ paths, precedes p q = false
  /-- No more so if it is there more than once. -/
  leftOut : ∃ rest, (paths ++ rest).Perm (r.candidates E now) ∧
    ∀ p ∈ rest, ∀ q ∈ paths, precedes p q = false

/-- The candidates are split into the paths that are kept and those that are left out: none of these
comes before one that is kept, and there are none unless five are kept. -/
theorem exists_leftOut (hsome : r.aliveControls now ≠ []) :
    ∃ rest, ((r.buildPaths E now).paths ++ rest).Perm (r.candidates E now) ∧
      (∀ p ∈ rest, ∀ q ∈ (r.buildPaths E now).paths, precedes p q = false) ∧
      (r.buildPaths E now).paths.length ≤ 5 ∧
      (rest ≠ [] → (r.buildPaths E now).paths.length = 5) := by
  rw [buildPaths, if_neg hsome]
  set sorted := sortStable (r.candidates E now)
  have hperm : sorted.Perm (r.candidates E now) := List.perm_insertionSort _ _
  have hshuffle : (E.shuffle (sorted.take 5)).Perm (sorted.take 5) := E.shuffle_perm _
  refine ⟨sorted.drop 5, ?_, fun p hp q hq ↦ ?_, ?_, fun hrest ↦ ?_⟩
  · refine (hshuffle.append_right _).trans ?_
    rw [List.take_append_drop]
    exact hperm
  · exact Selection.rel_of_mem_take_drop (strictWeak_precedes.pairwise_stableSort _)
      (hshuffle.mem_iff.mp hq) hp
  · rw [hshuffle.length_eq]
    exact List.length_take_le _ _
  · rw [ne_eq, List.drop_eq_nil_iff, not_le] at hrest
    rw [hshuffle.length_eq, List.length_take]
    omega

/-- A path that is kept is a candidate. -/
theorem candidate_of_mem_paths {p : RouterPath} (hp : p ∈ (r.buildPaths E now).paths) :
    r.Candidate E now p := by
  by_cases hnone : r.aliveControls now = []
  · rw [buildPaths, if_pos hnone] at hp
    cases hp
  · obtain ⟨rest, hperm, -⟩ := exists_leftOut (E := E) hnone
    exact mem_candidates.mp (hperm.mem_iff.mp (List.mem_append_left rest hp))

/-- The direct path to a control is a candidate. -/
theorem direct_mem_candidates (hc : c ∈ r.eligibleControls E now) :
    r.scored now (r.eligibleControls E now) (r.topRelays E now) (pathTo c []) ∈
      r.candidates E now :=
  mem_candidates.mpr ⟨c, hc, [], ⟨by simp, by simp, .nil⟩, rfl⟩

/-- There is a path if a control is alive. -/
theorem paths_ne_nil (hsome : r.aliveControls now ≠ []) : (r.buildPaths E now).paths ≠ [] := by
  obtain ⟨rest, hperm, -, -, hfive⟩ := exists_leftOut (E := E) hsome
  obtain ⟨c, hc⟩ := List.exists_mem_of_ne_nil _ hsome
  have hdirect := direct_mem_candidates (E := E) (aliveControls_subset hc)
  rcases List.mem_append.mp (hperm.mem_iff.mpr hdirect) with h | h
  · exact List.ne_nil_of_mem h
  · exact List.ne_nil_of_length_eq_add_one (hfive (List.ne_nil_of_mem h))

/-- **The best candidates are kept**, unless no control is alive. -/
theorem buildPaths_keeps_best (E : Env) (r : Router) (now : ℤ) :
    (∀ c ∈ r.controls, r.alive now c = false) ∧ (r.buildPaths E now).paths = [] ∨
      r.WellChosen E now (r.buildPaths E now).paths := by
  by_cases hnone : r.aliveControls now = []
  · exact .inl ⟨aliveControls_eq_nil_iff.mp hnone, by rw [buildPaths, if_pos hnone]⟩
  right
  obtain ⟨rest, hperm, hbest, hle, -⟩ := exists_leftOut (E := E) hnone
  exact
    { selected E r now with
      length_pos := List.length_pos_iff.mpr (paths_ne_nil hnone)
      length_le := hle
      candidate := fun p hp ↦ candidate_of_mem_paths hp
      best := fun p hp hout q hq ↦ hbest p
        ((List.mem_append.mp (hperm.mem_iff.mpr (mem_candidates.mpr hp))).resolve_left hout) q hq
      leftOut := ⟨rest, hperm, hbest⟩ }

/-- A stable sort, no shuffling, and exact arithmetic. -/
def Env.plain : Env where
  blend probe traffic := (3 * probe + 7 * traffic) / 10
  sort := .insertion
  shuffle paths := paths
  shuffle_perm _ := List.Perm.refl _

/-- One control and one relay. -/
def demoPair : Router where
  relays := [⟨"r", "r:1", "op", "", 40000000, 0, 0, true, .tcp⟩]
  controls := [⟨"c", "c:443", "", "", 50000000, 0, 0, true, .tcp⟩]
  paths := []
  pathIdx := 0
  myCountry := ""
  dataDead _ := none
  udpPeers _ := none
  flaps _ := []

/-- There are two paths, and the one over the relay comes first, even though its score is higher. -/
theorem buildPaths_keeps_best_pair :
    (demoPair.buildPaths .plain 0).paths =
        [⟨[⟨"r", "r:1"⟩], "c:443", 100, none⟩, ⟨[], "c:443", 50, none⟩] ∧
      demoPair.WellChosen .plain 0 (demoPair.buildPaths .plain 0).paths := by
  refine ⟨by decide +kernel, (buildPaths_keeps_best .plain demoPair 0).resolve_left ?_⟩
  exact fun h ↦ absurd h.2 (by decide +kernel)

end TunnelCat.Router
