import TunnelCat.Assoc.Steps

/-!
# Giving up on sending directly

A datagram to a destination that the bypass manager lets through is written to the socket directly.
`forwardOutbound` counts the datagrams of a destination, and when it has written the third one, it
starts a `checkFallback`, which waits for three seconds and switches the destination to the tunnel
if nothing has come back.

The count is taken before the bypass manager is asked, so datagrams that go through the tunnel are
counted too.  If the answer of the bypass manager changes, the third datagram may be one of these.
Then the count has passed three when the next datagram is written directly, nobody ever checks, and
the destination stays without an answer (`never_switched`).  `usesTunnel_iff` says that this is the
only way: if nothing was received, then after the three seconds a destination has been switched
exactly if the third datagram that was counted for it was written directly.

What happens to one destination is followed by `sight`, which says what a step shows of it, and
`Effect`, which says what the step does to its counters and to the checks that are due later.
-/

set_option autoImplicit false

open Function Trace

namespace TunnelCat.Assoc

/-- What a step shows of a destination. -/
inductive Sight where
  /-- A datagram is written to it directly.  It was counted as the `cnt`-th. -/
  | direct (cnt : ℕ) (time : ℤ)
  /-- A datagram is received from it. -/
  | received
  deriving DecidableEq

namespace Session

variable {s t : Session} {k : Key} {e : Event}

/-- Whether `forwardOutbound` writes a datagram directly. -/
def direct (s : Session) (dst : Addr) (useTunnel shouldBypass : Bool) : Bool :=
  !(useTunnel || s.tunnelOnly ||
    !(isLANAddress ((to4 dst.ip).getD []) || (!s.tunnelOnly && shouldBypass)))

/-- What a step shows of a destination. -/
def sight (k : Key) (s : Session) : Event → Option Sight
  | .relay (.route shouldBypass) =>
    match s.loop with
    | .routing dst _ useTunnel cnt =>
      if dst.key = k ∧ s.direct dst useTunnel shouldBypass = true then some (.direct cnt s.now)
      else none
    | _ => none
  | .relay (.datagram src data lookup) =>
    if src.key = k ∧ (outbound lookup (data.take bufferSize)).isNone = true then some .received
    else none
  | _ => none

/-- What a run shows of a destination. -/
def sights (s : Session) (es : List Event) (k : Key) : List Sight :=
  observed step (sight k) s es

/-- The destination has counters. -/
def known (s : Session) (k : Key) : Bool := (s.stats k).isSome

/-- The destination has been switched to the tunnel. -/
def usesTunnel (s : Session) (k : Key) : Bool := (s.stats k).any DstStats.useTunnel

/-- How many datagrams were counted that came from the destination. -/
def recvs (s : Session) (k : Key) : ℕ := ((s.stats k).map DstStats.recvCount).getD 0

theorem route_eq (s : Session) (dst : Addr) (payload : Bytes) (useTunnel : Bool) (cnt : ℕ)
    (shouldBypass : Bool) :
    s.route dst payload useTunnel cnt shouldBypass =
      if s.direct dst useTunnel shouldBypass = true then
        { s.writeTo payload dst with
          fallbacks :=
            if cnt = socks5UDPFallbackSent then
              s.fallbacks ++ [(dst.key, s.now + socks5UDPFallbackTimeout)]
            else s.fallbacks
          loop := .top }
      else { s with loop := .goSending dst payload } := by
  rw [route, direct]
  dsimp only
  cases useTunnel || s.tunnelOnly ||
    !(isLANAddress ((to4 dst.ip).getD []) || (!s.tunnelOnly && shouldBypass)) <;> rfl

/-! ## What a step does to one destination -/

/-- The counters of a destination stay as they are, as far as the check is concerned. -/
structure KeepsCounters (k : Key) (s t : Session) : Prop where
  known : s.known k = true → t.known k = true
  usesTunnel : t.usesTunnel k = s.usesTunnel k
  recvs : t.recvs k = s.recvs k

theorem keepsCounters_of_eq (h : t.stats k = s.stats k) : KeepsCounters k s t := by
  refine ⟨?_, ?_, ?_⟩
  · rw [known, known, h]
    exact id
  · rw [usesTunnel, h, usesTunnel]
  · rw [recvs, h, recvs]

theorem keepsCounters_modifyStats {j : Key} {f : DstStats → DstStats}
    (hf : j = k → ∀ st, (f st).useTunnel = st.useTunnel ∧ (f st).recvCount = st.recvCount) :
    KeepsCounters k s (s.modifyStats j f) := by
  by_cases hk : k = j
  · subst hk
    have hstats : (s.modifyStats k f).stats k = (s.stats k).map f := update_self ..
    refine ⟨?_, ?_, ?_⟩
    · rw [known, known, hstats, Option.isSome_map]
      exact id
    · rw [usesTunnel, usesTunnel, hstats]
      cases s.stats k with
      | none => rfl
      | some st => exact (hf rfl st).1
    · rw [recvs, recvs, hstats]
      cases s.stats k with
      | none => rfl
      | some st => exact (hf rfl st).2
  · exact keepsCounters_of_eq (update_of_ne hk ..)

theorem keepsCounters_recordSend (now : ℤ) (ok : Bool) (st : DstStats) :
    (st.recordSend now ok).useTunnel = st.useTunnel ∧
      (st.recordSend now ok).recvCount = st.recvCount := by
  rw [DstStats.recordSend]
  split
  · exact ⟨rfl, rfl⟩
  split <;> exact ⟨rfl, rfl⟩

/-- The key of the destination of which `forwardOutbound` is about to find out how it is
reached. -/
def routingFor (s : Session) : Option Key :=
  match s.loop with
  | .routing dst _ _ _ => some dst.key
  | _ => none

/-- It has counters. -/
def Routed (s : Session) : Prop := ∀ k, s.routingFor = some k → s.known k = true

/-- `forwardOutbound` counts a datagram, or it does not need the counters. -/
theorem forward_cases (s : Session) (dst : Addr) (payload : Bytes) :
    (s.forward dst payload).stats = s.stats ∧ (s.forward dst payload).routingFor = none ∨
      ∃ st, (s.forward dst payload).stats = update s.stats dst.key (some st) ∧
        (s.forward dst payload).routingFor = some dst.key ∧
        st.useTunnel = s.usesTunnel dst.key ∧ st.recvCount = s.recvs dst.key := by
  rw [forward]
  split
  · exact .inl ⟨rfl, rfl⟩
  split
  · split <;> exact .inl ⟨rfl, rfl⟩
  · refine .inr ⟨_, rfl, rfl, ?_⟩
    rw [usesTunnel, recvs]
    cases s.stats dst.key with
    | none => exact ⟨rfl, rfl⟩
    | some st => cases hst : st.useTunnel <;> simp [hst]

theorem keepsCounters_forward (s : Session) (dst : Addr) (payload : Bytes) :
    KeepsCounters k s (s.forward dst payload) := by
  rcases forward_cases s dst payload with ⟨hstats, -⟩ | ⟨st, hstats, -, huse, hrecv⟩
  · exact keepsCounters_of_eq (congrFun hstats k)
  by_cases hk : k = dst.key
  · subst hk
    have hst : (s.forward dst payload).stats dst.key = some st := by
      rw [hstats, update_self]
    refine ⟨fun _ ↦ ?_, ?_, ?_⟩
    · rw [known, hst, Option.isSome_some]
    · rw [usesTunnel, hst, Option.any_some, huse]
    · rw [recvs, hst, Option.map_some, Option.getD_some, hrecv]
  · refine keepsCounters_of_eq ?_
    rw [hstats, update_of_ne hk]

/-- A datagram is received, which does not switch anything. -/
theorem counters_recordRecv (s : Session) (src : Addr) :
    (s.known k = true → (s.recordRecv src).known k = true) ∧
      (s.recordRecv src).usesTunnel k = s.usesTunnel k ∧
      (src.key ≠ k → (s.recordRecv src).recvs k = s.recvs k) := by
  by_cases hk : src.key = k
  · subst hk
    have hstats : (s.recordRecv src).stats src.key =
        (s.stats src.key).map fun st ↦ { st with recvCount := st.recvCount + 1 } :=
      update_self ..
    refine ⟨?_, ?_, fun hne ↦ absurd rfl hne⟩
    · rw [known, known, hstats, Option.isSome_map]
      exact id
    · rw [usesTunnel, usesTunnel, hstats]
      cases s.stats src.key <;> rfl
  · obtain ⟨hknown, huses, hrecvs⟩ := keepsCounters_modifyStats (s := s) (j := src.key)
      (f := fun st ↦ { st with recvCount := st.recvCount + 1 }) fun hj ↦ absurd hj hk
    exact ⟨hknown, huses, fun _ ↦ hrecvs⟩

/-- **What a step does to a destination.** -/
inductive Effect (k : Key) (s : Session) (e : Event) (t : Session) : Prop where
  /-- Nothing. -/
  | quiet (sight : s.sight k e = none) (keeps : KeepsCounters k s t)
    (checks : ∀ due, (k, due) ∈ t.fallbacks ↔ (k, due) ∈ s.fallbacks)
  /-- A datagram is received from it. -/
  | received (sight : s.sight k e = some .received) (known : s.known k = true → t.known k = true)
    (usesTunnel : t.usesTunnel k = s.usesTunnel k) (checks : t.fallbacks = s.fallbacks)
  /-- A datagram is written to it directly, and if it is the third, a check is started. -/
  | direct (cnt : ℕ) (sight : s.sight k e = some (.direct cnt s.now)) (keeps : KeepsCounters k s t)
    (known : t.known k = true)
    (checks : t.fallbacks =
      if cnt = socks5UDPFallbackSent then s.fallbacks ++ [(k, s.now + socks5UDPFallbackTimeout)]
      else s.fallbacks)
  /-- A check is made. -/
  | checked (sight : s.sight k e = none) (known : s.known k = true → t.known k = true)
    (recvs : t.recvs k = s.recvs k)
    (switched : s.known k = true → s.recvs k = 0 → t.usesTunnel k = true)
    (stays : s.usesTunnel k = true → t.usesTunnel k = true)
    (due : ∃ due, (k, due) ∈ s.fallbacks)
    (checks : ∀ due, (k, due) ∈ t.fallbacks → (k, due) ∈ s.fallbacks)

theorem effect_of_besides (hsight : s.sight k e = none) (h : s.Besides t) :
    Effect k s e t := by
  refine .quiet hsight (keepsCounters_of_eq (congrFun h.stats k)) fun due ↦ ?_
  rw [h.fallbacks]

theorem fallbacks_forward (s : Session) (dst : Addr) (payload : Bytes) :
    (s.forward dst payload).fallbacks = s.fallbacks := by
  rw [forward]
  split
  · rfl
  split
  · split <;> rfl
  · rfl

theorem effect_receive {src : Addr} {data : Bytes} {lookup : Lookup} :
    Effect k s (.relay (.datagram src data lookup))
      (s.receive src (data.take bufferSize) lookup) := by
  rw [receive]
  split
  · rename_i dst payload hout
    have hsight : s.sight k (.relay (.datagram src data lookup)) = none := by
      rw [sight, if_neg]
      rw [hout]
      exact fun h ↦ Bool.false_ne_true h.2
    split <;> exact .quiet hsight (keepsCounters_of_eq rfl) fun _ ↦ Iff.rfl
  · rename_i hout
    obtain ⟨hknown, huses, hrecvs⟩ := counters_recordRecv (k := k) s src
    by_cases hk : src.key = k
    · have hsight : s.sight k (.relay (.datagram src data lookup)) = some .received := by
        rw [sight, if_pos]
        exact ⟨hk, by rw [hout]; rfl⟩
      rw [inbound]
      split <;> exact .received hsight hknown huses rfl
    · have hsight : s.sight k (.relay (.datagram src data lookup)) = none := by
        rw [sight, if_neg]
        exact fun h ↦ hk h.1
      rw [inbound]
      split <;> exact .quiet hsight ⟨hknown, huses, hrecvs hk⟩ fun _ ↦ Iff.rfl

theorem effect_route {dst : Addr} {payload : Bytes} {useTunnel : Bool} {cnt : ℕ}
    {shouldBypass : Bool} (hrouted : s.Routed) (hs : s.loop = .routing dst payload useTunnel cnt) :
    Effect k s (.relay (.route shouldBypass))
      (s.route dst payload useTunnel cnt shouldBypass) := by
  have hsight : s.sight k (.relay (.route shouldBypass)) =
      if dst.key = k ∧ s.direct dst useTunnel shouldBypass = true then some (.direct cnt s.now)
      else none := by
    rw [sight, hs]
  rw [route_eq]
  cases hdirect : s.direct dst useTunnel shouldBypass with
  | false =>
    rw [hdirect, if_neg fun h ↦ Bool.false_ne_true h.2] at hsight
    exact .quiet hsight (keepsCounters_of_eq rfl) fun _ ↦ Iff.rfl
  | true =>
    rw [if_pos rfl]
    by_cases hk : dst.key = k
    · subst hk
      rw [if_pos ⟨rfl, hdirect⟩] at hsight
      have hknown : s.known dst.key = true := hrouted _ (by rw [routingFor, hs])
      exact .direct cnt hsight (keepsCounters_of_eq rfl) hknown rfl
    · rw [if_neg fun h ↦ hk h.1] at hsight
      refine .quiet hsight (keepsCounters_of_eq rfl) fun due ↦ ?_
      dsimp only
      split
      · rw [List.mem_append, List.mem_singleton, Prod.mk.injEq]
        exact or_iff_left fun h ↦ hk h.1.symm
      · exact Iff.rfl

theorem effect_loopStep {e : LoopEvent} (hrouted : s.Routed) (h : s.loopStep e = some t) :
    Effect k s (.relay e) t := by
  cases relays_of_loopStep h with
  | moves he =>
    rcases he with rfl | rfl | rfl | rfl <;>
      exact .quiet rfl (keepsCounters_of_eq rfl) fun _ ↦ Iff.rfl
  | receives => exact effect_receive
  | forwards dst payload =>
    refine .quiet rfl (keepsCounters_forward s dst payload) fun due ↦ ?_
    rw [fallbacks_forward]
  | routes _ hs => exact effect_route hrouted hs
  | finds =>
    rw [findQueue]
    split
    · exact .quiet rfl (keepsCounters_of_eq rfl) fun _ ↦ Iff.rfl
    split <;> exact .quiet rfl (keepsCounters_of_eq rfl) fun _ ↦ Iff.rfl
  | enqueues => exact .quiet rfl (keepsCounters_of_eq rfl) fun _ ↦ Iff.rfl

theorem effect_checkFallback {i : ℕ} {f : Key × ℤ} (hf : s.fallbacks[i]? = some f) :
    Effect k s (.fallback i) { s.checkFallback f.1 with fallbacks := s.fallbacks.eraseIdx i } := by
  by_cases hk : f.1 = k
  · subst hk
    have hstats : (s.checkFallback f.1).stats f.1 = (s.stats f.1).map fun st ↦
        if st.useTunnel ∨ 0 < st.recvCount then st else { st with useTunnel := true } :=
      update_self ..
    refine .checked rfl ?_ ?_ ?_ ?_ ⟨f.2, List.mem_of_getElem? hf⟩
      fun due hdue ↦ List.mem_of_mem_eraseIdx hdue
    · rw [known, known, hstats, Option.isSome_map]
      exact id
    · rw [recvs, recvs, hstats]
      cases s.stats f.1 with
      | none => rfl
      | some st =>
        dsimp only [Option.map_some, Option.getD_some]
        split <;> rfl
    · rw [known, recvs, usesTunnel, hstats]
      cases s.stats f.1 with
      | none => nofun
      | some st =>
        intro _ hrecv
        rw [Option.map_some, Option.any_some]
        split
        · rename_i huse
          exact huse.resolve_right (by rw [show st.recvCount = 0 from hrecv]; exact lt_irrefl 0)
        · rfl
    · rw [usesTunnel, usesTunnel, hstats]
      cases s.stats f.1 with
      | none => exact id
      | some st =>
        intro huse
        rw [Option.map_some, Option.any_some, if_pos (.inl huse)]
        exact huse
  · refine .quiet rfl ?_ fun due ↦ ?_
    · obtain ⟨hknown, huses, hrecvs⟩ := keepsCounters_modifyStats (s := s) (k := k) (j := f.1)
        (f := fun st ↦
          if st.useTunnel ∨ 0 < st.recvCount then st else { st with useTunnel := true })
        fun hj ↦ absurd hj hk
      exact ⟨hknown, huses, hrecvs⟩
    · dsimp only
      rw [List.mem_eraseIdx_iff_getElem?, List.mem_iff_getElem?]
      refine exists_congr fun j ↦ and_iff_right_of_imp fun hj hji ↦ ?_
      rw [hji, hf, Option.some_inj] at hj
      exact hk (congrArg Prod.fst hj)

/-- **Every step has one of these effects.** -/
theorem effect_step (hrouted : s.Routed) (h : s.step e = some t) : Effect k s e t := by
  cases e with
  | relay e => exact effect_loopStep hrouted h
  | worker j e =>
    obtain ⟨w, -, h⟩ := Option.bind_eq_some_iff.mp h
    cases works_of_workerStep h with
    | takes => exact .quiet rfl (keepsCounters_of_eq rfl) fun _ ↦ Iff.rfl
    | records ok =>
      obtain ⟨hknown, huses, hrecvs⟩ := keepsCounters_modifyStats (s := s) (k := k)
        (j := w.dst.key) fun _ ↦ keepsCounters_recordSend s.now ok
      exact .quiet rfl ⟨hknown, huses, hrecvs⟩ fun _ ↦ Iff.rfl
    | goes _ _ hbesides =>
      refine .quiet rfl (keepsCounters_of_eq (congrFun hbesides.stats k)) fun due ↦ ?_
      exact iff_of_eq (congrArg _ hbesides.fallbacks)
  | drain i e =>
    obtain ⟨d, -, h⟩ := Option.bind_eq_some_iff.mp h
    exact effect_of_besides rfl (drainStep_spec h).1
  | fallback i =>
    obtain ⟨f, hf, h⟩ := Option.bind_eq_some_iff.mp h
    split at h <;> cases h
    exact effect_checkFallback hf
  | tick d | stop =>
    cases h
    exact .quiet rfl (keepsCounters_of_eq rfl) fun _ ↦ Iff.rfl

/-- Counters are not deleted. -/
theorem Effect.known_mono (h : Effect k s e t) (hk : s.known k = true) : t.known k = true := by
  cases h with
  | quiet _ keeps => exact keeps.known hk
  | received _ known => exact known hk
  | direct _ _ keeps => exact keeps.known hk
  | checked _ known => exact known hk

/-- A destination is not switched back. -/
theorem Effect.usesTunnel_mono (h : Effect k s e t) (hk : s.usesTunnel k = true) :
    t.usesTunnel k = true := by
  cases h with
  | quiet _ keeps => exact keeps.usesTunnel.trans hk
  | received _ _ uses => exact uses.trans hk
  | direct _ _ keeps => exact keeps.usesTunnel.trans hk
  | checked _ _ _ _ stays => exact stays hk

/-- Counters are made before the bypass manager is asked. -/
theorem known_of_loopStep {e : LoopEvent} (h : s.loopStep e = some t)
    (ht : t.routingFor = some k) : t.known k = true := by
  have hnone : t.routingFor = none → t.known k = true := fun hno ↦ absurd (ht.symm.trans hno) nofun
  cases relays_of_loopStep h with
  | moves _ hl => rcases hl with rfl | rfl | rfl <;> exact hnone rfl
  | receives =>
    refine hnone ?_
    rw [receive]
    split
    · split <;> rfl
    · rw [inbound]
      split <;> rfl
  | forwards dst payload =>
    rcases forward_cases s dst payload with ⟨-, hno⟩ | ⟨st, hstats, hrouting, -⟩
    · exact hnone hno
    · rw [hrouting, Option.some_inj] at ht
      rw [known, hstats, ← ht, update_self, Option.isSome_some]
  | routes =>
    refine hnone ?_
    rw [route_eq]
    split <;> rfl
  | finds =>
    refine hnone ?_
    rw [findQueue]
    split
    · rfl
    split <;> rfl
  | enqueues => exact hnone rfl

theorem Routed.step (hs : s.Routed) (h : s.step e = some t) : t.Routed := by
  intro k hk
  have hkeep : t.loop = s.loop → t.known k = true := by
    intro hloop
    rw [routingFor, hloop] at hk
    exact (effect_step hs h).known_mono (hs k hk)
  cases e with
  | relay e => exact known_of_loopStep h hk
  | worker j e =>
    obtain ⟨w, -, hstep⟩ := Option.bind_eq_some_iff.mp h
    cases works_of_workerStep hstep with
    | takes | records => exact hkeep rfl
    | goes _ _ hbesides => exact hkeep hbesides.loop
  | drain i e =>
    obtain ⟨d, -, hstep⟩ := Option.bind_eq_some_iff.mp h
    exact hkeep (drainStep_spec hstep).1.loop
  | fallback i =>
    obtain ⟨f, -, hstep⟩ := Option.bind_eq_some_iff.mp h
    split at hstep <;> cases hstep
    exact hkeep rfl
  | tick d | stop =>
    cases h
    exact hkeep rfl

/-! ## What a run does to one destination -/

/-- **What is known of a destination** after a run that has shown this of it. -/
structure Watched (k : Key) (seen : List Sight) (s : Session) : Prop where
  routed : s.Routed
  /-- Counters come before datagrams. -/
  known : ∀ cnt time, .direct cnt time ∈ seen → s.known k = true
  silent : .received ∉ seen → s.recvs k = 0
  /-- A check is due only if the third datagram was written directly. -/
  armed : ∀ due, (k, due) ∈ s.fallbacks → ∃ time, .direct socks5UDPFallbackSent time ∈ seen
  switched : s.usesTunnel k = true → ∃ time, .direct socks5UDPFallbackSent time ∈ seen
  /-- If it was, a check is due, or it has been made. -/
  checked : .received ∉ seen → ∀ time, .direct socks5UDPFallbackSent time ∈ seen →
    s.usesTunnel k = true ∨ (k, time + socks5UDPFallbackTimeout) ∈ s.fallbacks

theorem Watched.step {seen : List Sight} (h : Watched k seen s) (hstep : s.step e = some t) :
    Watched k (seen ++ (s.sight k e).toList) t := by
  have heffect := effect_step (k := k) h.routed hstep
  have hrouted := h.routed.step hstep
  cases heffect with
  | quiet sight keeps checks =>
    rw [sight, Option.toList_none, List.append_nil]
    refine ⟨hrouted, fun cnt time hseen ↦ keeps.known (h.known cnt time hseen),
      fun hnone ↦ keeps.recvs.trans (h.silent hnone),
      fun due hdue ↦ h.armed due ((checks due).mp hdue),
      fun huses ↦ h.switched (keeps.usesTunnel.symm.trans huses), fun hnone time hseen ↦ ?_⟩
    rw [keeps.usesTunnel, checks]
    exact h.checked hnone time hseen
  | received sight known uses checks =>
    rw [sight, Option.toList_some]
    have hseen : Sight.received ∈ seen ++ [.received] := List.mem_append_right _ (by simp)
    have hmono : ∀ cnt time, .direct cnt time ∈ seen ++ [Sight.received] ↔
        .direct cnt time ∈ seen := by simp
    refine ⟨hrouted, fun cnt time hcnt ↦ known (h.known cnt time ((hmono ..).mp hcnt)),
      fun hnone ↦ absurd hseen hnone, ?_, ?_, fun hnone ↦ absurd hseen hnone⟩
    · simp only [checks, hmono]
      exact h.armed
    · simp only [uses, hmono]
      exact h.switched
  | direct cnt sight keeps known checks =>
    rw [sight, Option.toList_some]
    have hold : ∀ {x}, x ∈ seen → x ∈ seen ++ [Sight.direct cnt s.now] :=
      fun hx ↦ List.mem_append_left _ hx
    refine ⟨hrouted, fun _ _ _ ↦ known, fun hnone ↦ ?_, fun due hdue ↦ ?_, fun huses ↦ ?_,
      fun hnone time htime ↦ ?_⟩
    · exact keeps.recvs.trans (h.silent fun hx ↦ hnone (hold hx))
    · by_cases hcnt : cnt = socks5UDPFallbackSent
      · exact ⟨s.now, List.mem_append_right _ (by rw [hcnt]; exact List.mem_singleton_self _)⟩
      · rw [checks, if_neg hcnt] at hdue
        obtain ⟨time, htime⟩ := h.armed due hdue
        exact ⟨time, hold htime⟩
    · obtain ⟨time, htime⟩ := h.switched (keeps.usesTunnel.symm.trans huses)
      exact ⟨time, hold htime⟩
    · have hkept : ∀ {f}, f ∈ s.fallbacks → f ∈ t.fallbacks := by
        intro f hf
        rw [checks]
        split
        · exact List.mem_append_left _ hf
        · exact hf
      rcases List.mem_append.mp htime with htime | htime
      · rw [keeps.usesTunnel]
        exact (h.checked (fun hx ↦ hnone (hold hx)) time htime).imp_right hkept
      · obtain ⟨hcnt, hnow⟩ := Sight.direct.inj (List.mem_singleton.mp htime)
        rw [checks, if_pos hcnt.symm, hnow]
        exact .inr (List.mem_append_right _ (List.mem_singleton_self _))
  | checked sight known recvs switched stays due checks =>
    rw [sight, Option.toList_none, List.append_nil]
    obtain ⟨due, hdue⟩ := due
    have hthird := h.armed due hdue
    refine ⟨hrouted, fun cnt time hseen ↦ known (h.known cnt time hseen),
      fun hnone ↦ recvs.trans (h.silent hnone), fun due hdue ↦ h.armed due (checks due hdue),
      fun _ ↦ hthird, fun hnone time hseen ↦ .inl ?_⟩
    exact switched (h.known _ _ hseen) (h.silent hnone)

theorem watched_new (k : Key) (tunnelOnly altDNSRouting blockQUIC : Bool) (now : ℤ) :
    Watched k [] (new tunnelOnly altDNSRouting blockQUIC now) where
  routed := nofun
  known := nofun
  silent _ := rfl
  armed := nofun
  switched := nofun
  checked _ := nofun

end Session

/-- **When a destination is switched to the tunnel.**  Nothing was received from it, three seconds
have passed since the last datagram was written to it directly, and no check for it is overdue.
Then it has been switched exactly if the third datagram that was counted for it was written
directly; and it is not switched back. -/
theorem usesTunnel_iff {tunnelOnly altDNSRouting blockQUIC : Bool} {now : ℤ}
    {es : List Session.Event} {s : Session} {k : Key}
    (h : exec Session.step (.new tunnelOnly altDNSRouting blockQUIC now) es = some s)
    (hnone : .received ∉ (Session.new tunnelOnly altDNSRouting blockQUIC now).sights es k)
    (hwait : ∀ cnt time,
      .direct cnt time ∈ (Session.new tunnelOnly altDNSRouting blockQUIC now).sights es k →
      time + socks5UDPFallbackTimeout ≤ s.now)
    (hmade : ∀ due, (k, due) ∈ s.fallbacks → s.now < due) :
    (s.usesTunnel k = true ↔ ∃ time, .direct socks5UDPFallbackSent time ∈
      (Session.new tunnelOnly altDNSRouting blockQUIC now).sights es k) ∧
    ∀ fs t, exec Session.step s fs = some t → s.usesTunnel k = true →
      t.usesTunnel k = true := by
  have hs : Session.Watched k
      ((Session.new tunnelOnly altDNSRouting blockQUIC now).sights es k) s :=
    Trace.observed_of_exec Session.Watched.step (Session.watched_new ..) h
  refine ⟨⟨hs.switched, fun ⟨time, htime⟩ ↦ ?_⟩, fun fs t hrun huses ↦ ?_⟩
  · refine (hs.checked hnone time htime).resolve_right fun hdue ↦ ?_
    exact absurd (hwait _ time htime) (not_le.mpr (hmade _ hdue))
  · have hinv : t.Routed ∧ t.usesTunnel k = true := by
      refine Trace.inv_of_exec (P := fun s ↦ s.Routed ∧ s.usesTunnel k = true) ?_
        ⟨hs.routed, huses⟩ hrun
      intro s e t hs hstep
      exact ⟨hs.1.step hstep, (Session.effect_step hs.1 hstep).usesTunnel_mono hs.2⟩
    exact hinv.2

/-- The client sends a datagram to `9.9.9.9:7000`, and the bypass manager gives this answer. -/
def routed (shouldBypass : Bool) : List Session.Event :=
  [.relay .again,
    .relay (.datagram ⟨[127, 0, 0, 1], 5000⟩ [0, 0, 0, 1, 9, 9, 9, 9, 27, 88, 1] fun _ ↦ .ok []),
    .relay .forward, .relay (.route shouldBypass)]

/-- Three datagrams are written directly, and three seconds later the check is made. -/
def threeDirect : List Session.Event :=
  routed true ++ routed true ++ routed true ++ [.tick 3000000000, .fallback 0]

theorem usesTunnel_iff_demo :
    ∃ s, exec Session.step (.new false false false 0) threeDirect = some s ∧
      s.usesTunnel ([9, 9, 9, 9], 7000) = true := by
  have hrun : (exec Session.step (.new false false false 0) threeDirect).any (fun s ↦
      decide (s.now = 3000000000 ∧ s.fallbacks = [])) = true := by
    decide +kernel
  have hsights : (Session.new false false false 0).sights threeDirect ([9, 9, 9, 9], 7000) =
      [.direct 1 0, .direct 2 0, .direct 3 0] := by
    decide +kernel
  obtain ⟨s, hs, hend⟩ := (Option.any_eq_true _ _).mp hrun
  obtain ⟨hnow, hchecks⟩ := of_decide_eq_true hend
  refine ⟨s, hs, (usesTunnel_iff hs ?_ ?_ ?_).1.mpr ⟨0, ?_⟩⟩
  · rw [hsights]
    decide
  · intro cnt time htime
    rw [hsights] at htime
    have htime : time = 0 := by
      simp only [List.mem_cons, Sight.direct.injEq, List.not_mem_nil, or_false] at htime
      omega
    rw [htime, hnow, socks5UDPFallbackTimeout]
    rfl
  · rw [hchecks]
    nofun
  · rw [hsights]
    decide

/-- Three datagrams go through the tunnel, and then three are written directly.  The answer of the
bypass manager has changed, for instance because its list of addresses has been loaded. -/
def threeOfEach : List Session.Event :=
  routed false ++ [.relay .findQueue, .relay .enqueue] ++ routed false ++
    [.relay .findQueue, .relay .enqueue] ++ routed false ++ [.relay .findQueue, .relay .enqueue] ++
    routed true ++ routed true ++ routed true ++ [.tick 3000000000]

/-- **Nobody ever checks**: three datagrams were written directly three seconds ago, nothing was
received, the destination has not been switched, and no check is due. -/
theorem never_switched :
    ∃ s, exec Session.step (.new false false false 0) threeOfEach = some s ∧
      (Session.new false false false 0).sights threeOfEach ([9, 9, 9, 9], 7000) =
        [.direct 4 0, .direct 5 0, .direct 6 0] ∧
      0 + socks5UDPFallbackTimeout ≤ s.now ∧ s.fallbacks = [] ∧
      s.usesTunnel ([9, 9, 9, 9], 7000) = false := by
  have hrun : (exec Session.step (.new false false false 0) threeOfEach).any (fun s ↦
      decide (0 + socks5UDPFallbackTimeout ≤ s.now ∧ s.fallbacks = [] ∧
        s.usesTunnel ([9, 9, 9, 9], 7000) = false)) = true := by
    decide +kernel
  obtain ⟨s, hs, hend⟩ := (Option.any_eq_true _ _).mp hrun
  exact ⟨s, hs, by decide +kernel, of_decide_eq_true hend⟩

end TunnelCat.Assoc
