import TunnelCat.Dht.RelayRuns
import TunnelCat.Mirror.Ledger

/-!
# What the other nodes are told

A node tells others the time stamp of the content manifest it knows and whether it has all of the
content (`gossipContentHave`).  The two are set by the mirror, through `SetContent` and
`SetContentComplete`, but `SetContent` is also called by others, and the mirror, the node and each
goroutine of the mirror have locks of their own: a completion may arrive long after a newer
manifest.

`Process` is a node together with the mirror that has its two functions.  Each call is a step by
itself, so between any two of them anything else may happen.

What carries the proof is that every accepted manifest is newer than the one before it, so that a
time stamp belongs to one goroutine (`Ledger`), and that a node's time stamp only grows, so that
`SetContentComplete` can only mark the version it is about.
-/

set_option autoImplicit false

open Trace

namespace TunnelCat

/-- `Node.gossipContentHave`: where the message is sent and what it says. -/
def Dht.Node.gossipContentHave (N : Dht.Env) (n : Dht.Node) :
    List (String × Dht.ContentHavePayload) :=
  if n.contentTS = 0 then []
  else (n.rt.nearest N.sort n.id Dht.K).filterMap fun c ↦
    (N.resolveUDPAddr c.addr).map (·, ⟨n.contentTS, n.contentComplete⟩)

/-- What a node knows about its content. -/
def Dht.Node.content (n : Dht.Node) : ℤ × Bool := (n.contentTS, n.contentComplete)

namespace Dht.Node

/-- What a node knows of the content manifest. -/
def kept (n : Node) : Bytes × ℤ × Bool := (n.contentRaw, n.contentTS, n.onContent)

theorem kept_dispatch (N : Env) (now : ℤ) (n : Node) (src : String) (raw : Bytes) (ty : MsgType) :
    (n.dispatch N now src raw ty).1.kept = n.kept ∧
      (n.dispatch N now src raw ty).1.content = n.content := by
  constructor <;> cases ty
  all_goals
    simp only [dispatch, handleFindNode, handleAnnounce, handleRelayList, handleManifestHave,
      handleManifestData, handleHolePunch, handleMirrorPunch, handleContentHave, handleContentData]
    repeat' split
    all_goals rfl

theorem kept_clearSuspectByAddr (n : Node) (src : String) :
    (n.clearSuspectByAddr src).kept = n.kept ∧
      (n.clearSuspectByAddr src).content = n.content := by
  obtain ⟨rt, pings, timers, heq⟩ := n.sameButPeers_clearSuspectByAddr src
  rw [heq]
  exact ⟨rfl, rfl⟩

theorem kept_handlePacket (N : Env) (now : ℤ) (n : Node) (pkt : Bytes) (src : String) :
    (n.handlePacket N now pkt src).1.kept = n.kept ∧
      (n.handlePacket N now pkt src).1.content = n.content := by
  have hclear := n.kept_clearSuspectByAddr src
  rw [handlePacket]
  split
  · split
    · exact (kept_dispatch ..).imp (·.trans hclear.1) (·.trans hclear.2)
    · exact hclear
  · exact ⟨rfl, rfl⟩

/-- Packets, pings and files do not change it: a new manifest is handed to the mirror first. -/
theorem kept_input {N : Env} {n n' : Node} {i : Input} (h : n.input N i = some n') :
    n'.kept = n.kept ∧ n'.content = n.content := by
  rcases input_cases h with ⟨now, pkt, src, rfl⟩ | ⟨now, entries, rfl⟩ | ⟨rt, pings, timers, rfl⟩
  · exact kept_handlePacket ..
  · exact ⟨rfl, rfl⟩
  · exact ⟨rfl, rfl⟩

end Dht.Node

namespace Mirror

variable {E : Env} {d : Disk FileName} {s : Sync} {gen : ℕ}

/-! ## A node and its mirror -/

/-- A process. -/
structure Process where
  /-- The node. -/
  node : Dht.Node
  /-- The mirror. -/
  mirror : MirrorManager

/-- The mirror calls the node. -/
def notify (n : Dht.Node) : Call → Dht.Node
  | .setContent raw ts => n.setContent raw ts
  | .setComplete ts complete => n.setContentComplete ts complete
  | .setIndex _ => n

namespace Process

/-- What happens in a process. -/
inductive Event where
  /-- Someone calls `SetContent`. -/
  | content (raw : Bytes) (ts : ℤ)
  /-- Someone calls `OnContentManifest`. -/
  | manifest (raw : Bytes)
  /-- A goroutine of the mirror takes a step. -/
  | sync (i : ℕ) (e : SyncEvent)
  /-- Anything else happens to the node. -/
  | input (i : Dht.Node.Input)

/-- A process that has just started. -/
def start (E : Env) (id : Dht.ID) (localAddr : String) (d : Disk FileName) : Process :=
  ⟨.new id localAddr, .start E d⟩

/-- A step. -/
def step (N : Dht.Env) (E : Env) (p : Process) : Event → Option Process
  | .content raw ts => some { p with node := p.node.setContent raw ts }
  | .manifest raw => some { p with mirror := p.mirror.onContentManifest E raw }
  | .sync i e =>
    p.mirror.syncs[i]?.bind fun s ↦ (s.step E p.mirror.gen p.mirror.disk e).map fun st ↦
      ⟨st.call.elim p.node (notify p.node), p.mirror.perform E i st⟩
  | .input i => (p.node.input N i).map fun n ↦ { p with node := n }

variable {N : Dht.Env} {p p' : Process}

variable {e : Event} {es : List Event} {n : Dht.Node}

/-- What a step does to the mirror, and what it leaves of the node. -/
theorem step_cases (h : p.step N E e = some p') :
    (p'.mirror = p.mirror ∧
      (p'.node.content = p.node.content ∨ ∃ raw ts, p'.node = p.node.setContent raw ts)) ∨
    (∃ raw, e = .manifest raw ∧ p'.mirror = p.mirror.onContentManifest E raw ∧
      p'.node = p.node) ∨
    ∃ i e' s st, e = .sync i e' ∧ p.mirror.syncs[i]? = some s ∧
      s.step E p.mirror.gen p.mirror.disk e' = some st ∧ p'.mirror = p.mirror.perform E i st ∧
      p'.node = st.call.elim p.node (notify p.node) := by
  cases e with
  | content raw ts =>
    rw [← Option.some.inj h]
    exact Or.inl ⟨rfl, Or.inr ⟨raw, ts, rfl⟩⟩
  | manifest raw =>
    rw [← Option.some.inj h]
    exact Or.inr (Or.inl ⟨raw, rfl, rfl, rfl⟩)
  | sync i e' =>
    obtain ⟨s, hi, h⟩ := Option.bind_eq_some_iff.mp h
    obtain ⟨st, hst, rfl⟩ := Option.map_eq_some_iff.mp h
    exact Or.inr (Or.inr ⟨i, e', s, st, rfl, hi, hst, rfl, rfl⟩)
  | input i =>
    obtain ⟨n, hn, rfl⟩ := Option.map_eq_some_iff.mp h
    exact Or.inl ⟨rfl, Or.inl (Dht.Node.kept_input hn).2⟩

/-! ## The time stamp only grows -/

theorem contentTS_le_setContent (n : Dht.Node) (raw : Bytes) (ts : ℤ) :
    n.contentTS ≤ (n.setContent raw ts).contentTS := by
  rw [Dht.Node.setContent]
  split
  · rename_i hts
    exact hts.le
  · exact le_rfl

theorem contentTS_setContentComplete (n : Dht.Node) (ts : ℤ) (complete : Bool) :
    (n.setContentComplete ts complete).contentTS = n.contentTS := by
  rw [Dht.Node.setContentComplete]
  split <;> rfl

theorem contentTS_le_notify (n : Dht.Node) (c : Call) : n.contentTS ≤ (notify n c).contentTS := by
  cases c with
  | setContent raw ts => exact contentTS_le_setContent n raw ts
  | setComplete ts complete => exact (contentTS_setContentComplete n ts complete).ge
  | setIndex files => exact le_rfl

theorem contentTS_le_step (h : p.step N E e = some p') :
    p.node.contentTS ≤ p'.node.contentTS := by
  rcases step_cases h with ⟨-, hc | ⟨raw, ts, hn⟩⟩ | ⟨raw, -, -, hn⟩ |
    ⟨i, e', s, st, -, -, -, -, hn⟩
  · exact (congrArg Prod.fst hc).ge
  · rw [hn]
    exact contentTS_le_setContent ..
  · rw [hn]
  · rw [hn]
    cases st.call with
    | none => exact le_rfl
    | some c => exact contentTS_le_notify p.node c

theorem contentTS_le_exec (h : exec (step N E) p es = some p') :
    p.node.contentTS ≤ p'.node.contentTS :=
  inv_of_exec (P := fun q : Process ↦ p.node.contentTS ≤ q.node.contentTS)
    (fun hq hs ↦ hq.trans (contentTS_le_step hs)) le_rfl h

/-! ## Completeness is earned -/

/-- **The invariant**: a version that is marked complete was announced by the mirror. -/
structure Honest (p : Process) : Prop where
  /-- The books are in order. -/
  ledger : Ledger p.mirror
  /-- The mark was set by an announcement. -/
  earned : p.node.contentComplete = true →
    .setComplete p.node.contentTS true ∈ p.mirror.calls

theorem earned_setContent {calls : List Call}
    (h : n.contentComplete = true → .setComplete n.contentTS true ∈ calls) (raw : Bytes) (ts : ℤ) :
    (n.setContent raw ts).contentComplete = true →
      .setComplete (n.setContent raw ts).contentTS true ∈ calls := by
  rw [Dht.Node.setContent]
  split
  · exact fun hc ↦ absurd hc (by simp)
  · exact h

theorem earned_notify {calls : List Call}
    (h : n.contentComplete = true → .setComplete n.contentTS true ∈ calls) (c : Call) :
    (notify n c).contentComplete = true →
      .setComplete (notify n c).contentTS true ∈ calls ++ [c] := by
  cases c with
  | setContent raw ts => exact fun hc ↦ List.mem_append_left _ (earned_setContent h raw ts hc)
  | setComplete ts complete =>
    rw [notify, Dht.Node.setContentComplete]
    split
    · rename_i hts
      intro hc
      have hc : complete = true := hc
      rw [hc, hts]
      exact List.mem_append_right _ (List.mem_singleton_self _)
    · exact fun hc ↦ List.mem_append_left _ (h hc)
  | setIndex files => exact fun hc ↦ List.mem_append_left _ (h hc)

theorem Honest.step (h : Honest p) (hs : p.step N E e = some p') : Honest p' := by
  rcases step_cases hs with ⟨hm, hc | ⟨raw, ts, hn⟩⟩ | ⟨raw, -, hm, hn⟩ |
    ⟨i, e', s, st, -, hi, hst, hm, hn⟩
  · obtain ⟨hts, hcomp⟩ := Prod.mk.inj hc
    exact ⟨hm ▸ h.ledger, by rw [hts, hcomp, hm]; exact h.earned⟩
  · exact ⟨hm ▸ h.ledger, by rw [hn, hm]; exact earned_setContent h.earned raw ts⟩
  · refine ⟨?_, ?_⟩
    · rw [hm]
      exact h.ledger.step (e := .manifest raw) (by simp) rfl
    · rw [hn, hm]
      rcases p.mirror.onContentManifest_cases E raw with heq | ⟨sm, -, -, heq⟩ <;> rw [heq]
      · exact h.earned
      · exact h.earned
  · refine ⟨hm ▸ h.ledger.perform hi hst, ?_⟩
    rw [hn, hm]
    show _ → _ ∈ p.mirror.calls ++ st.call.toList
    cases st.call with
    | none => exact fun hc ↦ List.mem_append_left _ (h.earned hc)
    | some c => exact earned_notify h.earned c

theorem honest_start (E : Env) (id : Dht.ID) (localAddr : String) (d : Disk FileName) :
    Honest (start E id localAddr d) :=
  ⟨ledger_start E d, fun hc ↦ absurd hc (by simp [start, Dht.Node.new])⟩

/-- A goroutine at the end of its loop that will pass the last check of the generation, with every
listed file synced or unchanged. -/
structure Passes (gen : ℕ) (s : Sync) : Prop where
  /-- It is before the check. -/
  pc : s.pc = .loop
  /-- No file is to come. -/
  rest : s.rest = []
  /-- It is not superseded. -/
  gen_eq : s.gen = gen
  /-- No file has failed. -/
  ok : s.ok = true
  /-- Every listed file is settled. -/
  settled : s.settled = s.sm.files

/-- The goroutine for a time stamp has passed the last check without a failure. -/
def Passed (ts : ℤ) (p : Process) : Prop :=
  .setComplete ts true ∈ p.mirror.calls ∨
    ∃ s ∈ p.mirror.syncs, s.sm.ts = ts ∧ s.ok = true ∧ s.pc.committed = true

/-- The step in which the check is passed. -/
theorem passes_of_step {ts : ℤ} (h : Honest p) (hs : p.step N E e = some p')
    (hbefore : ¬Passed ts p) (hafter : Passed ts p') :
    ∃ i s, e = .sync i .next ∧ p.mirror.syncs[i]? = some s ∧ s.sm.ts = ts ∧
      Passes p.mirror.gen s := by
  rcases step_cases hs with ⟨hm, -⟩ | ⟨raw, -, hm, -⟩ | ⟨i, e', s, st, rfl, hi, hst, hm, -⟩
  · exact absurd (by rwa [Passed, hm] at hafter) hbefore
  · rw [Passed, hm] at hafter
    rcases p.mirror.onContentManifest_cases E raw with heq | ⟨sm, -, -, heq⟩ <;> rw [heq] at hafter
    · exact absurd hafter hbefore
    · refine absurd (hafter.imp_right fun ⟨s, hmem, hts⟩ ↦ ⟨s, ?_, hts⟩) hbefore
      refine (List.mem_append.mp hmem).resolve_right fun hnew ↦ ?_
      rw [List.mem_singleton.mp hnew] at hts
      exact absurd hts.2.2 (by simp [Pc.committed])
  · have hmem := List.mem_of_getElem? hi
    rw [Passed, hm] at hafter
    rcases hafter with hcall | ⟨t, ht, hts, hok, hc⟩
    · rcases List.mem_append.mp hcall with hcall | hcall
      · exact absurd (Or.inl hcall) hbefore
      · obtain ⟨hpc, hts⟩ := pc_of_setComplete hst (Option.mem_toList.mp hcall)
        have hok := h.ledger.ok s hmem (by rw [hpc]; rfl)
        exact absurd (Or.inr ⟨s, hmem, hts, hok, by rw [hpc]; rfl⟩) hbefore
    · rcases List.mem_or_eq_of_mem_set ht with ht | rfl
      · exact absurd (Or.inr ⟨t, ht, hts, hok, hc⟩) hbefore
      · obtain ⟨hok', hc | ⟨hpc, rfl, hrest, hgen⟩⟩ := committed_step hst hc
        · exact absurd (Or.inr ⟨s, hmem, sm_step hst ▸ hts, hok' ▸ hok, hc⟩) hbefore
        · have hfiles := h.ledger.tidy s hmem (hok' ▸ hok)
          rw [hpc, hrest] at hfiles
          exact ⟨i, s, rfl, hi, sm_step hst ▸ hts, hpc, hrest, hgen, hok' ▸ hok,
            by simpa [Pc.current] using hfiles⟩

/-- The manifest of a goroutine does not change. -/
theorem sm_of_exec {i : ℕ} (hi : p.mirror.syncs[i]? = some s) (h : exec (step N E) p es = some p') :
    ∃ s', p'.mirror.syncs[i]? = some s' ∧ s'.sm = s.sm := by
  refine inv_of_exec (P := fun q : Process ↦ ∃ s', q.mirror.syncs[i]? = some s' ∧ s'.sm = s.sm)
    (fun {q e q'} hq hs ↦ ?_) ⟨s, hi, rfl⟩ h
  obtain ⟨s', hi', hsm⟩ := hq
  rcases step_cases hs with ⟨hm, -⟩ | ⟨raw, -, hm, -⟩ | ⟨j, e', t, st, rfl, hj, hst, hm, -⟩
  · exact ⟨s', hm ▸ hi', hsm⟩
  · rcases q.mirror.onContentManifest_cases E raw with heq | ⟨sm, -, -, heq⟩ <;>
      rw [heq] at hm <;> rw [hm]
    · exact ⟨s', hi', hsm⟩
    · exact ⟨s', (List.getElem?_append_left (List.getElem?_eq_some_iff.mp hi').1).trans hi', hsm⟩
  · rw [hm]
    rcases eq_or_ne j i with rfl | hne
    · rw [hj, Option.some_inj] at hi'
      refine ⟨st.sync, List.getElem?_set_self (List.getElem?_eq_some_iff.mp hj).1, ?_⟩
      rw [sm_step hst, hi', hsm]
    · exact ⟨s', (List.getElem?_set_ne hne).trans hi', hsm⟩

/-- A goroutine for an older version does not reach the node. -/
theorem notify_of_lt {e : SyncEvent} {st : Step} (hst : s.step E gen d e = some st)
    (hlt : s.sm.ts < n.contentTS) : st.call.elim n (notify n) = n := by
  have hset : ∀ raw, n.setContent raw s.sm.ts = n := fun raw ↦ if_neg (by omega)
  have hcomp : ∀ b, n.setContentComplete s.sm.ts b = n := fun b ↦ if_neg (by omega)
  cases Sync.moves_of_step hst with
  | accepted => exact hset s.raw
  | gossiped => exact hcomp false
  | announce => exact hcomp true
  | _ => rfl

/-- In this run, the only goroutine for a time stamp passed its last check with every listed file
synced or unchanged, and it is over. -/
def EarnedIn (N : Dht.Env) (E : Env) (p₀ : Process) (es : List Event) (p : Process) (ts : ℤ) :
    Prop :=
  ∃ pre i post q s s', es = pre ++ .sync i .next :: post ∧
    exec (step N E) p₀ pre = some q ∧ q.mirror.syncs[i]? = some s ∧ s.sm.ts = ts ∧
    Passes q.mirror.gen s ∧ p.mirror.syncs[i]? = some s' ∧ s'.sm = s.sm ∧ s'.pc = .done ∧
    ∀ t ∈ p.mirror.syncs, t.sm.ts = ts → t = s'

theorem earnedIn_of_announced {id : Dht.ID} {localAddr : String} {ts : ℤ}
    (h : exec (step N E) (start E id localAddr d) es = some p)
    (hcall : .setComplete ts true ∈ p.mirror.calls) :
    EarnedIn N E (start E id localAddr d) es p ts := by
  have hfresh : ¬Passed ts (start E id localAddr d) := by
    simp [Passed, start, MirrorManager.start]
  have hhonest : ∀ {fs q}, exec (step N E) (start E id localAddr d) fs = some q → Honest q :=
    fun hq ↦ inv_of_exec (fun hp hs ↦ Honest.step hp hs) (honest_start E id localAddr d) hq
  obtain ⟨pre, e, post, q, q', rfl, hpre, hstep, hpost, hbefore, hafter⟩ :=
    exists_step_of_exec (P := Passed ts) hfresh (Or.inl hcall) h
  obtain ⟨i, s, rfl, hi, hts, hpass⟩ := passes_of_step (hhonest hpre) hstep hbefore hafter
  -- The goroutine that is over at the end has the same time stamp, so it is the same one.
  obtain ⟨s', hi', hsm⟩ := sm_of_exec hi (exec_cons_eq_some.mpr ⟨q', hstep, hpost⟩)
  obtain ⟨t, ht, htts, hdone⟩ := (hhonest h).ledger.announced ts hcall
  have huniq : ∀ t ∈ p.mirror.syncs, t.sm.ts = ts → t = s' := fun t ht htts ↦
    (hhonest h).ledger.eq_of_ts ht (List.mem_of_getElem? hi') (htts.trans (hsm ▸ hts.symm))
  exact ⟨pre, i, post, q, s, s', rfl, hpre, hi, hts, hpass, hi', hsm, huniq t ht htts ▸ hdone,
    huniq⟩

/-- **Advertised completeness is earned**, in every interleaving of a node, its mirror and anyone
who calls them. -/
theorem earned_of_exec {N : Dht.Env} {E : Env} {id : Dht.ID} {localAddr : String}
    {d : Disk FileName} {es : List Event} {p : Process}
    (h : exec (step N E) (start E id localAddr d) es = some p) :
    (∀ pre post q, es = pre ++ post → exec (step N E) (start E id localAddr d) pre = some q →
      q.node.contentTS ≤ p.node.contentTS) ∧
    (∀ addr ts, (addr, ⟨ts, true⟩) ∈ p.node.gossipContentHave N →
      EarnedIn N E (start E id localAddr d) es p ts) ∧
    ∀ i e s p', p.mirror.syncs[i]? = some s → s.sm.ts < p.node.contentTS →
      p.step N E (.sync i e) = some p' → p'.node = p.node := by
  refine ⟨fun pre post q hes hq ↦ ?_, fun addr ts hsent ↦ ?_, fun i e s p' hi hlt hs ↦ ?_⟩
  · rw [hes] at h
    obtain ⟨q', hq', hpost⟩ := exec_append.mp h
    rw [hq, Option.some_inj] at hq'
    subst hq'
    exact contentTS_le_exec hpost
  · rw [Dht.Node.gossipContentHave] at hsent
    split at hsent
    · exact absurd hsent List.not_mem_nil
    · obtain ⟨c, -, hc⟩ := List.mem_filterMap.mp hsent
      obtain ⟨a, -, heq⟩ := Option.map_eq_some_iff.mp hc
      obtain ⟨-, hpay⟩ := Prod.mk.inj heq
      obtain ⟨hts, hcomp⟩ := Dht.ContentHavePayload.mk.inj hpay
      refine earnedIn_of_announced h (hts ▸ ?_)
      exact (inv_of_exec (fun hp hs ↦ Honest.step hp hs) (honest_start E id localAddr d) h).earned
        hcomp
  · obtain ⟨t, hi', hs⟩ := Option.bind_eq_some_iff.mp hs
    obtain ⟨st, hst, rfl⟩ := Option.map_eq_some_iff.mp hs
    rw [hi, Option.some_inj] at hi'
    subst hi'
    exact notify_of_lt hst hlt

/-- All that a goroutine does for a manifest with one chunk. -/
def demoSteps : List SyncEvent :=
  [.next, .next, .next, .next, .next, .sys true, .sys true, .next, .fetched [none] (some [7]),
    .wrote 1, .next, .sys true, .sys true, .sys true, .next, .sys true, .wrote 1, .next, .next]

/-- A peer makes itself known, and a manifest is mirrored up to the announcement. -/
def demoRun : List Event :=
  .input (.arrival (.event (.packet 0 Dht.Node.nodesPacket "198.51.100.7:4000"))) ::
    .manifest [1] :: demoSteps.map (.sync 0)

/-- A process that has just started, with nothing on its disk. -/
def demoStart : Process :=
  start demoEnv Dht.RoutingTable.zeroID "198.51.100.1:4000" .empty

theorem earned_of_exec_demo :
    ∃ p addr, exec (step Dht.Node.demoEnv demoEnv) demoStart demoRun = some p ∧
      (addr, ⟨1, true⟩) ∈ p.node.gossipContentHave Dht.Node.demoEnv ∧
      EarnedIn Dht.Node.demoEnv demoEnv demoStart demoRun p 1 := by
  have hrun : (exec (step Dht.Node.demoEnv demoEnv) demoStart demoRun).map
      (fun p ↦ p.node.gossipContentHave Dht.Node.demoEnv) =
        some [(Dht.Node.peer.addr, ⟨1, true⟩)] := by decide +kernel
  obtain ⟨p, hp, hsent⟩ := Option.map_eq_some_iff.mp hrun
  have hsent : (Dht.Node.peer.addr, ⟨1, true⟩) ∈ p.node.gossipContentHave Dht.Node.demoEnv := by
    rw [hsent]
    exact List.mem_singleton_self _
  exact ⟨p, _, hp, hsent, (earned_of_exec hp).2.1 _ 1 hsent⟩

end Process

end Mirror

end TunnelCat
