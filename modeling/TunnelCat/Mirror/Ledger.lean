import Mathlib.Data.List.Nodup
import TunnelCat.Mirror.Completeness

/-!
# Manifests that were accepted

`OnContentManifest` accepts a manifest if it is newer than the newest one it knows, and starts a
goroutine for it.  This file keeps the books: which manifests a process knows, and what has become
of their goroutines.

A manifest that is known is never accepted again, whatever became of it.  A process knows the
manifests it has accepted, and before any the one that its state file had when it started — and the
state file is written after failures, too.  So a delivery starts a goroutine exactly if it brings a
newer manifest (`newestKnown`), and a version that could not be fetched stays incomplete until there
is another one.

Within one process every accepted manifest is newer than the one before it, so that a time stamp
belongs to one goroutine (`Ledger`).
-/

set_option autoImplicit false

open Trace

namespace TunnelCat.Mirror

variable {E : Env} {d : Disk FileName} {m m' : MirrorManager} {s : Sync} {gen : ℕ}

/-! ## What the steps of a mirror can do -/

variable {st : Step} {e : SyncEvent}

theorem sm_step (hst : s.step E gen d e = some st) :
    st.sync.sm = s.sm := by
  cases Sync.moves_of_step hst with
  | @cleanup f synced => cases synced <;> rfl
  | _ => rfl

/-- As long as no file has failed, each one has been settled, is being fetched or is still to
come. -/
def Tidy (s : Sync) : Prop := s.ok = true → s.settled ++ (s.pc.current ++ s.rest) = s.sm.files

theorem Tidy.step (h : Tidy s) (hst : s.step E gen d e = some st) :
    Tidy st.sync := by
  cases Sync.moves_of_step hst with
  | @cleanup f synced => cases synced <;> simp_all [Tidy, Sync.failed, Pc.current]
  | notPersisted hpc | persistWrite hpc =>
    intro hok
    have hafter : s.afterPersist = .index := if_pos hok
    simpa [Sync.goto, hafter, hpc, Pc.current] using h hok
  | _ => simp_all [Tidy, Sync.goto, Sync.failed, Pc.current]

/-- The last check of the generation passes at the end of the loop, and nowhere else. -/
theorem committed_step (hst : s.step E gen d e = some st) (hc : st.sync.pc.committed = true) :
    st.sync.ok = s.ok ∧
      (s.pc.committed = true ∨ s.pc = .loop ∧ e = .next ∧ s.rest = [] ∧ s.gen = gen) := by
  cases Sync.moves_of_step hst with
  | @cleanup f synced => cases synced <;> cases hc
  | _ => simp_all [Sync.goto, Sync.failed, Pc.committed]

/-- A goroutine that is over takes no step. -/
theorem ne_done_of_step (hst : s.step E gen d e = some st) :
    s.pc ≠ .done := by
  intro hpc
  simp [Sync.step, hpc] at hst

theorem done_of_setComplete {ts : ℤ} (hst : s.step E gen d e = some st)
    (hcall : st.call = some (.setComplete ts true)) :
    st.sync.pc = .done := by
  cases Sync.moves_of_step hst with
  | announce => rfl
  | _ => exact absurd hcall (by simp [Sync.goto])

/-! ## The books of a process -/

/-- **The invariant** of a mirror since its process started. -/
structure Ledger (m : MirrorManager) : Prop where
  /-- Each accepted manifest was newer than the one before it. -/
  order : (m.syncs.map (·.sm.ts)).Pairwise (· < ·)
  /-- The newest one has the time stamp that is remembered. -/
  newest : ∀ s ∈ m.syncs, s.sm.ts ≤ m.ts
  /-- A goroutine that has decided to announce has not failed. -/
  ok : ∀ s ∈ m.syncs, s.pc.final = true → s.ok = true
  /-- No goroutine has lost a file. -/
  tidy : ∀ s ∈ m.syncs, Tidy s
  /-- Whatever was announced, its goroutine is over. -/
  announced : ∀ ts, .setComplete ts true ∈ m.calls → ∃ s ∈ m.syncs, s.sm.ts = ts ∧ s.pc = .done

theorem ledger_start (E : Env) (d : Disk FileName) : Ledger (.start E d) :=
  ⟨List.Pairwise.nil, by simp [MirrorManager.start], by simp [MirrorManager.start],
    by simp [MirrorManager.start], by simp [MirrorManager.start]⟩

theorem Ledger.accept (h : Ledger m) {raw : Bytes} {sm : SignedContentManifest}
    (hts : m.ts < sm.ts) : Ledger (m.accept raw sm) := by
  have hmem : ∀ {s}, s ∈ (m.accept raw sm).syncs → s ∈ m.syncs ∨
      s = ⟨raw, sm, m.gen + 1, [], sm.files, [], true, .accepted⟩ :=
    fun hs ↦ (List.mem_append.mp hs).imp_right List.mem_singleton.mp
  refine ⟨?_, fun s hs ↦ ?_, fun s hs hf ↦ ?_, fun s hs ↦ ?_, fun ts hts ↦ ?_⟩
  · rw [MirrorManager.accept, List.map_append]
    refine List.pairwise_append.mpr ⟨h.order, List.pairwise_singleton .., fun ts hold ts' hnew ↦ ?_⟩
    obtain ⟨s, hs, rfl⟩ := List.mem_map.mp hold
    rw [List.mem_singleton.mp hnew]
    exact (h.newest s hs).trans_lt hts
  · rcases hmem hs with hs | rfl
    · exact (h.newest s hs).trans hts.le
    · exact le_rfl
  · rcases hmem hs with hs | rfl
    · exact h.ok s hs hf
    · rfl
  · rcases hmem hs with hs | rfl
    · exact h.tidy s hs
    · exact fun _ ↦ rfl
  · obtain ⟨s, hs, hdone⟩ := h.announced ts hts
    exact ⟨s, List.mem_append_left _ hs, hdone⟩

/-- A step of one goroutine leaves alone what it does not change about it. -/
theorem map_perform {α : Type*} (g : Sync → α) {i : ℕ} (hi : m.syncs[i]? = some s)
    (hg : g st.sync = g s) : (m.perform E i st).syncs.map g = m.syncs.map g := by
  obtain ⟨hlt, rfl⟩ := List.getElem?_eq_some_iff.mp hi
  show (m.syncs.set i st.sync).map g = _
  rw [List.map_set, hg, ← List.map_set, List.set_getElem_self]

theorem map_ts_perform {i : ℕ} (hi : m.syncs[i]? = some s)
    (hst : s.step E m.gen m.disk e = some st) :
    (m.perform E i st).syncs.map (·.sm.ts) = m.syncs.map (·.sm.ts) :=
  map_perform _ hi (congrArg _ (sm_step hst))

theorem Ledger.perform (h : Ledger m) {i : ℕ} (hi : m.syncs[i]? = some s)
    (hst : s.step E m.gen m.disk e = some st) :
    Ledger (m.perform E i st) := by
  have hs := List.mem_of_getElem? hi
  refine ⟨map_ts_perform hi hst ▸ h.order, fun t ht ↦ ?_, fun t ht hf ↦ ?_, fun t ht ↦ ?_,
    fun ts hcall ↦ ?_⟩
  · rcases List.mem_or_eq_of_mem_set ht with ht | rfl
    · exact h.newest t ht
    · rw [sm_step hst]
      exact h.newest s hs
  · rcases List.mem_or_eq_of_mem_set ht with ht | rfl
    · exact h.ok t ht hf
    · exact ok_step hst (h.ok s hs) hf
  · rcases List.mem_or_eq_of_mem_set ht with ht | rfl
    · exact h.tidy t ht
    · exact (h.tidy s hs).step hst
  · rcases List.mem_append.mp hcall with hcall | hcall
    · -- A goroutine that is over is not the one that takes the step.
      obtain ⟨r, hr, hts, hdone⟩ := h.announced ts hcall
      obtain ⟨j, hj⟩ := List.mem_iff_getElem?.mp hr
      have hne : i ≠ j := by
        rintro rfl
        rw [hi, Option.some_inj] at hj
        exact ne_done_of_step hst (hj ▸ hdone)
      refine ⟨r, List.mem_iff_getElem?.mpr ⟨j, ?_⟩, hts, hdone⟩
      exact (List.getElem?_set_ne hne).trans hj
    · have hcall := Option.mem_toList.mp hcall
      refine ⟨st.sync, List.mem_set (List.getElem?_eq_some_iff.mp hi).1 _, ?_, ?_⟩
      · rw [sm_step hst]
        exact (pc_of_setComplete hst hcall).2
      · exact done_of_setComplete hst hcall

/-- Every step within one process keeps the books. -/
theorem Ledger.step (h : Ledger m) {e : Event} (he : e ≠ .restart) (hs : m.step E e = some m') :
    Ledger m' := by
  cases e with
  | manifest raw =>
    rcases MirrorManager.step_manifest hs with rfl | ⟨sm, -, hts, rfl⟩
    · exact h
    · exact h.accept hts
  | sync i e =>
    obtain ⟨s, st, hi, hst, rfl⟩ := MirrorManager.step_sync hs
    exact h.perform hi hst
  | restart => exact absurd rfl he

/-- A time stamp belongs to one goroutine. -/
theorem Ledger.eq_of_ts (h : Ledger m) {s t : Sync} (hs : s ∈ m.syncs) (ht : t ∈ m.syncs)
    (hts : s.sm.ts = t.sm.ts) : s = t :=
  List.inj_on_of_nodup_map (h.order.imp fun hlt ↦ hlt.ne) hs ht hts

/-! ## Deliveries -/

/-- The newest manifest a process knows: the last one it has accepted, or before any the one in its
state file. -/
def newestKnown (E : Env) (m : MirrorManager) : ℤ :=
  (m.syncs.map (·.sm.ts)).getLast?.getD (MirrorManager.cachedTS E m.disk)

/-- The time stamp that is remembered is that one. -/
theorem ts_step {e : Event} (h : m.ts = newestKnown E m) (hs : m.step E e = some m') :
    m'.ts = newestKnown E m' := by
  cases e with
  | manifest raw =>
    rcases MirrorManager.step_manifest hs with rfl | ⟨sm, -, -, rfl⟩
    · exact h
    · rw [newestKnown, MirrorManager.accept, List.map_append, List.map_singleton,
        List.getLast?_concat, Option.getD_some]
  | sync i e =>
    obtain ⟨s, st, hi, hst, rfl⟩ := MirrorManager.step_sync hs
    -- There is a goroutine, so it does not matter what the step does to the state file.
    obtain ⟨ts, hts⟩ : ∃ ts, (m.syncs.map (·.sm.ts)).getLast? = some ts := by
      refine Option.ne_none_iff_exists'.mp fun hnone ↦ ?_
      rw [List.getLast?_eq_none_iff, List.map_eq_nil_iff] at hnone
      simp [hnone] at hi
    rw [newestKnown, hts, Option.getD_some] at h
    rw [newestKnown, map_ts_perform hi hst, hts, Option.getD_some]
    exact h
  | restart =>
    rw [MirrorManager.step, Option.some_inj] at hs
    subst hs
    rfl

/-- **What a delivery does**: in every state that can be reached, a valid manifest starts a
goroutine if it is newer than the newest one the process knows.  Otherwise nothing happens, complete
or not. -/
theorem accepts_iff_newer {E : Env} {d : Disk FileName} {es : List Event} {m : MirrorManager}
    (h : exec (MirrorManager.step E) (.start E d) es = some m) {raw : Bytes}
    {sm : SignedContentManifest} (hv : E.verify raw = .ok sm) :
    (newestKnown E m < sm.ts → ∃ s, (m.onContentManifest E raw).syncs = m.syncs ++ [s] ∧
      s.sm = sm ∧ s.pc = .accepted ∧ s.gen = (m.onContentManifest E raw).gen) ∧
    (sm.ts ≤ newestKnown E m → m.onContentManifest E raw = m) := by
  have hts : m.ts = newestKnown E m :=
    inv_of_exec (P := fun m ↦ m.ts = newestKnown E m) (fun hm hs ↦ ts_step hm hs) rfl h
  rw [← hts, MirrorManager.onContentManifest, hv]
  dsimp only
  refine ⟨fun hlt ↦ ?_, fun hle ↦ if_pos hle⟩
  rw [if_neg (Int.not_le.mpr hlt)]
  exact ⟨_, rfl, rfl, rfl, rfl⟩

theorem accepts_iff_newer_demo :
    ∃ m s, exec (MirrorManager.step demoEnv) (.start demoEnv .empty) fetchRun = some m ∧
      demoEnv.verify [2] = .ok (demoManifest 2) ∧ newestKnown demoEnv m < 2 ∧
      (m.onContentManifest demoEnv [2]).syncs = m.syncs ++ [s] ∧ s.sm = demoManifest 2 := by
  have hrun : (exec (MirrorManager.step demoEnv) (.start demoEnv .empty) fetchRun).map
      (newestKnown demoEnv) = some 1 := by decide +kernel
  obtain ⟨m, hm, hts⟩ := Option.map_eq_some_iff.mp hrun
  have hlt : newestKnown demoEnv m < 2 := by rw [hts]; decide
  have hv : demoEnv.verify [2] = .ok (demoManifest 2) := rfl
  obtain ⟨s, hs, hsm, -⟩ := (accepts_iff_newer hm hv).1 hlt
  exact ⟨m, s, hm, hv, hlt, hs, hsm⟩

/-- The only chunk of a file cannot be had. -/
def failedRun : List Event :=
  untilFetch 1 0 ++ [.sync 0 (.fetched [none] none), .sync 0 (.sys true), .sync 0 .next,
    .sync 0 (.sys true), .sync 0 (.wrote 1)]

/-- **A version that stays incomplete**: no goroutine is at work, nothing was announced, and the
newest manifest, delivered once more, starts none. -/
theorem redelivery_dropped :
    ∃ m, exec (MirrorManager.step demoEnv) (.start demoEnv .empty) failedRun = some m ∧
      demoEnv.verify [1] = .ok (demoManifest 1) ∧ newestKnown demoEnv m = (demoManifest 1).ts ∧
      .setComplete 1 true ∉ m.calls ∧ (∀ s ∈ m.syncs, s.pc = .done) ∧
      (m.onContentManifest demoEnv [1]).syncs = m.syncs := by
  have hrun : (exec (MirrorManager.step demoEnv) (.start demoEnv .empty) failedRun).map
      (fun m ↦ (m.ts, newestKnown demoEnv m, m.calls, m.syncs.map Sync.pc)) =
        some (1, 1, [.setContent [1] 1, .setComplete 1 false], [Pc.done]) := by decide +kernel
  obtain ⟨m, hm, h⟩ := Option.map_eq_some_iff.mp hrun
  simp only [Prod.mk.injEq] at h
  obtain ⟨hts, hknown, hcalls, hpcs⟩ := h
  refine ⟨m, hm, rfl, hknown, ?_, fun s hs ↦ ?_, ?_⟩
  · rw [hcalls]
    decide
  · have hpc := List.mem_map_of_mem (f := Sync.pc) hs
    rw [hpcs] at hpc
    exact List.mem_singleton.mp hpc
  · exact congrArg _ (if_pos (hts ▸ le_rfl))

end TunnelCat.Mirror
