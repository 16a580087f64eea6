import TunnelCat.Mirror.Completeness

/-!
# Files the mirror touches

The paths of a manifest are joined to the name of the directory and cleaned, in three places: when a
file that is not listed any more is removed, when a temporary file is made, and when it is renamed.
Nothing looks at the result.  A path with enough `..` in it leads out of the directory, an empty one
is the directory itself, whose temporary file is next to it, and `.manifest.json` is the state file.

`Fenced` says of a step in which a path is taken up — read from the state file as one to remove, or
from the manifest as one to fetch — that it leads to a file below the directory other than the state
file.  Then so does every system call that makes, empties, replaces or removes a file, apart from
the one that opens the state file to write it.  Paths that are skipped because nothing has changed
do not matter.
-/

set_option autoImplicit false

open Trace

namespace TunnelCat.Mirror

/-- A file below the directory, and not the state file. -/
def Confined (E : Env) (n : FileName) : Prop := E.dataDir.Inside n ∧ n ≠ E.statePath

instance (E : Env) (n : FileName) : Decidable (Confined E n) :=
  inferInstanceAs (Decidable (_ ∧ _))

/-- The paths that a goroutine takes up when it goes on lead to such files. -/
def TakesUpConfined (E : Env) (gen : ℕ) (d : Disk FileName) (s : Sync) : Prop :=
  (s.pc = .start →
    ∀ p ∈ obsolete (E.loadPrevFileList (d.read E.statePath)) s.sm.files, Confined E (E.abs p)) ∧
  (s.pc = .loop → s.gen = gen →
    ∀ f ∈ s.rest.head?, unchanged s.prev f = false → Confined E (E.abs f.path))

instance (E : Env) (gen : ℕ) (d : Disk FileName) (s : Sync) :
    Decidable (TakesUpConfined E gen d s) :=
  inferInstanceAs (Decidable (_ ∧ _))

/-- **A fenced step.** -/
def Fenced (E : Env) (m : MirrorManager) : Event → Prop
  | .sync i .next => ∀ s ∈ m.syncs[i]?, TakesUpConfined E m.gen m.disk s
  | _ => True

instance (E : Env) (m : MirrorManager) (e : Event) : Decidable (Fenced E m e) := by
  unfold Fenced
  split <;> infer_instance

/-- The paths that a goroutine has taken up. -/
def Pc.paths : Pc → List String
  | .deleting todo => todo
  | .mkdir f | .create f | .chunk f _ | .fetch f _ _ | .write f _ _ | .close f _ | .rename f _
  | .cleanup f _ => [f.path]
  | _ => []

variable {E : Env} {d : Disk FileName} {m m' : MirrorManager} {s : Sync} {gen : ℕ}

/-! ## Temporary files -/

theorem statePath_eq (E : Env) : E.statePath.comps.getLast? = some ".manifest.json" := by
  have hsplit : FileName.split ".manifest.json" = [".manifest.json"] := by decide +kernel
  rw [Env.statePath, FileName.join, hsplit]
  simp [FileName.push]

/-- The temporary file is in the directory of the file. -/
theorem Confined.tmp {p : String} (h : Confined E (E.abs p)) : Confined E (E.tmp p) := by
  refine ⟨h.1.withSuffix _, fun heq ↦ ?_⟩
  obtain ⟨base, hbase⟩ := (E.abs p).getLast?_withSuffix ".part"
  rw [← Env.tmp, heq, statePath_eq, Option.some_inj] at hbase
  have hlast := congrArg (fun t : String ↦ t.toList.getLast?) hbase
  simp at hlast

/-! ## What a goroutine takes up and what it touches -/

/-- A path is taken up from the state file or from the manifest. -/
theorem paths_step {e : SyncEvent} {st : Step} (hst : s.step E gen d e = some st) {p : String}
    (hp : p ∈ st.sync.pc.paths) :
    p ∈ s.pc.paths ∨
    (s.pc = .start ∧ e = .next ∧
      p ∈ obsolete (E.loadPrevFileList (d.read E.statePath)) s.sm.files) ∨
    (s.pc = .loop ∧ e = .next ∧ s.gen = gen ∧
      ∃ f ∈ s.rest.head?, unchanged s.prev f = false ∧ f.path = p) := by
  cases Sync.moves_of_step hst with
  | start hpc => exact Or.inr (Or.inl ⟨hpc, rfl, hp⟩)
  | delete hpc =>
    rw [hpc]
    exact Or.inl (List.mem_of_mem_erase hp)
  | take hpc hgen hrest hun =>
    exact Or.inr (Or.inr ⟨hpc, rfl, hgen, _, by simp [hrest], hun, (List.mem_singleton.mp hp).symm⟩)
  | @cleanup f synced => cases synced <;> exact absurd hp List.not_mem_nil
  | notPersisted | persistWrite =>
    have hafter : s.afterPersist.paths = [] := by
      rw [Sync.afterPersist]
      split <;> rfl
    simp_all [Sync.goto]
  -- Otherwise the goroutine goes on with the same file or has finished with it.
  | _ => simp_all [Sync.goto, Sync.failed, Pc.paths]

/-- The system calls of a goroutine, by where it is. -/
inductive Issues (E : Env) (s : Sync) (d : Disk FileName) : Disk.Op FileName → Prop
  /-- A file that is not listed any more is removed. -/
  | delete {todo : List String} {p : String} (hpc : s.pc = .deleting todo) (hp : p ∈ todo) :
    Issues E s d (.remove (E.abs p))
  /-- A temporary file is made. -/
  | create {f : ContentFile} (hpc : s.pc = .create f) : Issues E s d (.openTrunc (E.tmp f.path))
  /-- A chunk or some of it is written. -/
  | write {f : ContentFile} {t : Temp} {data : Bytes} (hpc : s.pc = .write f t data) (n : ℕ) :
    Issues E s d (.write t.fd t.off (data.take n))
  /-- The temporary file is renamed. -/
  | rename {f : ContentFile} {t : Temp} (hpc : s.pc = .rename f t)
    (hbound : d.names (E.tmp f.path) ≠ none) :
    Issues E s d (.rename (E.tmp f.path) (E.abs f.path))
  /-- What is left of it is removed. -/
  | cleanup {f : ContentFile} {synced : Bool} (hpc : s.pc = .cleanup f synced) :
    Issues E s d (.remove (E.tmp f.path))
  /-- The state file is opened. -/
  | persist (hpc : s.pc = .persist) : Issues E s d (.openTrunc E.statePath)
  /-- The state file is written. -/
  | persistWrite {fd : ℕ} (hpc : s.pc = .persistWrite fd) (n : ℕ) :
    Issues E s d (.write fd 0 (s.raw.take n))

theorem issues_of_step {e : SyncEvent} {st : Step} (hst : s.step E gen d e = some st)
    {op : Disk.Op FileName} (hop : st.op = some op) : Issues E s d op := by
  cases Sync.moves_of_step hst with
  | @delete todo p ok hpc hp =>
    cases ok <;> cases hop
    exact .delete hpc hp
  | create hpc =>
    cases hop
    exact .create hpc
  | @write f t data hpc =>
    cases hop
    have h := Issues.write (E := E) (d := d) hpc data.length
    rwa [List.take_length] at h
  | @notWritten f t data n hpc =>
    cases hop
    exact .write hpc n
  | rename hpc hbound =>
    cases hop
    exact .rename hpc hbound
  | @cleanup f synced ok hpc =>
    cases ok <;> cases hop
    exact .cleanup hpc
  | persist hpc =>
    cases hop
    exact .persist hpc
  | @persistWrite fd n hpc =>
    cases hop
    exact .persistWrite hpc n
  -- The other steps are between system calls.
  | _ => cases hop

/-- What is touched has the name of one of the paths, or it is the state file. -/
theorem Issues.names {op : Disk.Op FileName} (h : Issues E s d op) (hpc : s.pc ≠ .persist)
    {n : FileName} (hn : n ∈ op.names) : ∃ p ∈ s.pc.paths, n = E.abs p ∨ n = E.tmp p := by
  cases h with
  | delete hpc hp =>
    rw [hpc]
    exact ⟨_, hp, Or.inl (List.mem_singleton.mp hn)⟩
  | create hpc | cleanup hpc =>
    rw [hpc]
    exact ⟨_, List.mem_singleton_self _, Or.inr (List.mem_singleton.mp hn)⟩
  | rename hpc hbound =>
    rw [hpc]
    refine ⟨_, List.mem_singleton_self _, ?_⟩
    rcases List.mem_cons.mp hn with hn | hn
    · exact Or.inr hn
    · exact Or.inl (List.mem_singleton.mp hn)
  | write hpc n | persistWrite hpc n => exact absurd hn List.not_mem_nil
  | persist h => exact absurd h hpc

/-! ## Every run -/

/-- What goroutines have taken up is fenced in. -/
def FencedIn (E : Env) (m : MirrorManager) : Prop :=
  ∀ s ∈ m.syncs, ∀ p ∈ s.pc.paths, Confined E (E.abs p)

theorem FencedIn.step (h : FencedIn E m) {e : Event} (hf : Fenced E m e)
    (hs : m.step E e = some m') : FencedIn E m' := by
  cases e with
  | manifest raw =>
    rcases MirrorManager.step_manifest hs with rfl | ⟨sm, -, -, rfl⟩
    · exact h
    · intro s hs p hp
      rcases List.mem_append.mp hs with hs | hs
      · exact h s hs p hp
      · rw [List.mem_singleton.mp hs] at hp
        exact absurd hp List.not_mem_nil
  | sync i e =>
    obtain ⟨s, st, hi, hst, rfl⟩ := MirrorManager.step_sync hs
    intro t ht p hp
    rcases List.mem_or_eq_of_mem_set ht with ht | rfl
    · exact h t ht p hp
    · rcases paths_step hst hp with hp | ⟨hpc, rfl, hp⟩ | ⟨hpc, rfl, hgen, f, hfst, hun, rfl⟩
      · exact h s (List.mem_of_getElem? hi) p hp
      · exact (hf s hi).1 hpc p hp
      · exact (hf s hi).2 hpc hgen f hfst hun
  | restart =>
    rw [MirrorManager.step, Option.some_inj] at hs
    subst hs
    intro s hs
    exact absurd hs List.not_mem_nil

/-- **Confinement**: in every run in which only paths are taken up that lead to a file below the
directory other than the state file, every system call that makes, empties, replaces or removes a
file does so to such a file, apart from the one that opens the state file to write it. -/
theorem confined_of_exec {E : Env} {d : Disk FileName} {es : List Event} {m : MirrorManager}
    (hrun : exec (MirrorManager.step E) (.start E d) es = some m)
    (hfenced : Along (MirrorManager.step E) (Fenced E) (.start E d) es) {i : ℕ} {s : Sync}
    (hi : m.syncs[i]? = some s) (hpc : s.pc ≠ .persist) {e : SyncEvent} {op : Disk.Op FileName}
    (hop : op ∈ opOf E m i e) : ∀ n ∈ op.names, Confined E n := by
  have hinv : FencedIn E m :=
    inv_of_exec_along (fun h hf hs ↦ FencedIn.step h hf hs) (fun s hs ↦ absurd hs List.not_mem_nil)
      hfenced hrun
  intro n hn
  rw [opOf, hi, Option.bind_some] at hop
  obtain ⟨st, hst, hop⟩ := Option.bind_eq_some_iff.mp hop
  obtain ⟨p, hp, rfl | rfl⟩ := (issues_of_step hst hop).names hpc hn
  · exact hinv s (List.mem_of_getElem? hi) p hp
  · exact (hinv s (List.mem_of_getElem? hi) p hp).tmp

/-- The chunk has come and the temporary file is closed. -/
def untilRename : List Event :=
  untilFetch 1 0 ++ [.sync 0 (.fetched [none] (some [7])), .sync 0 (.wrote 1), .sync 0 .next,
    .sync 0 (.sys true)]

/-- The names of the next system call, if it is a rename. -/
def renames (E : Env) (es : List Event) : Option (List FileName) :=
  (exec (MirrorManager.step E) (.start E .empty) es).bind fun m ↦
    match opOf E m 0 (.sys true) with
    | some (.rename a b) => some [a, b]
    | _ => none

theorem renames_eq_some {E : Env} {es : List Event} {names : List FileName}
    (h : renames E es = some names) :
    ∃ m s op, exec (MirrorManager.step E) (.start E .empty) es = some m ∧
      m.syncs[0]? = some s ∧ s.pc ≠ .persist ∧ op ∈ opOf E m 0 (.sys true) ∧ op.names = names := by
  obtain ⟨m, hm, h⟩ := Option.bind_eq_some_iff.mp h
  split at h
  · rename_i a b hop
    have hop' := hop
    obtain ⟨s, hs, hst⟩ := Option.bind_eq_some_iff.mp hop'
    obtain ⟨st, hst, ho⟩ := Option.bind_eq_some_iff.mp hst
    cases issues_of_step hst ho with
    | rename hpc _ => exact ⟨m, s, _, hm, hs, by simp [hpc], hop, Option.some.inj h⟩
  · exact absurd h (by simp)

theorem confined_of_exec_demo :
    ∃ m s op, exec (MirrorManager.step demoEnv) (.start demoEnv .empty) untilRename = some m ∧
      m.syncs[0]? = some s ∧ op ∈ opOf demoEnv m 0 (.sys true) ∧
      op.names = [demoEnv.tmp "a", demoEnv.abs "a"] ∧ ∀ n ∈ op.names, Confined demoEnv n := by
  have hrun : renames demoEnv untilRename = some [demoEnv.tmp "a", demoEnv.abs "a"] := by
    decide +kernel
  obtain ⟨m, s, op, hm, hs, hpc, hop, hnames⟩ := renames_eq_some hrun
  exact ⟨m, s, op, hm, hs, hop, hnames, confined_of_exec hm (by decide +kernel) hs hpc hop⟩

/-- An environment whose manifests list a file outside of the directory. -/
def escapeEnv : Env :=
  { demoEnv with unmarshal := fun _ ↦ .ok ⟨"content", 1, [⟨"../a", 1, 16, ["07"]⟩], "sig"⟩ }

/-- **A file outside of the directory is replaced**, though the manifest passes `verify`. -/
theorem escapes :
    ∃ m s op, exec (MirrorManager.step escapeEnv) (.start escapeEnv .empty) untilRename = some m ∧
      m.syncs[0]? = some s ∧ s.pc ≠ .persist ∧ op ∈ opOf escapeEnv m 0 (.sys true) ∧
      (⟨true, ["var", "a"]⟩ : FileName) ∈ op.names ∧
      ¬ escapeEnv.dataDir.Inside ⟨true, ["var", "a"]⟩ := by
  have hrun : renames escapeEnv untilRename =
      some [⟨true, ["var", "a.part"]⟩, ⟨true, ["var", "a"]⟩] := by decide +kernel
  obtain ⟨m, s, op, hm, hs, hpc, hop, hnames⟩ := renames_eq_some hrun
  exact ⟨m, s, op, hm, hs, hpc, hop, by simp [hnames], by decide⟩

end TunnelCat.Mirror
