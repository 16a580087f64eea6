import Mathlib.Data.List.Dedup
import TunnelCat.Mirror.Confinement
import TunnelCat.Mirror.Ledger

/-!
# Files that are left behind

Before it fetches anything, `sync` removes what the last manifest listed and the new one does not.
The last manifest is the one in the state file, and the state file is written at the end: files that
were put into place by a goroutine which did not get there are not in it, and nothing else knows of
them.

`Record` is a mirror with the names of all the files it has ever made.  `Orderly` says what must be
so for the files that are left to be those of the manifest, once its goroutine is over and no newer
manifest has come (`NoOrphans`).  For the goroutine of the newest manifest:

* when it reads the state file, every file that the mirror has made and that is still there is
  listed in it or in the manifest, or it is the temporary file of a goroutine that is still at work;
* the files that it lists are below the directory, and one that it skips is there and was made by
  the mirror;
* a file that is there can be removed;
* no system call takes away a file that it has settled, and older goroutines put into place only
  files that it lists;
* none of them is fetching a file when it announces.

Everything else may happen: manifests that come in the middle of a synchronisation, chunks that
cannot be had, disks that fail.
-/

set_option autoImplicit false

open Trace

namespace TunnelCat.Mirror

/-! ## Where goroutines are -/

/-- The file whose temporary file may be there. -/
def Pc.working : Pc → List ContentFile
  | .chunk f _ | .fetch f _ _ | .write f _ _ | .close f _ | .rename f _ | .cleanup f _ => [f]
  | _ => []

/-- In `syncFile`. -/
def Pc.inFile : Pc → Bool
  | .mkdir _ | .create _ | .chunk _ _ | .fetch _ _ _ | .write _ _ _ | .close _ _ | .rename _ _
  | .cleanup _ _ => true
  | _ => false

/-- The state file has been read. -/
def Pc.started : Pc → Bool
  | .accepted | .gossiped | .start => false
  | _ => true

/-- The files that are still to be removed. -/
def Pc.todo : Pc → List String
  | .deleting todo => todo
  | _ => []

/-- The file that is about to be put into place. -/
def Pc.renaming : Pc → List ContentFile
  | .rename f _ => [f]
  | _ => []

/-- The file whose temporary file is about to be removed. -/
def Pc.cleaning : Pc → Option ContentFile
  | .cleanup f _ => some f
  | _ => none

/-- The file that could not be removed. -/
def SyncEvent.notRemoved : SyncEvent → Option String
  | .remove p false => some p
  | _ => none

/-- The names of listed files. -/
def Env.names (E : Env) (files : List ContentFile) : List FileName :=
  files.map fun f ↦ E.abs f.path

/-- The names of the temporary files that may be there. -/
def temps (E : Env) (m : MirrorManager) : List FileName :=
  m.syncs.flatMap fun s ↦ s.pc.working.map fun f ↦ E.tmp f.path

variable {f : ContentFile}

theorem current_of_renaming {pc : Pc} (h : f ∈ pc.renaming) :
    f ∈ pc.current := by
  cases pc <;> first | exact h | cases h

variable {E : Env} {d : Disk FileName} {m : MirrorManager} {s : Sync} {gen : ℕ} {e : SyncEvent}
  {st : Step}

/-- A file of the previous manifest is listed in the new one or is to be removed. -/
theorem mem_names_of_prev (E : Env) {prev files : List ContentFile} {n : FileName}
    (h : n ∈ E.names prev) : n ∈ (obsolete prev files).map E.abs ∨ n ∈ E.names files := by
  obtain ⟨g, hg, rfl⟩ := List.mem_map.mp h
  by_cases hmem : g.path ∈ files.map ContentFile.path
  · obtain ⟨f, hf, hpath⟩ := List.mem_map.mp hmem
    exact Or.inr (List.mem_map.mpr ⟨f, hf, by rw [hpath]⟩)
  · refine Or.inl (List.mem_map_of_mem (List.mem_filter.mpr ⟨?_, by simpa using hmem⟩))
    exact List.mem_dedup.mpr (List.mem_map_of_mem hg)

theorem working_step (hst : s.step E gen d e = some st) (hf : f ∈ s.pc.working) :
    f ∈ st.sync.pc.working ∨ ∃ synced, s.pc = .cleanup f synced := by
  cases Sync.moves_of_step hst with
  | cleanup hpc =>
    rw [hpc] at hf
    rw [List.mem_singleton.mp hf]
    exact Or.inr ⟨_, hpc⟩
  | _ => simp_all [Sync.goto, Pc.working]

theorem afterPersist_cases (s : Sync) : s.afterPersist = .index ∨ s.afterPersist = .done := by
  rw [Sync.afterPersist]
  split
  · exact Or.inl rfl
  · exact Or.inr rfl

theorem working_of_create (hst : s.step E gen d e = some st) (hpc : s.pc = .create f)
    {op : Disk.Op FileName} (hop : st.op = some op) :
    st.sync.pc.working = [f] := by
  cases Sync.moves_of_step hst with
  | create hpc' =>
    rw [hpc] at hpc'
    cases hpc'
    rfl
  | _ => simp_all

theorem op_of_cleanup (hst : s.step E gen d e = some st) {synced : Bool}
    (hpc : s.pc = .cleanup f synced) :
    ∃ ok, e = .sys ok ∧ st.op = if ok then some (.remove (E.tmp f.path)) else none := by
  cases Sync.moves_of_step hst with
  | cleanup hpc' =>
    rw [hpc] at hpc'
    cases hpc'
    exact ⟨_, rfl, rfl⟩
  | _ => simp_all

theorem inFile_step (hst : s.step E gen d e = some st) (h : st.sync.pc.inFile = true) :
    s.pc.inFile = true ∨ s.pc = .loop ∧ s.gen = gen := by
  cases Sync.moves_of_step hst with
  | notPersisted | persistWrite =>
    rcases afterPersist_cases s with hafter | hafter <;> simp_all [Sync.goto, Pc.inFile]
  | cleanup hpc => exact Or.inl (by rw [hpc]; rfl)
  | _ => simp_all [Sync.goto, Sync.failed, Pc.inFile]

theorem todo_step (hst : s.step E gen d e = some st) {p : String} (hp : p ∈ s.pc.todo) :
    p ∈ st.sync.pc.todo ∨ ∃ ok, e = .remove p ok ∧
      st.op = if ok then some (.remove (E.abs p)) else none := by
  cases Sync.moves_of_step hst with
  | @delete todo q ok hpc =>
    rw [hpc] at hp
    rcases eq_or_ne p q with rfl | hne
    · exact Or.inr ⟨ok, rfl, rfl⟩
    · exact Or.inl ((List.mem_erase_of_ne hne).mpr hp)
  | _ => simp_all [Pc.todo]

theorem started_step (hst : s.step E gen d e = some st) (h : st.sync.pc.started = true) :
    s.pc.started = true ∨ s.pc = .start ∧ e = .next ∧ st.op = none ∧
      st.sync.pc = .deleting (obsolete (E.loadPrevFileList (d.read E.statePath)) s.sm.files) := by
  cases Sync.moves_of_step hst with
  | start hpc => exact Or.inr ⟨hpc, rfl, rfl, rfl⟩
  | _ => simp_all [Pc.started]

theorem current_step (hst : s.step E gen d e = some st) (hf : f ∈ st.sync.pc.current) :
    f ∈ s.pc.current ∨ s.pc = .loop ∧ e = .next ∧ s.gen = gen ∧ f ∈ s.rest.head? := by
  cases Sync.moves_of_step hst with
  | notPersisted | persistWrite =>
    rcases afterPersist_cases s with hafter | hafter <;> simp_all [Sync.goto, Pc.current]
  | @cleanup g synced => cases synced <;> simp_all [Sync.failed, Pc.current]
  | _ => simp_all [Sync.goto, Sync.failed, Pc.current]

theorem rest_step (hst : s.step E gen d e = some st) (hf : f ∈ st.sync.rest) :
    f ∈ s.rest := by
  cases Sync.moves_of_step hst with
  | skip hpc hgen hrest | take hpc hgen hrest =>
    rw [hrest]
    exact List.mem_cons_of_mem _ hf
  | @cleanup g synced => cases synced <;> exact hf
  | _ => exact hf

theorem settled_step (hst : s.step E gen d e = some st) (hf : f ∈ st.sync.settled) :
    f ∈ s.settled ∨
    (s.pc = .loop ∧ e = .next ∧ s.gen = gen ∧ f ∈ s.rest.head? ∧ unchanged s.prev f = true ∧
      st.op = none) ∨
    ∃ t, s.pc = .rename f t ∧ d.names (E.tmp f.path) ≠ none ∧
      st.op = some (.rename (E.tmp f.path) (E.abs f.path)) := by
  cases Sync.moves_of_step hst with
  | skip hpc hgen hrest hun =>
    rcases List.mem_append.mp hf with hf | hf
    · exact Or.inl hf
    · rw [List.mem_singleton.mp hf]
      exact Or.inr (Or.inl ⟨hpc, rfl, hgen, by simp [hrest], hun, rfl⟩)
  | rename hpc hbound =>
    rcases List.mem_append.mp hf with hf | hf
    · exact Or.inl hf
    · rw [List.mem_singleton.mp hf]
      exact Or.inr (Or.inr ⟨_, hpc, hbound, rfl⟩)
  | @cleanup g synced => cases synced <;> exact Or.inl hf
  | _ => exact Or.inl hf

/-- A goroutine that is not superseded has no file to come when it is through the loop. -/
theorem rest_of_over (h : s.pc.committed = true → s.rest = []) (hst : s.step E gen d e = some st)
    (hgen : s.gen = gen) (hover : st.sync.pc.committed = true ∨ st.sync.pc = .done) :
    st.sync.rest = [] := by
  cases Sync.moves_of_step hst with
  | @cleanup f synced => cases synced <;> simp_all [Sync.failed, Pc.committed]
  | _ => simp_all [Sync.goto, Sync.failed, Pc.committed]

theorem announce_of_done (hst : s.step E gen d e = some st) (hgen : s.gen = gen)
    (hdone : st.sync.pc = .done) (hok : st.sync.ok = true) : s.pc = .announce ∧ e = .next := by
  cases Sync.moves_of_step hst with
  | @cleanup f synced => cases synced <;> simp_all [Sync.failed]
  | _ => simp_all [Sync.goto, Sync.failed, Sync.afterPersist]

/-! ## What the mirror has made -/

/-- A mirror and the names of the files it has made. -/
structure Record where
  /-- The mirror. -/
  mirror : MirrorManager
  /-- The names. -/
  made : List FileName

namespace Record

/-- The names a step makes. -/
def makes (E : Env) (m : MirrorManager) : Event → List FileName
  | .sync i e => (opOf E m i e).elim [] Disk.Op.makes
  | _ => []

/-- A step. -/
def step (E : Env) (R : Record) (e : Event) : Option Record :=
  (R.mirror.step E e).map fun m ↦ ⟨m, R.made ++ makes E R.mirror e⟩

/-- A mirror that has made nothing yet. -/
def start (E : Env) (d : Disk FileName) : Record := ⟨.start E d, []⟩

/-- A file below the directory that the mirror has made, other than the state file, and that is
there. -/
def Left (E : Env) (R : Record) (n : FileName) : Prop :=
  n ∈ R.made ∧ R.mirror.disk.names n ≠ none ∧ Confined E n

/-- **No file is left behind**: when the goroutine of the newest manifest is over and has not
failed, the files that are left are those of the manifest. -/
def NoOrphans (E : Env) (R : Record) : Prop :=
  ∀ s ∈ R.mirror.syncs, s.gen = R.mirror.gen → s.pc = .done → s.ok = true →
    ∀ n, R.Left E n ↔ n ∈ E.names s.sm.files

/-! ## Orderly steps -/

/-- What is left is listed in the state file or in the manifest, or it is the temporary file of a
goroutine. -/
def Accounted (E : Env) (R : Record) (s : Sync) : Prop :=
  ∀ n ∈ R.made, R.mirror.disk.names n ≠ none → Confined E n →
    n ∈ E.names (E.loadPrevFileList (R.mirror.disk.read E.statePath)) ∨
      n ∈ E.names s.sm.files ∨ n ∈ temps E R.mirror

instance (E : Env) (R : Record) (s : Sync) : Decidable (Accounted E R s) :=
  inferInstanceAs (Decidable (∀ n ∈ R.made, _))

/-- The goroutine of the newest manifest finds what it expects. -/
@[mk_iff]
structure Expected (E : Env) (R : Record) (s : Sync) (e : SyncEvent) : Prop where
  /-- When it reads the state file, nothing is left that nobody accounts for. -/
  start : s.pc = .start → Accounted E R s
  /-- What it cannot remove is not there. -/
  remove : ∀ p ∈ e.notRemoved, R.mirror.disk.names (E.abs p) = none
  /-- The file it turns to is below the directory, and is there if it is skipped. -/
  take : s.pc = .loop → ∀ f ∈ s.rest.head?, Confined E (E.abs f.path) ∧
    (unchanged s.prev f = true →
      E.abs f.path ∈ R.made ∧ R.mirror.disk.names (E.abs f.path) ≠ none)
  /-- No goroutine is fetching a file when it announces. -/
  announce : s.pc = .announce → ∀ t ∈ R.mirror.syncs, t.pc.inFile = false

/-- A temporary file that is there is removed. -/
def CleansUp (E : Env) (d : Disk FileName) (s : Sync) : SyncEvent → Prop
  | .sys false => ∀ f ∈ s.pc.cleaning, d.names (E.tmp f.path) = none
  | _ => True

/-- A system call of a goroutine does not interfere with the one of the newest manifest. -/
def Polite (E : Env) (m : MirrorManager) (s : Sync) (op : Disk.Op FileName) : Prop :=
  ∀ c ∈ m.syncs, c.gen = m.gen →
    (∀ f ∈ c.settled, E.abs f.path ∉ op.unbinds) ∧
    (s.gen ≠ m.gen → c.pc.started = true →
      ∀ f ∈ s.pc.renaming, E.abs f.path ∈ E.names c.sm.files)

/-- **An orderly step.** -/
def Orderly (E : Env) (R : Record) : Event → Prop
  | .sync i e => ∀ s ∈ R.mirror.syncs[i]?,
      (s.gen = R.mirror.gen → Expected E R s e) ∧ CleansUp E R.mirror.disk s e ∧
        ∀ op ∈ opOf E R.mirror i e, Polite E R.mirror s op
  | _ => True

instance (E : Env) (R : Record) (s : Sync) (e : SyncEvent) : Decidable (Expected E R s e) :=
  decidable_of_iff' _ (expected_iff E R s e)

instance (E : Env) (d : Disk FileName) (s : Sync) : (e : SyncEvent) → Decidable (CleansUp E d s e)
  | .sys false => inferInstanceAs (Decidable (∀ f ∈ s.pc.cleaning, _))
  | .sys true | .next | .remove .. | .fetched .. | .wrote _ => isTrue trivial

instance (E : Env) (m : MirrorManager) (s : Sync) (op : Disk.Op FileName) :
    Decidable (Polite E m s op) :=
  inferInstanceAs (Decidable (∀ c ∈ m.syncs, _ → _ ∧ _))

instance (E : Env) (R : Record) : (e : Event) → Decidable (Orderly E R e)
  | .sync i _ => inferInstanceAs (Decidable (∀ s ∈ R.mirror.syncs[i]?, _))
  | .manifest _ | .restart => isTrue trivial

/-! ## The invariant -/

/-- What is known about the goroutine of the newest manifest. -/
structure Kept (E : Env) (R : Record) (c : Sync) : Prop where
  /-- What it has settled is there. -/
  settled : ∀ f ∈ c.settled, R.Left E (E.abs f.path)
  /-- The file it fetches is below the directory. -/
  current : ∀ f ∈ c.pc.current, Confined E (E.abs f.path)
  /-- After the loop, no file is to come. -/
  finished : c.pc.committed = true ∨ c.pc = .done → c.rest = []
  /-- What is left is to be removed, or it is listed, or it is temporary. -/
  left : c.pc.started = true → ∀ n, R.Left E n →
    n ∈ c.pc.todo.map E.abs ∨ n ∈ E.names c.sm.files ∨ n ∈ temps E R.mirror
  /-- When it is over, no file is being fetched. -/
  quiet : c.pc = .done → c.ok = true → ∀ t ∈ R.mirror.syncs, t.pc.inFile = false

/-- **The invariant.** -/
structure Inv (E : Env) (R : Record) : Prop where
  /-- Generations are counted up. -/
  gens : (R.mirror.syncs.map Sync.gen).Pairwise (· < ·)
  /-- None is still to come. -/
  le_gen : ∀ s ∈ R.mirror.syncs, s.gen ≤ R.mirror.gen
  /-- No goroutine has lost a file. -/
  tidy : ∀ s ∈ R.mirror.syncs, Tidy s
  /-- Their files are those of their manifests. -/
  within : ∀ s ∈ R.mirror.syncs, ∀ f ∈ s.pc.current ++ s.rest, f ∈ s.sm.files
  /-- The goroutine of the newest manifest. -/
  kept : ∀ c ∈ R.mirror.syncs, c.gen = R.mirror.gen → Kept E R c

variable {R R' : Record}

theorem working_of_not_inFile {pc : Pc} (h : pc.inFile = false) : pc.working = [] := by
  cases pc <;> first | rfl | cases h

/-- The invariant is what the property needs. -/
theorem Inv.noOrphans (h : Inv E R) : NoOrphans E R := by
  intro s hs hgen hdone hok n
  have hkept := h.kept s hs hgen
  have hfiles := h.tidy s hs hok
  rw [hdone, hkept.finished (Or.inr hdone)] at hfiles
  have hsettled : s.settled = s.sm.files := by simpa [Pc.current] using hfiles
  refine ⟨fun hn ↦ ?_, fun hn ↦ ?_⟩
  · rcases hkept.left (by rw [hdone]; rfl) n hn with htodo | hlisted | htemp
    · rw [hdone] at htodo
      exact absurd htodo List.not_mem_nil
    · exact hlisted
    · obtain ⟨t, ht, hn⟩ := List.mem_flatMap.mp htemp
      rw [working_of_not_inFile (hkept.quiet hdone hok t ht)] at hn
      exact absurd hn List.not_mem_nil
  · obtain ⟨f, hf, rfl⟩ := List.mem_map.mp hn
    exact hkept.settled f (hsettled ▸ hf)

/-! ## One goroutine takes a step -/

/-- The record after a step. -/
def perform (E : Env) (R : Record) (i : ℕ) (st : Step) : Record :=
  ⟨R.mirror.perform E i st, R.made ++ st.op.elim [] Disk.Op.makes⟩

theorem step_sync {i : ℕ} {e : SyncEvent} (h : R.step E (.sync i e) = some R') :
    ∃ s st, R.mirror.syncs[i]? = some s ∧ s.step E R.mirror.gen R.mirror.disk e = some st ∧
      opOf E R.mirror i e = st.op ∧ R' = R.perform E i st := by
  obtain ⟨m, hm, rfl⟩ := Option.map_eq_some_iff.mp h
  obtain ⟨s, st, hi, hst, rfl⟩ := MirrorManager.step_sync hm
  have hop := opOf_eq hi hst
  exact ⟨s, st, hi, hst, hop, by rw [perform, makes, hop]⟩

section Perform

variable {i : ℕ} (hi : R.mirror.syncs[i]? = some s)
  (hst : s.step E R.mirror.gen R.mirror.disk e = some st)

variable {n : FileName}

/-- Nothing is taken away that the step does not take away. -/
theorem left_perform (h : R.Left E n) (hop : ∀ op ∈ st.op, n ∉ op.unbinds) :
    (R.perform E i st).Left E n := by
  refine ⟨List.mem_append_left _ h.1, ?_, h.2.2⟩
  show (st.op.elim R.mirror.disk R.mirror.disk.apply).names n ≠ none
  cases hso : st.op with
  | none => exact h.2.1
  | some op => exact Disk.bound_apply h.2.1 (hop op hso)

include hst in
/-- What is left after the step was left before, or it is a temporary file that was made, or a file
that was put into place. -/
theorem left_of_perform (h : (R.perform E i st).Left E n) :
    R.Left E n ∨ (∃ f, s.pc = .create f ∧ n = E.tmp f.path ∧ st.sync.pc.working = [f]) ∨
      ∃ f t, s.pc = .rename f t ∧ n = E.abs f.path ∧ st.op ≠ none := by
  obtain ⟨hmade, hbound, hconf⟩ := h
  have hbound : (st.op.elim R.mirror.disk R.mirror.disk.apply).names n ≠ none := hbound
  cases hso : st.op with
  | none =>
    rw [hso] at hbound
    rw [perform, hso] at hmade
    exact Or.inl ⟨by simpa using hmade, hbound, hconf⟩
  | some op =>
    rw [hso] at hbound
    rw [perform, hso] at hmade
    have hold : R.Left E n ∨ n ∈ op.makes := by
      rcases Disk.bound_of_apply hbound with hb | hb
      · rcases List.mem_append.mp hmade with hm | hm
        · exact Or.inl ⟨hm, hb, hconf⟩
        · exact Or.inr hm
      · exact Or.inr hb
    refine hold.imp_right fun hn ↦ ?_
    cases issues_of_step hst hso with
    | create hpc =>
      exact Or.inl ⟨_, hpc, List.mem_singleton.mp hn, working_of_create hst hpc hso⟩
    | rename hpc hb => exact Or.inr ⟨_, _, hpc, List.mem_singleton.mp hn, by simp⟩
    | persist hpc => exact absurd (List.mem_singleton.mp hn) hconf.2
    | delete | write | cleanup | persistWrite => exact absurd hn List.not_mem_nil

/-- A file is gone after the call that is to remove it, if such calls succeed. -/
theorem not_left_of_remove {ok : Bool} (hop : st.op = if ok then some (.remove n) else none)
    (hfail : ok = false → R.mirror.disk.names n = none) (h : R.Left E n) :
    ¬(R.perform E i st).Left E n := by
  intro hafter
  have hbound : (st.op.elim R.mirror.disk R.mirror.disk.apply).names n ≠ none := hafter.2.1
  cases ok with
  | false => exact h.2.1 (hfail rfl)
  | true =>
    rw [hop] at hbound
    exact hbound (Disk.names_remove _ n)

include hi hst in
/-- A temporary file stays one as long as it is there. -/
theorem temps_perform (hclean : CleansUp E R.mirror.disk s e) (hn : n ∈ temps E R.mirror)
    (hbefore : R.Left E n) (hafter : (R.perform E i st).Left E n) :
    n ∈ temps E (R.perform E i st).mirror := by
  obtain ⟨t, ht, hn⟩ := List.mem_flatMap.mp hn
  obtain ⟨f, hf, rfl⟩ := List.mem_map.mp hn
  obtain ⟨j, hj⟩ := List.mem_iff_getElem?.mp ht
  have hlt := (List.getElem?_eq_some_iff.mp hi).1
  rcases eq_or_ne i j with rfl | hne
  · rw [hi, Option.some_inj] at hj
    subst hj
    rcases working_step hst hf with hf | ⟨synced, hpc⟩
    · exact List.mem_flatMap.mpr ⟨st.sync, List.mem_set hlt _, List.mem_map_of_mem hf⟩
    · obtain ⟨ok, rfl, hop⟩ := op_of_cleanup hst hpc
      refine absurd hafter (not_left_of_remove hop (fun hok ↦ ?_) hbefore)
      subst hok
      exact hclean f (by rw [hpc]; rfl)
  · refine List.mem_flatMap.mpr ⟨t, List.mem_iff_getElem?.mpr ⟨j, ?_⟩, List.mem_map_of_mem hf⟩
    exact (List.getElem?_set_ne hne).trans hj

include hi hst in
/-- What is left after a step, seen from a goroutine that has read the state file. -/
theorem left_step (hclean : CleansUp E R.mirror.disk s e) {todo : List String}
    {files : List ContentFile}
    (hleft : ∀ n, R.Left E n → n ∈ todo.map E.abs ∨ n ∈ E.names files ∨ n ∈ temps E R.mirror)
    (hren : st.op ≠ none → ∀ f ∈ s.pc.renaming, E.abs f.path ∈ E.names files)
    (hn : (R.perform E i st).Left E n) :
    (R.Left E n ∧ n ∈ todo.map E.abs) ∨ n ∈ E.names files ∨
      n ∈ temps E (R.perform E i st).mirror := by
  rcases left_of_perform hst hn with hold | ⟨f, hpc, rfl, hwork⟩ | ⟨f, t, hpc, rfl, hop⟩
  · rcases hleft n hold with htodo | hlisted | htemp
    · exact Or.inl ⟨hold, htodo⟩
    · exact Or.inr (Or.inl hlisted)
    · exact Or.inr (Or.inr (temps_perform hi hst hclean htemp hold hn))
  · refine Or.inr (Or.inr (List.mem_flatMap.mpr ⟨st.sync, ?_, ?_⟩))
    · exact List.mem_set (List.getElem?_eq_some_iff.mp hi).1 _
    · rw [hwork]
      exact List.mem_singleton_self _
  · refine Or.inr (Or.inl (hren hop f ?_))
    rw [hpc]
    exact List.mem_singleton_self f

include hi hst in
/-- The goroutine of the newest manifest takes a step. -/
theorem Kept.own (h : Kept E R s) (hgen : s.gen = R.mirror.gen)
    (hwithin : ∀ f ∈ s.pc.current ++ s.rest, f ∈ s.sm.files) (hexp : Expected E R s e)
    (hclean : CleansUp E R.mirror.disk s e)
    (hkeep : ∀ op ∈ st.op, ∀ f ∈ s.settled, E.abs f.path ∉ op.unbinds) :
    Kept E (R.perform E i st) st.sync := by
  refine ⟨fun f hf ↦ ?_, fun f hf ↦ ?_, fun hover ↦ ?_, fun hstarted n hn ↦ ?_,
    fun hdone hok t ht ↦ ?_⟩
  · rcases settled_step hst hf with hf | ⟨hpc, rfl, -, hhead, hun, hop⟩ | ⟨t, hpc, hbound, hop⟩
    · exact left_perform (h.settled f hf) fun op ho ↦ hkeep op ho f hf
    · obtain ⟨hconf, hskip⟩ := hexp.take hpc f hhead
      exact left_perform ⟨(hskip hun).1, (hskip hun).2, hconf⟩ (by simp [hop])
    · refine ⟨List.mem_append_right _ ?_, ?_,
        h.current f (by rw [hpc]; exact List.mem_singleton_self f)⟩
      · rw [hop]
        exact List.mem_singleton_self _
      · show (st.op.elim R.mirror.disk R.mirror.disk.apply).names _ ≠ none
        rw [hop]
        exact Disk.bound_rename hbound
  · rcases current_step hst hf with hf | ⟨hpc, rfl, -, hhead⟩
    · exact h.current f hf
    · exact (hexp.take hpc f hhead).1
  · exact rest_of_over (fun hc ↦ h.finished (Or.inl hc)) hst hgen hover
  · rcases started_step hst hstarted with hstarted | ⟨hpc, rfl, hop, hdel⟩
    · have hren : ∀ f ∈ s.pc.renaming, E.abs f.path ∈ E.names s.sm.files := by
        intro f hf
        exact List.mem_map_of_mem (hwithin f (List.mem_append_left _ (current_of_renaming hf)))
      rw [sm_step hst]
      rcases left_step hi hst hclean (h.left hstarted) (fun _ ↦ hren) hn with ⟨hold, htodo⟩ | hrest
      · obtain ⟨p, hp, rfl⟩ := List.mem_map.mp htodo
        rcases todo_step hst hp with hp | ⟨ok, rfl, hop⟩
        · exact Or.inl (List.mem_map_of_mem hp)
        · refine absurd hn (not_left_of_remove hop (fun hok ↦ ?_) hold)
          subst hok
          exact hexp.remove p rfl
      · exact Or.inr hrest
    · -- The state file has been read.
      have hold : R.Left E n := by
        rcases left_of_perform hst hn with hold | ⟨f, hpc', -, -⟩ | ⟨f, t, hpc', -, -⟩
        · exact hold
        · exact absurd (hpc.symm.trans hpc') (by simp)
        · exact absurd (hpc.symm.trans hpc') (by simp)
      rw [sm_step hst, hdel]
      rcases hexp.start hpc n hold.1 hold.2.1 hold.2.2 with hprev | hlisted | htemp
      · exact (mem_names_of_prev E hprev).imp_right Or.inl
      · exact Or.inr (Or.inl hlisted)
      · exact Or.inr (Or.inr (temps_perform hi hst hclean htemp hold hn))
  · obtain ⟨hpc, rfl⟩ := announce_of_done hst hgen hdone hok
    rcases List.mem_or_eq_of_mem_set ht with ht | rfl
    · exact hexp.announce hpc t ht
    · rw [hdone]
      rfl

include hi hst in
/-- An older goroutine takes a step. -/
theorem Kept.other {c : Sync} (h : Kept E R c) (hgen : s.gen ≠ R.mirror.gen)
    (hclean : CleansUp E R.mirror.disk s e)
    (hkeep : ∀ op ∈ st.op, ∀ f ∈ c.settled, E.abs f.path ∉ op.unbinds)
    (hren : c.pc.started = true → st.op ≠ none →
      ∀ f ∈ s.pc.renaming, E.abs f.path ∈ E.names c.sm.files) :
    Kept E (R.perform E i st) c := by
  refine ⟨fun f hf ↦ ?_, h.current, h.finished, fun hstarted n hn ↦ ?_, fun hdone hok t ht ↦ ?_⟩
  · exact left_perform (h.settled f hf) fun op ho ↦ hkeep op ho f hf
  · exact (left_step hi hst hclean (h.left hstarted) (hren hstarted) hn).imp_left And.right
  · rcases List.mem_or_eq_of_mem_set ht with ht | rfl
    · exact h.quiet hdone hok t ht
    · -- An older goroutine does not start on another file.
      refine Bool.eq_false_iff.mpr fun hin ↦ ?_
      rcases inFile_step hst hin with hin | ⟨-, hcur⟩
      · rw [h.quiet hdone hok s (List.mem_of_getElem? hi)] at hin
        cases hin
      · exact hgen hcur

include hi hst in
theorem Inv.perform (h : Inv E R) (hexp : s.gen = R.mirror.gen → Expected E R s e)
    (hclean : CleansUp E R.mirror.disk s e) (hpol : ∀ op ∈ st.op, Polite E R.mirror s op) :
    Inv E (R.perform E i st) := by
  have hs := List.mem_of_getElem? hi
  have hmap : (R.perform E i st).mirror.syncs.map Sync.gen = R.mirror.syncs.map Sync.gen :=
    map_perform _ hi (gen_step hst)
  refine ⟨hmap ▸ h.gens, fun t ht ↦ ?_, fun t ht ↦ ?_, fun t ht f hf ↦ ?_, fun c hc hcur ↦ ?_⟩
  · rcases List.mem_or_eq_of_mem_set ht with ht | rfl
    · exact h.le_gen t ht
    · rw [gen_step hst]
      exact h.le_gen s hs
  · rcases List.mem_or_eq_of_mem_set ht with ht | rfl
    · exact h.tidy t ht
    · exact (h.tidy s hs).step hst
  · rcases List.mem_or_eq_of_mem_set ht with ht | rfl
    · exact h.within t ht f hf
    · rw [sm_step hst]
      refine h.within s hs f (List.mem_append.mpr ?_)
      rcases List.mem_append.mp hf with hf | hf
      · rcases current_step hst hf with hf | ⟨-, -, -, hhead⟩
        · exact Or.inl hf
        · exact Or.inr (List.mem_of_mem_head? hhead)
      · exact Or.inr (rest_step hst hf)
  · obtain ⟨j, hj⟩ := List.mem_iff_getElem?.mp hc
    have hj : (R.mirror.syncs.set i st.sync)[j]? = some c := hj
    have hcur : c.gen = R.mirror.gen := hcur
    rcases eq_or_ne i j with rfl | hne
    · rw [List.getElem?_set_self (List.getElem?_eq_some_iff.mp hi).1, Option.some_inj] at hj
      subst hj
      rw [gen_step hst] at hcur
      exact (h.kept s hs hcur).own hi hst hcur (h.within s hs) (hexp hcur) hclean
        fun op ho ↦ (hpol op ho s hs hcur).1
    · rw [List.getElem?_set_ne hne] at hj
      have hold : s.gen ≠ R.mirror.gen := by
        intro hgen
        have hnodup : (R.mirror.syncs.map Sync.gen).Nodup := h.gens.imp fun hlt ↦ hlt.ne
        refine hne ((List.getElem?_inj ?_ hnodup).mp ?_)
        · rw [List.length_map]
          exact (List.getElem?_eq_some_iff.mp hi).1
        · rw [List.getElem?_map, List.getElem?_map, hi, hj, Option.map_some, Option.map_some, hgen,
            hcur]
      have hcmem := List.mem_of_getElem? hj
      refine (h.kept c hcmem hcur).other hi hst hold hclean
        (fun op ho ↦ (hpol op ho c hcmem hcur).1) fun hstarted hop ↦ ?_
      obtain ⟨op, ho⟩ := Option.ne_none_iff_exists'.mp hop
      exact (hpol op ho c hcmem hcur).2 hold hstarted

end Perform

/-! ## Every run -/

/-- There is nothing to keep before the first manifest. -/
theorem inv_of_nil (h : R.mirror.syncs = []) : Inv E R :=
  ⟨by simp [h], by simp [h], by simp [h], by simp [h], by simp [h]⟩

theorem Inv.accept (h : Inv E R) (raw : Bytes) (sm : SignedContentManifest) :
    Inv E ⟨R.mirror.accept raw sm, R.made⟩ := by
  have hmem : ∀ {s}, s ∈ (R.mirror.accept raw sm).syncs → s ∈ R.mirror.syncs ∨
      s = ⟨raw, sm, R.mirror.gen + 1, [], sm.files, [], true, .accepted⟩ :=
    fun hs ↦ (List.mem_append.mp hs).imp_right List.mem_singleton.mp
  refine ⟨?_, fun s hs ↦ ?_, fun s hs ↦ ?_, fun s hs ↦ ?_, fun c hc hcur ↦ ?_⟩
  · rw [MirrorManager.accept, List.map_append]
    refine List.pairwise_append.mpr ⟨h.gens, List.pairwise_singleton .., fun g hold g' hnew ↦ ?_⟩
    obtain ⟨s, hs, rfl⟩ := List.mem_map.mp hold
    rw [List.mem_singleton.mp hnew]
    exact Nat.lt_succ_of_le (h.le_gen s hs)
  · rcases hmem hs with hs | rfl
    · exact (h.le_gen s hs).trans (Nat.le_succ _)
    · exact le_rfl
  · rcases hmem hs with hs | rfl
    · exact h.tidy s hs
    · exact fun _ ↦ rfl
  · rcases hmem hs with hs | rfl
    · exact h.within s hs
    · exact fun f hf ↦ hf
  · rcases hmem hc with hc | rfl
    · have hle := h.le_gen c hc
      have hcur : c.gen = R.mirror.gen + 1 := hcur
      omega
    · exact ⟨by simp, by simp [Pc.current], by simp [Pc.committed], by simp [Pc.started], by simp⟩

theorem Inv.step (h : Inv E R) {e : Event} (ho : Orderly E R e) (hs : R.step E e = some R') :
    Inv E R' := by
  obtain ⟨m, hm, hR⟩ := Option.map_eq_some_iff.mp hs
  cases e with
  | manifest raw =>
    cases hm
    rw [← hR]
    show Inv E ⟨_, R.made ++ []⟩
    rw [List.append_nil]
    rcases R.mirror.onContentManifest_cases E raw with heq | ⟨sm, -, -, heq⟩ <;> rw [heq]
    · exact h
    · exact h.accept raw sm
  | sync i e =>
    obtain ⟨s, st, hi, hst, hop, rfl⟩ := step_sync hs
    obtain ⟨hexp, hclean, hpol⟩ := ho s hi
    exact h.perform hi hst hexp hclean (hop ▸ hpol)
  | restart =>
    cases hm
    rw [← hR]
    exact inv_of_nil rfl

/-- **No orphans**: from any disk, in every run all of whose steps are orderly, no file is left
behind. -/
theorem noOrphans_of_exec {E : Env} {d : Disk FileName} {es : List Event} {R : Record}
    (hrun : exec (step E) (start E d) es = some R)
    (horderly : Along (step E) (Orderly E) (start E d) es) : NoOrphans E R :=
  (inv_of_exec_along (fun h ho hs ↦ Inv.step h ho hs) (inv_of_nil rfl) horderly hrun).noOrphans

/-! ## Two runs -/

/-- An environment in which the first manifest lists one file and the second one another. -/
def movedEnv : Env :=
  { demoEnv with
    unmarshal := fun raw ↦
      match raw with
      | [ts] =>
        .ok ⟨"content", ts.toNat, [⟨if ts = 7 then "a" else "b", 1, 16, [Bytes.hexEncode [ts]]⟩],
          "sig"⟩
      | _ => .error "unexpected end of JSON input" }

/-- The steps of a goroutine up to the loop, with the removals in between. -/
def readSteps (i : ℕ) (removals : List SyncEvent) : List Event :=
  ([.next, .next, .next] ++ removals ++ [.next] : List SyncEvent).map (.sync i)

/-- Its steps for the only file. -/
def fileSteps (i : ℕ) (ts : UInt8) : List Event :=
  ([.next, .sys true, .sys true, .next, .fetched [none] (some [ts]), .wrote 1, .next, .sys true,
    .sys true, .sys true] : List SyncEvent).map (.sync i)

/-- Its steps after the loop. -/
def lastSteps (i : ℕ) : List Event :=
  ([.next, .sys true, .wrote 1, .next, .next] : List SyncEvent).map (.sync i)

/-- What is to be seen of a goroutine. -/
structure Summary where
  /-- Its manifest is the newest one, it is over and it has not failed. -/
  finished : Bool
  /-- The files of its manifest. -/
  files : List ContentFile
  /-- What the mirror has made that is left. -/
  left : List FileName
deriving DecidableEq

/-- The second goroutine after a run. -/
def summary (es : List Event) : Option Summary :=
  (exec (step movedEnv) (start movedEnv .empty) es).bind fun R ↦ R.mirror.syncs[1]?.map fun s ↦
    ⟨s.gen = R.mirror.gen ∧ s.pc = .done ∧ s.ok = true, s.sm.files,
      R.made.filter fun n ↦ R.mirror.disk.names n ≠ none ∧ Confined movedEnv n⟩

theorem summary_eq_some {es : List Event} {files : List ContentFile} {left : List FileName}
    (h : summary es = some ⟨true, files, left⟩) :
    ∃ R s, exec (step movedEnv) (start movedEnv .empty) es = some R ∧ s ∈ R.mirror.syncs ∧
      s.gen = R.mirror.gen ∧ s.pc = .done ∧ s.ok = true ∧ s.sm.files = files ∧
      ∀ n, R.Left movedEnv n ↔ n ∈ left := by
  obtain ⟨R, hR, h⟩ := Option.bind_eq_some_iff.mp h
  obtain ⟨s, hs, h⟩ := Option.map_eq_some_iff.mp h
  obtain ⟨hfin, hfiles, hleft⟩ := Summary.mk.inj h
  obtain ⟨hgen, hdone, hok⟩ := of_decide_eq_true hfin
  refine ⟨R, s, hR, List.mem_of_getElem? hs, hgen, hdone, hok, hfiles, fun n ↦ ?_⟩
  rw [← hleft, List.mem_filter, decide_eq_true_eq]
  rfl

/-- The second manifest comes when everything has been done for the first. -/
def calmRun : List Event :=
  .manifest [7] :: (readSteps 0 [] ++ fileSteps 0 7 ++ lastSteps 0) ++
    .manifest [8] :: (readSteps 1 [.remove "a" true] ++ fileSteps 1 8 ++ lastSteps 1)

theorem noOrphans_of_exec_demo :
    ∃ R s, exec (step movedEnv) (start movedEnv .empty) calmRun = some R ∧ s ∈ R.mirror.syncs ∧
      s.gen = R.mirror.gen ∧ s.pc = .done ∧ s.ok = true ∧ movedEnv.abs "a" ∈ R.made ∧
      ∀ n, R.Left movedEnv n ↔ n ∈ movedEnv.names s.sm.files := by
  have hrun : summary calmRun = some ⟨true, [⟨"b", 1, 16, ["08"]⟩], [movedEnv.abs "b"]⟩ := by
    decide +kernel
  have hmade : (exec (step movedEnv) (start movedEnv .empty) calmRun).map
      (fun R ↦ decide (movedEnv.abs "a" ∈ R.made)) = some true := by decide +kernel
  obtain ⟨R, s, hR, hs, hgen, hdone, hok, -, -⟩ := summary_eq_some hrun
  rw [hR, Option.map_some, Option.some_inj, decide_eq_true_eq] at hmade
  have horphans : NoOrphans movedEnv R := noOrphans_of_exec hR (by decide +kernel)
  exact ⟨R, s, hR, hs, hgen, hdone, hok, hmade, horphans s hs hgen hdone hok⟩

/-- It comes when the file of the first has just been put into place. -/
def hastyRun : List Event :=
  .manifest [7] :: (readSteps 0 [] ++ fileSteps 0 7) ++
    .manifest [8] :: .sync 0 .next :: (readSteps 1 [] ++ fileSteps 1 8 ++ lastSteps 1)

/-- **A file is left behind**: it is not listed in the state file, which was never written. -/
theorem left_behind :
    ∃ R s, exec (step movedEnv) (start movedEnv .empty) hastyRun = some R ∧ s ∈ R.mirror.syncs ∧
      s.gen = R.mirror.gen ∧ s.pc = .done ∧ s.ok = true ∧ R.Left movedEnv (movedEnv.abs "a") ∧
      movedEnv.abs "a" ∉ movedEnv.names s.sm.files ∧ ¬NoOrphans movedEnv R := by
  have hrun : summary hastyRun =
      some ⟨true, [⟨"b", 1, 16, ["08"]⟩], [movedEnv.abs "a", movedEnv.abs "b"]⟩ := by
    decide +kernel
  obtain ⟨R, s, hR, hs, hgen, hdone, hok, hfiles, hleft⟩ := summary_eq_some hrun
  have ha : R.Left movedEnv (movedEnv.abs "a") := (hleft _).mpr (List.mem_cons_self ..)
  have hnot : movedEnv.abs "a" ∉ movedEnv.names s.sm.files := by
    rw [hfiles]
    decide +kernel
  exact ⟨R, s, hR, hs, hgen, hdone, hok, ha, hnot,
    fun h ↦ hnot ((h s hs hgen hdone hok _).mp ha)⟩

end Record

end TunnelCat.Mirror
