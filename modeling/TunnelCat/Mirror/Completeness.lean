import Mathlib.Data.List.Forall2
import TunnelCat.Mirror.Manager

/-!
# When the mirror says it is complete

`setCompleteFn(ts, true)` tells the other nodes that this one has every file of the manifest `ts`.
This file is about whether that is so at the moment of the call, in every interleaving of the
goroutines.

It need not be.  A file is skipped when the manifest in the state file has it with the same chunks,
and the state file says what was *wanted* when it was written, not what is there: it is written
after failures, and it is not written by a goroutine that gave up after it had changed something.
Goroutines of different generations share the names of the temporary files and the check of the
generation is made some time before what it protects.  And a manifest can list a name outside the
directory, or the name of its own state file, or of a temporary file.

`Calm` says of a step that none of this happens in it.  Its conditions are about the goroutines that
may still announce (`Live`):

* no system call touches a file that such a goroutine has settled, or the temporary file it is
  writing, except when a goroutine puts the same content into place again;
* such a goroutine finds its own temporary file under the temporary name when it renames it;
* when it skips a file, the file is there;
* the files it deals with are in the directory.

If every step is calm, every announcement is true.
-/

set_option autoImplicit false

open Trace

namespace TunnelCat.Mirror

/-- Pieces of content with these hashes. -/
def Matches (E : Env) : List Bytes → List String → Prop :=
  List.Forall₂ fun data hash ↦ E.chunkHashMatches data hash = true

/-- A listed file is there, in the directory and with the right content. -/
structure Holds (E : Env) (d : Disk FileName) (f : ContentFile) : Prop where
  /-- It is in the directory. -/
  inside : E.dataDir.Inside (E.abs f.path)
  /-- Its content is made up of chunks with the listed hashes. -/
  content : ∃ chunks, d.read (E.abs f.path) = some chunks.flatten ∧ Matches E chunks f.chunkHashes

/-- All files of a manifest are there. -/
def Complete (E : Env) (d : Disk FileName) (sm : SignedContentManifest) : Prop :=
  ∀ f ∈ sm.files, Holds E d f

/-- Whether content can be cut into pieces with these hashes. -/
def cuts (E : Env) : Bytes → List String → Bool
  | bs, [] => bs = []
  | bs, hash :: hashes =>
    (List.range (bs.length + 1)).any fun n ↦
      E.chunkHashMatches (bs.take n) hash && cuts E (bs.drop n) hashes

theorem cuts_iff {E : Env} {bs : Bytes} {hashes : List String} :
    cuts E bs hashes = true ↔ ∃ chunks, bs = chunks.flatten ∧ Matches E chunks hashes := by
  induction hashes generalizing bs with
  | nil =>
    rw [cuts, decide_eq_true_eq]
    refine ⟨fun h ↦ ⟨[], h, List.Forall₂.nil⟩, ?_⟩
    rintro ⟨chunks, rfl, hm⟩
    cases hm
    rfl
  | cons hash hashes ih =>
    simp only [cuts, List.any_eq_true, Bool.and_eq_true, ih]
    refine ⟨?_, ?_⟩
    · rintro ⟨n, -, hhash, chunks, hrest, hm⟩
      refine ⟨bs.take n :: chunks, ?_, List.Forall₂.cons hhash hm⟩
      rw [List.flatten_cons, ← hrest, List.take_append_drop]
    · rintro ⟨chunks, rfl, hm⟩
      cases hm with
      | cons hhash hm =>
        rename_i data chunks
        have hlt : data.length < (data :: chunks).flatten.length + 1 := by
          rw [List.flatten_cons, List.length_append]
          omega
        refine ⟨data.length, List.mem_range.mpr hlt, ?_, chunks, ?_, hm⟩
        · simpa using hhash
        · simp

instance (E : Env) (d : Disk FileName) (f : ContentFile) : Decidable (Holds E d f) :=
  decidable_of_iff (E.dataDir.Inside (E.abs f.path) ∧
      ∃ bs ∈ d.read (E.abs f.path), cuts E bs f.chunkHashes = true) <| by
    refine ⟨?_, ?_⟩
    · rintro ⟨hin, bs, hbs, hcuts⟩
      obtain ⟨chunks, rfl, hm⟩ := cuts_iff.mp hcuts
      exact ⟨hin, chunks, hbs, hm⟩
    · rintro ⟨hin, chunks, hread, hm⟩
      exact ⟨hin, _, hread, cuts_iff.mpr ⟨chunks, rfl, hm⟩⟩

/-! ## Goroutines that may still announce -/

/-- The last check of the generation is behind. -/
def Pc.committed : Pc → Bool
  | .persist | .persistWrite _ | .index | .announce => true
  | _ => false

/-- The goroutine has decided to announce. -/
def Pc.final : Pc → Bool
  | .index | .announce => true
  | _ => false

/-- The goroutine is not over, and not about to record a failure. -/
def Pc.hopeful : Pc → Bool
  | .cleanup _ false | .done => false
  | _ => true

/-- The file that is being fetched. -/
def Pc.current : Pc → List ContentFile
  | .mkdir f | .create f | .chunk f _ | .fetch f _ _ | .write f _ _ | .close f _ | .rename f _
  | .cleanup f false => [f]
  | _ => []

/-- The temporary file that is being written. -/
def Pc.temp : Pc → Option Temp
  | .chunk _ t | .fetch _ t _ | .write _ t _ | .close _ t | .rename _ t => some t
  | _ => none

/-- A goroutine that may still announce, for the current generation `gen`. -/
def Live (gen : ℕ) (s : Sync) : Prop :=
  s.ok = true ∧ s.pc.hopeful = true ∧ (s.pc.committed = true ∨ s.gen = gen)

instance (gen : ℕ) (s : Sync) : Decidable (Live gen s) := inferInstanceAs (Decidable (_ ∧ _))

/-! ## Calm steps -/

/-- The goroutine is about to put a file into place whose name and chunks are those of `f`. -/
def replaces (E : Env) (pc : Pc) (f : ContentFile) : Bool :=
  match pc with
  | .rename g _ => E.abs g.path = E.abs f.path ∧ g.chunkHashes = f.chunkHashes
  | _ => false

/-- A system call of the goroutine at `i` touches nothing that matters to a live goroutine. -/
def Harmless (E : Env) (m : MirrorManager) (i : ℕ) (op : Disk.Op FileName) : Prop :=
  ∀ p ∈ m.syncs.zipIdx, Live m.gen p.1 →
    (∀ f ∈ p.1.settled,
      op.Spares m.disk (E.abs f.path) ∨ p.2 = i ∧ replaces E p.1.pc f = true) ∧
    (p.2 ≠ i → ∀ t ∈ p.1.pc.temp, t.fd ∉ op.inodes m.disk)

/-- What a live goroutine assumes about the disk when it takes a step is so. -/
def Justified (E : Env) (gen : ℕ) (d : Disk FileName) (s : Sync) (e : SyncEvent) : Prop :=
  match s.pc, e with
  | .loop, .next =>
    s.gen = gen → ∀ f ∈ s.rest.head?,
      E.dataDir.Inside (E.abs f.path) ∧ (unchanged s.prev f = true → Holds E d f)
  | .rename f t, .sys true => ∀ i ∈ d.names (E.tmp f.path), i = t.fd
  | _, _ => True

instance (E : Env) (m : MirrorManager) (i : ℕ) (op : Disk.Op FileName) :
    Decidable (Harmless E m i op) :=
  inferInstanceAs (Decidable (∀ p ∈ m.syncs.zipIdx, _ → _ ∧ _))

instance (E : Env) (gen : ℕ) (d : Disk FileName) (s : Sync) (e : SyncEvent) :
    Decidable (Justified E gen d s e) := by
  unfold Justified
  split <;> infer_instance

/-- The system call of a step. -/
def opOf (E : Env) (m : MirrorManager) (i : ℕ) (e : SyncEvent) : Option (Disk.Op FileName) :=
  m.syncs[i]?.bind fun s ↦ (s.step E m.gen m.disk e).bind Step.op

variable {st : Step} {e : SyncEvent}

theorem opOf_eq {E : Env} {m : MirrorManager} {i : ℕ} {s : Sync} (hi : m.syncs[i]? = some s)
    (hst : s.step E m.gen m.disk e = some st) :
    opOf E m i e = st.op := by
  rw [opOf, hi, Option.bind_some, hst, Option.bind_some]

/-- **A calm step.** -/
def Calm (E : Env) (m : MirrorManager) : Event → Prop
  | .sync i e =>
    (∀ op ∈ opOf E m i e, Harmless E m i op) ∧
      ∀ s ∈ m.syncs[i]?, Live m.gen s → Justified E m.gen m.disk s e
  | _ => True

instance (E : Env) (m : MirrorManager) (e : Event) : Decidable (Calm E m e) := by
  cases e <;> unfold Calm <;> infer_instance

/-! ## What a goroutine has done so far -/

/-- The temporary file has the first chunks of the file in it. -/
structure Written (E : Env) (d : Disk FileName) (f : ContentFile) (t : Temp) : Prop where
  /-- It has been made. -/
  lt_next : t.fd < d.next
  /-- The offset is at its end. -/
  length : (d.data t.fd).length = t.off
  /-- Its content. -/
  content : ∃ chunks, d.data t.fd = chunks.flatten ∧
    Matches E chunks (f.chunkHashes.take t.chunks)

/-- What is known at each point. -/
def PcInv (E : Env) (d : Disk FileName) : Pc → Prop
  | .chunk f t => Written E d f t
  | .fetch f t hash => Written E d f t ∧ f.chunkHashes[t.chunks]? = some hash
  | .write f t data =>
    Written E d f t ∧ ∃ hash, f.chunkHashes[t.chunks]? = some hash ∧
      E.chunkHashMatches data hash = true
  | .close f t | .rename f t => Written E d f t ∧ f.chunkHashes.length ≤ t.chunks
  | _ => True

/-- **The invariant** of a live goroutine. -/
structure SyncInv (E : Env) (d : Disk FileName) (s : Sync) : Prop where
  /-- Every file has been settled, is being fetched or is still to come. -/
  files : s.settled ++ (s.pc.current ++ s.rest) = s.sm.files
  /-- After the loop none is to come. -/
  committed : s.pc.committed = true → s.rest = []
  /-- The files that are settled are there. -/
  settled : ∀ f ∈ s.settled, Holds E d f
  /-- The file that is being fetched is in the directory. -/
  current : ∀ f ∈ s.pc.current, E.dataDir.Inside (E.abs f.path)
  /-- What is known about the temporary file. -/
  pc : PcInv E d s.pc

variable {E : Env} {d : Disk FileName} {op : Disk.Op FileName} {f : ContentFile} {t : Temp}
  {s : Sync} {gen : ℕ}

/-- A goroutine that is about to announce is right. -/
theorem SyncInv.complete (h : SyncInv E d s) (hpc : s.pc = .announce) : Complete E d s.sm := by
  have hfiles := h.files
  rw [h.committed (by rw [hpc]; rfl), hpc] at hfiles
  intro f hf
  rw [← hfiles] at hf
  exact h.settled f (by simpa [Pc.current] using hf)

/-! ## What others do -/

theorem Holds.apply (h : Holds E d f) (hop : op.Spares d (E.abs f.path)) :
    Holds E (d.apply op) f := by
  obtain ⟨chunks, hread, hm⟩ := h.content
  exact ⟨h.inside, chunks, (Disk.read_apply hop).trans hread, hm⟩

theorem Written.apply (h : Written E d f t) (hop : t.fd ∉ op.inodes d) :
    Written E (d.apply op) f t := by
  have hdata : (d.apply op).data t.fd = d.data t.fd := Disk.data_apply h.lt_next hop
  exact ⟨h.lt_next.trans_le (Disk.next_le_apply d op), by rw [hdata]; exact h.length,
    by rw [hdata]; exact h.content⟩

theorem PcInv.apply {pc : Pc} (h : PcInv E d pc) (hop : ∀ t ∈ pc.temp, t.fd ∉ op.inodes d) :
    PcInv E (d.apply op) pc := by
  cases pc with
  | chunk f t => exact Written.apply h (hop t rfl)
  | fetch f t hash => exact ⟨h.1.apply (hop t rfl), h.2⟩
  | write f t data => exact ⟨h.1.apply (hop t rfl), h.2⟩
  | close f t => exact ⟨h.1.apply (hop t rfl), h.2⟩
  | rename f t => exact ⟨h.1.apply (hop t rfl), h.2⟩
  | _ => trivial

/-- A call that touches neither the settled files nor the temporary file keeps the invariant. -/
theorem SyncInv.apply (h : SyncInv E d s) (hset : ∀ f ∈ s.settled, op.Spares d (E.abs f.path))
    (htmp : ∀ t ∈ s.pc.temp, t.fd ∉ op.inodes d) : SyncInv E (d.apply op) s :=
  ⟨h.files, h.committed, fun f hf ↦ (h.settled f hf).apply (hset f hf), h.current,
    h.pc.apply htmp⟩

/-! ## What a goroutine does itself -/

/-- A goroutine that may announce after a step could before. -/
theorem Live.of_step (hst : s.step E gen d e = some st) (h : Live gen st.sync) : Live gen s := by
  cases Sync.moves_of_step hst with
  | through hpc hgen | skip hpc hgen | take hpc hgen =>
    exact ⟨h.1, by rw [hpc]; rfl, Or.inr hgen⟩
  | @cleanup f synced => cases synced <;> simp_all [Live, Sync.failed, Pc.hopeful, Pc.committed]
  -- Everywhere else neither the generation nor what the check of it decides changes.
  | _ => simp_all [Live, Sync.goto, Sync.failed, Sync.afterPersist, Pc.hopeful, Pc.committed]

/-- What `fetchChunk` returns has the hash. -/
theorem fetchChunk_matches {peers : List (Option Bytes)} {relay : Option Bytes} {hash : String}
    {data : Bytes} (h : E.fetchChunk peers relay hash = some data) :
    E.chunkHashMatches data hash = true := by
  rw [Env.fetchChunk] at h
  split at h
  · rename_i a ha
    have hmatch := List.find?_some ha
    rw [h] at hmatch
    simpa using hmatch
  · simpa using (Option.filter_eq_some_iff.mp h).2

/-- A goroutine moves on, with a system call that spares what it has settled or without one. -/
theorem SyncInv.move (h : SyncInv E d s) (prev : List ContentFile)
    {op : Option (Disk.Op FileName)} {pc : Pc} (hcur : pc.current = s.pc.current)
    (hcom : pc.committed = true → s.pc.committed = true)
    (hset : ∀ o ∈ op, ∀ f ∈ s.settled, o.Spares d (E.abs f.path))
    (hpc : PcInv E (op.elim d d.apply) pc) :
    SyncInv E (op.elim d d.apply) { s with prev := prev, pc := pc } := by
  refine ⟨by rw [hcur]; exact h.files, fun hc ↦ h.committed (hcom hc), fun f hf ↦ ?_,
    by rw [hcur]; exact h.current, hpc⟩
  cases op with
  | none => exact h.settled f hf
  | some o => exact (h.settled f hf).apply (hset o rfl f hf)

/-- A file that is there is settled. -/
theorem SyncInv.settle (h : SyncInv E d s) {d' : Disk FileName} {rest : List ContentFile} (pc : Pc)
    (hrest : f :: rest = s.pc.current ++ s.rest) (hcur : pc.current = [])
    (hcom : pc.committed = false) (hset : ∀ g ∈ s.settled, Holds E d' g) (hf : Holds E d' f)
    (hpc : PcInv E d' pc) :
    SyncInv E d' { s with rest := rest, settled := s.settled ++ [f], pc := pc } := by
  refine ⟨?_, fun hc ↦ absurd hc (by simp [hcom]), fun g hg ↦ ?_, by simp [hcur], hpc⟩
  · rw [← h.files, ← hrest, hcur]
    simp
  · rcases List.mem_append.mp hg with hg | hg
    · exact hset g hg
    · rw [List.mem_singleton.mp hg]
      exact hf

/-- An empty temporary file. -/
theorem Written.openTrunc (E : Env) (d : Disk FileName) (f : ContentFile) (n : FileName) :
    Written E (d.apply (.openTrunc n)) f ⟨d.fd n, 0, 0⟩ := by
  refine ⟨Disk.fd_lt_next d n, ?_, [], ?_, ?_⟩
  · rw [Disk.data_openTrunc]
    rfl
  · rw [Disk.data_openTrunc]
    rfl
  · rw [List.take_zero]
    exact List.Forall₂.nil

/-- One more chunk. -/
theorem Written.write (h : Written E d f t) {hash : String} {data : Bytes}
    (hhash : f.chunkHashes[t.chunks]? = some hash) (hm : E.chunkHashMatches data hash = true) :
    Written E (d.apply (.write t.fd t.off data)) f
      ⟨t.fd, t.off + data.length, t.chunks + 1⟩ := by
  obtain ⟨chunks, hdata, hmatch⟩ := h.content
  have hnew : (d.apply (.write t.fd t.off data)).data t.fd = d.data t.fd ++ data := by
    rw [← h.length]
    exact Disk.data_write_end d t.fd data
  refine ⟨h.lt_next.trans_le (Disk.next_le_apply d _), ?_, chunks ++ [data], ?_, ?_⟩
  · rw [hnew, List.length_append, h.length]
  · rw [hnew, hdata]
    simp
  · rw [List.take_add_one, hhash]
    exact List.rel_append hmatch (List.Forall₂.cons hm List.Forall₂.nil)

/-- A complete temporary file, renamed into place. -/
theorem Written.rename (h : Written E d f t) (hall : f.chunkHashes.length ≤ t.chunks)
    {a : FileName} (ha : d.names a = some t.fd) (hin : E.dataDir.Inside (E.abs f.path)) :
    Holds E (d.apply (.rename a (E.abs f.path))) f := by
  obtain ⟨chunks, hdata, hmatch⟩ := h.content
  rw [List.take_of_length_le hall] at hmatch
  exact ⟨hin, chunks, by rw [Disk.read_rename ha, hdata], hmatch⟩

/-- A file with the same name and the same chunks is there, too. -/
theorem Holds.congr {g : ContentFile} (h : Holds E d g) (hr : E.abs g.path = E.abs f.path)
    (hc : g.chunkHashes = f.chunkHashes) : Holds E d f :=
  ⟨hr ▸ h.inside, by rw [← hr, ← hc]; exact h.content⟩

theorem replaces_eq_true {pc : Pc} (h : replaces E pc f = true) :
    ∃ g t, pc = .rename g t ∧ E.abs g.path = E.abs f.path ∧ g.chunkHashes = f.chunkHashes := by
  unfold replaces at h
  split at h
  · rename_i g t
    exact ⟨g, t, rfl, by simpa using h⟩
  · exact absurd h (by simp)

/-- The top of the loop: a file that is skipped is there, and one that is not is in the
directory. -/
theorem SyncInv.loop (h : SyncInv E d s) (hpc : s.pc = .loop) (hgen : s.gen = gen)
    (hj : Justified E gen d s .next) (hst : s.step E gen d .next = some st) :
    SyncInv E (st.op.elim d d.apply) st.sync := by
  subst hgen
  simp only [Justified, hpc] at hj
  rw [Sync.step.eq_def, hpc] at hst
  dsimp only at hst
  rw [if_neg (not_not.mpr rfl)] at hst
  split at hst
  · rename_i hrest
    cases hst
    exact ⟨by simpa [Sync.goto, hpc, Pc.current] using h.files, fun _ ↦ hrest, h.settled,
      by simp [Sync.goto, Pc.current], trivial⟩
  · rename_i f rest hrest
    obtain ⟨hin, hskip⟩ := hj trivial f (by simp [hrest])
    split at hst <;> cases hst
    · rename_i hun
      exact h.settle .loop (by rw [hpc, hrest]; rfl) rfl rfl h.settled (hskip hun) trivial
    · refine ⟨?_, by simp [Pc.committed], h.settled, by simpa [Pc.current] using hin, trivial⟩
      simpa [hpc, hrest, Pc.current] using h.files

/-- A rename puts the file into place. -/
theorem SyncInv.rename (h : SyncInv E d s) (hpc : s.pc = .rename f t) (hset : ∀ g ∈ s.settled,
      (Disk.Op.rename (E.tmp f.path) (E.abs f.path)).Spares d (E.abs g.path) ∨
        replaces E s.pc g = true) (hnames : d.names (E.tmp f.path) = some t.fd) :
    SyncInv E (d.apply (.rename (E.tmp f.path) (E.abs f.path)))
      { s with settled := s.settled ++ [f], pc := .cleanup f true } := by
  have hp := h.pc
  rw [hpc] at hp
  have hf : Holds E (d.apply (.rename (E.tmp f.path) (E.abs f.path))) f :=
    hp.1.rename hp.2 hnames (h.current f (by rw [hpc]; exact List.mem_singleton_self f))
  refine h.settle (.cleanup f true) (by rw [hpc]; rfl) rfl rfl (fun g hg ↦ ?_) hf trivial
  rcases hset g hg with hsp | hr
  · exact (h.settled g hg).apply hsp
  · obtain ⟨f', t', he, habs, hhash⟩ := replaces_eq_true hr
    rw [hpc] at he
    cases he
    exact hf.congr habs hhash

/-- **A calm step keeps the invariant** of the goroutine that takes it. -/
theorem SyncInv.step (h : SyncInv E d s) (hst : s.step E gen d e = some st)
    (hlive : Live gen st.sync)
    (hset : ∀ op ∈ st.op, ∀ f ∈ s.settled, op.Spares d (E.abs f.path) ∨ replaces E s.pc f = true)
    (hj : Justified E gen d s e) : SyncInv E (st.op.elim d d.apply) st.sync := by
  obtain ⟨hok, hhope, -⟩ := hlive
  -- Outside of a rename, what the goroutine does spares the files it has settled.
  have hspare : (∀ f t, s.pc ≠ .rename f t) → ∀ op ∈ st.op, ∀ f ∈ s.settled,
      op.Spares d (E.abs f.path) := by
    intro hpc op hop f hf
    refine (hset op hop f hf).resolve_right fun hr ↦ ?_
    obtain ⟨g, t, hg, _⟩ := replaces_eq_true hr
    exact hpc g t hg
  have hp := h.pc
  cases Sync.moves_of_step hst with
  | accepted hpc | gossiped hpc | start hpc | delete hpc | deleted hpc | mkdir hpc =>
    exact h.move _ (by rw [hpc]; rfl) (by simp [Pc.committed]) (hspare (by simp [hpc])) trivial
  | through hpc hgen | skip hpc hgen | take hpc hgen => exact h.loop hpc hgen hj hst
  | create hpc =>
    exact h.move _ (by rw [hpc]; rfl) (by simp [Pc.committed]) (hspare (by simp [hpc]))
      (Written.openTrunc E d _ _)
  | last hpc hend =>
    rw [hpc] at hp
    exact h.move _ (by rw [hpc]; rfl) (by simp [Pc.committed]) (hspare (by simp [hpc]))
      ⟨hp, List.getElem?_eq_none_iff.mp hend⟩
  | chunk hpc hhash =>
    rw [hpc] at hp
    exact h.move _ (by rw [hpc]; rfl) (by simp [Pc.committed]) (hspare (by simp [hpc])) ⟨hp, hhash⟩
  | fetch hpc hdata =>
    rw [hpc] at hp
    exact h.move _ (by rw [hpc]; rfl) (by simp [Pc.committed]) (hspare (by simp [hpc]))
      ⟨hp.1, _, hp.2, fetchChunk_matches hdata⟩
  | write hpc =>
    rw [hpc] at hp
    obtain ⟨hwr, hash, hhash, hm⟩ := hp
    exact h.move _ (by rw [hpc]; rfl) (by simp [Pc.committed]) (hspare (by simp [hpc]))
      (hwr.write hhash hm)
  | close hpc =>
    rw [hpc] at hp
    exact h.move _ (by rw [hpc]; rfl) (by simp [Pc.committed]) (hspare (by simp [hpc])) hp
  | rename hpc hbound =>
    obtain ⟨i, hi⟩ := Option.ne_none_iff_exists'.mp hbound
    simp only [Justified, hpc] at hj
    exact h.rename hpc (hset _ rfl) (hi.trans (congrArg some (hj i hi)))
  | @cleanup f synced ok hpc =>
    cases synced with
    | false => exact absurd hok (by simp [Sync.failed])
    | true =>
      exact h.move _ (by rw [hpc]; rfl) (by simp [Pc.committed]) (hspare (by simp [hpc])) trivial
  | persist hpc | index hpc =>
    exact h.move _ (by rw [hpc]; rfl) (by rw [hpc]; exact id) (hspare (by simp [hpc])) trivial
  | notPersisted hpc | persistWrite hpc =>
    have hafter : s.afterPersist = .index := if_pos hok
    dsimp only [Sync.goto]
    rw [hafter]
    exact h.move _ (by rw [hpc]; rfl) (by rw [hpc]; exact id) (hspare (by simp [hpc])) trivial
  -- A goroutine that fails or is superseded is not going to announce.
  | notMkdir | notCreated => exact absurd hok (by simp [Sync.failed])
  | superseded | stale | notFetched | notWritten | notClosed | notRenamed | announce =>
    exact absurd hhope (by simp [Sync.goto, Pc.hopeful])

/-! ## All goroutines together -/

/-- **The invariant** of the mirror. -/
structure MirrorInv (E : Env) (m : MirrorManager) : Prop where
  /-- No goroutine is of a generation that is still to come. -/
  gens : ∀ s ∈ m.syncs, s.gen ≤ m.gen
  /-- A goroutine that has decided to announce has not failed. -/
  ok : ∀ s ∈ m.syncs, s.pc.final = true → s.ok = true
  /-- What the goroutines that may announce have done. -/
  live : ∀ s ∈ m.syncs, Live m.gen s → SyncInv E m.disk s

variable {m m' : MirrorManager}

theorem gen_step (hst : s.step E gen d e = some st) :
    st.sync.gen = s.gen := by
  cases Sync.moves_of_step hst with
  | @cleanup f synced => cases synced <;> rfl
  | _ => rfl

theorem final_afterPersist (s : Sync) : s.afterPersist.final = s.ok := by
  unfold Sync.afterPersist
  cases s.ok <;> rfl

theorem ok_step (hst : s.step E gen d e = some st) (h : s.pc.final = true → s.ok = true) :
    st.sync.pc.final = true → st.sync.ok = true := by
  cases Sync.moves_of_step hst with
  | notPersisted | persistWrite => exact fun hf ↦ (final_afterPersist s).symm.trans hf
  | @cleanup f synced => cases synced <;> simp [Sync.failed, Pc.final]
  | _ => simp_all [Sync.goto, Sync.failed, Pc.final]

theorem mirrorInv_start (E : Env) (d : Disk FileName) : MirrorInv E (.start E d) :=
  ⟨by simp [MirrorManager.start], by simp [MirrorManager.start], by simp [MirrorManager.start]⟩

theorem MirrorInv.accept (h : MirrorInv E m) (raw : Bytes) (sm : SignedContentManifest) :
    MirrorInv E (m.accept raw sm) := by
  refine ⟨fun s hs ↦ ?_, fun s hs hf ↦ ?_, fun s hs hl ↦ ?_⟩
  · rcases List.mem_append.mp hs with hs | hs
    · exact (h.gens s hs).trans (Nat.le_succ _)
    · rw [List.mem_singleton.mp hs]
      exact le_rfl
  · rcases List.mem_append.mp hs with hs | hs
    · exact h.ok s hs hf
    · rw [List.mem_singleton.mp hs]
  · rcases List.mem_append.mp hs with hs | hs
    · -- A goroutine of an older generation has made its last check.
      refine h.live s hs ⟨hl.1, hl.2.1, Or.inl (hl.2.2.resolve_right fun hg ↦ ?_)⟩
      have := h.gens s hs
      have hg : s.gen = m.gen + 1 := hg
      omega
    · rw [List.mem_singleton.mp hs]
      exact ⟨rfl, by simp [Pc.committed], by simp, by simp [Pc.current], trivial⟩

theorem MirrorInv.perform (h : MirrorInv E m) {i : ℕ} (hi : m.syncs[i]? = some s)
    (hst : s.step E m.gen m.disk e = some st) (hop : ∀ op ∈ st.op, Harmless E m i op)
    (hj : Live m.gen s → Justified E m.gen m.disk s e) :
    MirrorInv E (m.perform E i st) := by
  have hs := List.mem_of_getElem? hi
  refine ⟨fun t ht ↦ ?_, fun t ht hf ↦ ?_, fun t ht hl ↦ ?_⟩
  · rcases List.mem_or_eq_of_mem_set ht with ht | rfl
    · exact h.gens t ht
    · rw [gen_step hst]
      exact h.gens s hs
  · rcases List.mem_or_eq_of_mem_set ht with ht | rfl
    · exact h.ok t ht hf
    · exact ok_step hst (h.ok s hs) hf
  · obtain ⟨j, hget⟩ := List.mem_iff_getElem?.mp ht
    have hget : (m.syncs.set i st.sync)[j]? = some t := hget
    rcases eq_or_ne i j with rfl | hne
    · -- The goroutine that takes the step.
      rw [List.getElem?_set_self (List.getElem?_eq_some_iff.mp hi).1, Option.some_inj] at hget
      subst hget
      have hls : Live m.gen s := Live.of_step hst hl
      refine (h.live s hs hls).step hst hl (fun op ho f hf ↦ ?_) (hj hls)
      obtain ⟨hset, _⟩ := hop op ho (s, i) (List.mem_zipIdx_iff_getElem?.mpr hi) hls
      exact (hset f hf).imp_right And.right
    · -- Any other one.
      rw [List.getElem?_set_ne hne] at hget
      have hinv := h.live t (List.mem_of_getElem? hget) hl
      show SyncInv E (st.op.elim m.disk m.disk.apply) t
      cases hso : st.op with
      | none => exact hinv
      | some op =>
        obtain ⟨hset, htmp⟩ := hop op hso (t, j) (List.mem_zipIdx_iff_getElem?.mpr hget) hl
        exact hinv.apply (fun f hf ↦ (hset f hf).resolve_right fun hr ↦ hne hr.1.symm)
          (htmp hne.symm)

theorem MirrorInv.step (h : MirrorInv E m) {e : Event} (hc : Calm E m e)
    (hs : m.step E e = some m') : MirrorInv E m' := by
  cases e with
  | manifest raw =>
    rcases MirrorManager.step_manifest hs with rfl | ⟨sm, -, -, rfl⟩
    · exact h
    · exact h.accept raw sm
  | sync i e =>
    obtain ⟨s, st, hi, hst, rfl⟩ := MirrorManager.step_sync hs
    exact h.perform hi hst (fun op ho ↦ hc.1 op (opOf_eq hi hst ▸ ho)) (hc.2 s hi)
  | restart =>
    rw [MirrorManager.step, Option.some_inj] at hs
    subst hs
    exact { mirrorInv_start E m.disk with }

/-! ## Announcements -/

/-- Only a goroutine that is about to announce announces. -/
theorem pc_of_setComplete {ts : ℤ} (hst : s.step E gen d e = some st)
    (hcall : st.call = some (.setComplete ts true)) :
    s.pc = .announce ∧ s.sm.ts = ts := by
  cases Sync.moves_of_step hst with
  | announce hpc => exact ⟨hpc, by simpa using hcall⟩
  | _ => exact absurd hcall (by simp [Sync.goto])

/-- The step that adds an announcement to the record is that of a goroutine which is about to
announce. -/
theorem sync_of_announced {e : Event} {ts : ℤ} (hs : m.step E e = some m')
    (hcall : m'.calls = m.calls ++ [.setComplete ts true]) :
    ∃ i e' s, e = .sync i e' ∧ m.syncs[i]? = some s ∧ s.pc = .announce ∧ s.sm.ts = ts := by
  cases e with
  | manifest raw =>
    rcases MirrorManager.step_manifest hs with rfl | ⟨sm, -, -, rfl⟩
    all_goals exact absurd hcall (by simp [MirrorManager.accept])
  | sync i e' =>
    obtain ⟨s, st, hi, hst, rfl⟩ := MirrorManager.step_sync hs
    have hcall : st.call.toList = [.setComplete ts true] := List.append_cancel_left hcall
    obtain ⟨hpc, hts⟩ := pc_of_setComplete hst (Option.toList_eq_singleton_iff.mp hcall)
    exact ⟨i, e', s, rfl, hi, hpc, hts⟩
  | restart =>
    rw [MirrorManager.step, Option.some_inj] at hs
    subst hs
    exact absurd hcall (by simp)

/-- **What is announced is there**: from any disk, in every run all of whose steps are calm, when a
goroutine calls `setCompleteFn(ts, true)` every file of its manifest is in the directory, with the
content that the manifest lists. -/
theorem complete_of_exec {E : Env} {d : Disk FileName} {es : List Event} {m m' : MirrorManager}
    {e : Event} {ts : ℤ} (hrun : exec (MirrorManager.step E) (.start E d) es = some m)
    (hcalm : Along (MirrorManager.step E) (Calm E) (.start E d) es) (hstep : m.step E e = some m')
    (hcall : m'.calls = m.calls ++ [.setComplete ts true]) :
    ∃ i e' s, e = .sync i e' ∧ m.syncs[i]? = some s ∧ s.sm.ts = ts ∧ Complete E m.disk s.sm := by
  have hinv : MirrorInv E m :=
    inv_of_exec_along (fun h hc hs ↦ MirrorInv.step h hc hs) (mirrorInv_start E d) hcalm hrun
  obtain ⟨i, e', s, he, hi, hpc, hts⟩ := sync_of_announced hstep hcall
  have hmem := List.mem_of_getElem? hi
  have hlive : Live m.gen s :=
    ⟨hinv.ok s hmem (by rw [hpc]; rfl), by rw [hpc]; rfl, Or.inl (by rw [hpc]; rfl)⟩
  exact ⟨i, e', s, he, hi, hts, (hinv.live s hmem hlive).complete hpc⟩

/-! ## An announcement that is wrong -/

/-- A manifest with one file of one chunk. -/
def demoManifest (ts : UInt8) : SignedContentManifest :=
  ⟨"content", ts.toNat, [⟨"a", 1, 16, ["07"]⟩], "sig"⟩

/-- A manifest is a single byte, its time stamp.  The hash of a chunk is the chunk. -/
def demoEnv : Env where
  pubkey := some []
  dataDir := ⟨true, ["var", "mirror"]⟩
  unmarshal raw :=
    match raw with
    | [ts] => .ok (demoManifest ts)
    | _ => .error "unexpected end of JSON input"
  canonical _ _ _ := []
  base64Decode _ := some []
  ed25519Verify _ _ _ := true
  sha256 data := data
  quote text := text

/-- From a manifest to the request for its chunk. -/
def untilFetch (ts : UInt8) (i : ℕ) : List Event :=
  [.manifest [ts], .sync i .next, .sync i .next, .sync i .next, .sync i .next, .sync i .next,
    .sync i (.sys true), .sync i (.sys true), .sync i .next]

/-- The chunk comes, and everything is as it should be up to the announcement. -/
def fetchRun : List Event :=
  untilFetch 1 0 ++
    [.sync 0 (.fetched [none] (some [7])), .sync 0 (.wrote 1), .sync 0 .next, .sync 0 (.sys true),
      .sync 0 (.sys true), .sync 0 (.sys true), .sync 0 .next, .sync 0 (.sys true),
      .sync 0 (.wrote 1), .sync 0 .next]

/-- The last step of a run adds an announcement to the record, and what was on the disk before it
under the name of the file. -/
def announces (es : List Event) (i : ℕ) (ts : ℤ) : Option (Bool × Option Bytes) :=
  (exec (MirrorManager.step demoEnv) (.start demoEnv .empty) es).bind fun m ↦
    (m.step demoEnv (.sync i .next)).map fun m' ↦
      (m'.calls = m.calls ++ [.setComplete ts true], m.disk.read (demoEnv.abs "a"))

theorem announces_eq_some {es : List Event} {i : ℕ} {ts : ℤ} {content : Option Bytes}
    (h : announces es i ts = some (true, content)) :
    ∃ m m', exec (MirrorManager.step demoEnv) (.start demoEnv .empty) es = some m ∧
      m.step demoEnv (.sync i .next) = some m' ∧
        m'.calls = m.calls ++ [.setComplete ts true] ∧ m.disk.read (demoEnv.abs "a") = content := by
  obtain ⟨m, hm, h⟩ := Option.bind_eq_some_iff.mp h
  obtain ⟨m', hm', h⟩ := Option.map_eq_some_iff.mp h
  obtain ⟨hcalls, hread⟩ := Prod.mk.inj h
  exact ⟨m, m', hm, hm', of_decide_eq_true hcalls, hread⟩

theorem complete_of_exec_demo :
    ∃ m m', exec (MirrorManager.step demoEnv) (.start demoEnv .empty) fetchRun = some m ∧
      m.step demoEnv (.sync 0 .next) = some m' ∧ m'.calls = m.calls ++ [.setComplete 1 true] ∧
        ∃ i e s, Event.sync 0 .next = .sync i e ∧ m.syncs[i]? = some s ∧ s.sm.ts = 1 ∧
          Complete demoEnv m.disk s.sm := by
  have hrun : announces fetchRun 0 1 = some (true, some [7]) := by decide +kernel
  obtain ⟨m, m', hm, hm', hcalls, _⟩ := announces_eq_some hrun
  exact ⟨m, m', hm, hm', hcalls, complete_of_exec hm (by decide +kernel) hm' hcalls⟩

/-- The chunk cannot be had, but the state file is written.  Then a newer manifest with the same
file comes. -/
def skipRun : List Event :=
  untilFetch 1 0 ++
    [.sync 0 (.fetched [none] none), .sync 0 (.sys true), .sync 0 .next, .sync 0 (.sys true),
      .sync 0 (.wrote 1), .manifest [2], .sync 1 .next, .sync 1 .next, .sync 1 .next,
      .sync 1 .next, .sync 1 .next, .sync 1 .next, .sync 1 (.sys true), .sync 1 (.wrote 1),
      .sync 1 .next]

/-- **A wrong announcement**: the file of the second manifest is skipped because the first one
listed it, though it was never fetched. -/
theorem announced_without_file :
    ∃ m m', exec (MirrorManager.step demoEnv) (.start demoEnv .empty) skipRun = some m ∧
      m.step demoEnv (.sync 1 .next) = some m' ∧ m'.calls = m.calls ++ [.setComplete 2 true] ∧
        m.disk.read (demoEnv.abs "a") = none ∧ ¬ Complete demoEnv m.disk (demoManifest 2) := by
  have hrun : announces skipRun 1 2 = some (true, none) := by decide +kernel
  obtain ⟨m, m', hm, hm', hcalls, hread⟩ := announces_eq_some hrun
  refine ⟨m, m', hm, hm', hcalls, hread, fun hcomplete ↦ ?_⟩
  obtain ⟨chunks, hcontent, _⟩ := (hcomplete _ (List.mem_singleton_self _)).content
  exact absurd (hread.symm.trans hcontent) (by simp)

end TunnelCat.Mirror
