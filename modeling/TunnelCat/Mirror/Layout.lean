import TunnelCat.Lib.Tiling
import TunnelCat.Mirror.Serving

/-!
# Where the chunks of a file are

`syncFile` writes the chunks of a file one after the other, as they come, and never looks at their
sizes.  `buildChunkIndex` never looks at the file: it computes where the chunks are from the numbers
in the manifest.  If the chunks have the sizes that the manifest gives them, the two agree.

A call of `syncFile` is a stretch of the steps of `Sync.step`, from `Pc.mkdir` to the return to the
loop.  The current generation may change under it, and others may use the disk as long as they leave
the file and its temporary file alone.  `Progress` says how far a call has come with the chunks it
has fetched so far; `locations` are the entries that `buildChunkIndex` computes for the file.  The
index itself has the last of them for each hash, which matters if a hash is listed twice.
-/

set_option autoImplicit false

open Function Trace

namespace TunnelCat.Mirror

variable {E : Env} {f : ContentFile}

/-! ## What `buildChunkIndex` computes -/

/-- The entries that `buildChunkIndex` computes for the hashes of a file, in their order. -/
def locations (E : Env) (f : ContentFile) : List String → ℤ → List ChunkLoc
  | [], _ => []
  | _ :: hashes, offset =>
    let size := if f.size - offset < f.chunkSize then f.size - offset else f.chunkSize
    ⟨E.abs f.path, offset, size⟩ :: locations E f hashes (offset + size)

theorem length_locations (hashes : List String) (offset : ℤ) :
    (locations E f hashes offset).length = hashes.length := by
  induction hashes generalizing offset with
  | nil => rfl
  | cons hash hashes ih => rw [locations, List.length_cons, List.length_cons, ih]

/-- The index is filled with these entries, one after the other. -/
theorem indexFile_eq_foldl (hashes : List String) (offset : ℤ) (idx : String → Option ChunkLoc) :
    E.indexFile f hashes offset idx =
      (hashes.zip (locations E f hashes offset)).foldl
        (fun (idx : String → Option ChunkLoc) (p : String × ChunkLoc) ↦
          update idx p.1 (some p.2)) idx := by
  induction hashes generalizing offset idx with
  | nil => rfl
  | cons hash hashes ih => rw [Env.indexFile, locations, List.zip_cons_cons, List.foldl_cons, ih]

variable {chunks : List Bytes} {d : Disk FileName} {hashes : List String} {hash : String}
  {op : Disk.Op FileName}

/-- Entries that do not have the hash leave its entry alone. -/
theorem indexFile_of_notMem (h : hash ∉ hashes) (offset : ℤ) (idx : String → Option ChunkLoc) :
    E.indexFile f hashes offset idx hash = idx hash := by
  induction hashes generalizing offset idx with
  | nil => rfl
  | cons hash' hashes ih =>
    rw [List.mem_cons, not_or] at h
    rw [Env.indexFile, ih h.2, update_of_ne h.1]

/-- The index has the last entry that was computed for a hash. -/
theorem indexFile_of_last {i : ℕ} (hi : hashes[i]? = some hash) (hlast : hash ∉ hashes.drop (i + 1))
    (offset : ℤ) (idx : String → Option ChunkLoc) :
    E.indexFile f hashes offset idx hash = (locations E f hashes offset)[i]? := by
  induction hashes generalizing i offset idx with
  | nil => simp at hi
  | cons hash' hashes ih =>
    cases i with
    | zero =>
      rw [List.getElem?_cons_zero, Option.some_inj] at hi
      subst hi
      have hnot : hash' ∉ hashes := hlast
      rw [Env.indexFile, indexFile_of_notMem hnot, update_self, locations,
        List.getElem?_cons_zero]
    | succ i => exact ih hi hlast _ _

/-! ## Chunks of the listed sizes -/

/-- The chunks have the sizes that the manifest gives them: `chunk_size` but for the last, which has
what is left of `size`, at least one byte and at most `chunk_size`. -/
structure Sized (f : ContentFile) (chunks : List Bytes) : Prop where
  /-- All but the last. -/
  init : ∀ c ∈ chunks.dropLast, (c.length : ℤ) = f.chunkSize
  /-- The last. -/
  last : ∃ c, chunks.getLast? = some c ∧
    (c.length : ℤ) = f.size - (chunks.length - 1) * f.chunkSize ∧ 1 ≤ c.length ∧
      (c.length : ℤ) ≤ f.chunkSize

/-- Where the chunks are in a file that begins with `off` other bytes. -/
def places (off : ℕ) : List Bytes → List (ℤ × ℤ)
  | [] => []
  | c :: chunks => ((off : ℤ), (c.length : ℤ)) :: places (off + c.length) chunks

theorem tiles_places (h : ∀ c ∈ chunks, c ≠ []) (off : ℕ) :
    Tiles off (places off chunks) (off + chunks.flatten.length) := by
  induction chunks generalizing off with
  | nil => simpa [places] using Tiles.nil (off : ℤ)
  | cons c chunks ih =>
    rw [List.forall_mem_cons] at h
    have hrest := ih h.2 (off + c.length)
    rw [Nat.cast_add] at hrest
    rw [List.flatten_cons, List.length_append, Nat.cast_add, ← add_assoc]
    exact .cons (by exact_mod_cast List.length_pos_iff.mpr h.1) hrest

/-- What is read at the place of a chunk is the chunk. -/
theorem stretch_places {i : ℕ} {p : ℤ × ℤ} (pre : Bytes)
    (hp : (places pre.length chunks)[i]? = some p) :
    chunks[i]? = some (stretch (pre ++ chunks.flatten) p.1.toNat p.2.toNat) := by
  induction chunks generalizing i pre with
  | nil => simp [places] at hp
  | cons c chunks ih =>
    rw [List.flatten_cons]
    cases i with
    | zero =>
      rw [places, List.getElem?_cons_zero, Option.some_inj] at hp
      subst hp
      rw [Int.toNat_natCast, Int.toNat_natCast, stretch_middle, List.getElem?_cons_zero]
    | succ i =>
      rw [places, List.getElem?_cons_succ, ← List.length_append] at hp
      rw [List.getElem?_cons_succ, ← List.append_assoc]
      exact ih (pre ++ c) hp

/-- What is computed from the manifest is where the chunks are. -/
theorem locations_eq (hlen : chunks.length = hashes.length) (off : ℕ)
    (hinit : ∀ c ∈ chunks.dropLast, (c.length : ℤ) = f.chunkSize)
    (hlast : ∀ c ∈ chunks.getLast?, (c.length : ℤ) ≤ f.chunkSize)
    (hsize : f.size = off + chunks.flatten.length) :
    locations E f hashes off = (places off chunks).map fun p ↦ ⟨E.abs f.path, p.1, p.2⟩ := by
  induction chunks generalizing hashes off with
  | nil =>
    obtain rfl := List.eq_nil_of_length_eq_zero hlen.symm
    rfl
  | cons c chunks ih =>
    cases hashes with
    | nil => cases hlen
    | cons hash hashes =>
      have hinit' : ∀ b ∈ chunks.dropLast, (b.length : ℤ) = f.chunkSize := fun b hb ↦
        hinit b (by cases chunks <;> simp_all)
      have hlast' : ∀ b ∈ chunks.getLast?, (b.length : ℤ) ≤ f.chunkSize := fun b hb ↦
        hlast b (by cases chunks <;> simp_all)
      have hsize' : f.size = ((off + c.length : ℕ) : ℤ) + chunks.flatten.length := by
        rw [hsize, List.flatten_cons, List.length_append]
        omega
      simp only [locations, size_chunk hinit hlast hsize, places, List.map_cons]
      rw [← Nat.cast_add, ih (Nat.succ.inj hlen) _ hinit' hlast' hsize']

/-- Chunks of the listed sizes are not empty, and their sizes add up to that of the file. -/
theorem Sized.spec (h : Sized f chunks) (hpos : 0 < f.chunkSize) :
    (∀ c ∈ chunks, c ≠ []) ∧ f.size = chunks.flatten.length := by
  obtain ⟨c, hc, hlen, hone, -⟩ := h.last
  obtain ⟨init, rfl⟩ := List.getLast?_eq_some_iff.mp hc
  have hinit : ∀ b ∈ init, (b.length : ℤ) = f.chunkSize := by
    simpa only [List.dropLast_concat] using h.init
  refine ⟨fun b hb ↦ ?_, ?_⟩
  · rw [← List.length_pos_iff]
    rcases List.mem_append.mp hb with hb | hb
    · have := hinit b hb
      omega
    · rw [List.mem_singleton.mp hb]
      omega
  · have hsum : (init.flatten.length : ℤ) = init.length * f.chunkSize := by
      clear h hc hlen
      induction init with
      | nil => simp
      | cons b init ih =>
        rw [List.forall_mem_cons] at hinit
        rw [List.flatten_cons, List.length_append, Nat.cast_add, ih hinit.2, hinit.1,
          List.length_cons, Nat.cast_succ]
        ring
    rw [List.length_append, List.length_singleton, Nat.cast_add, Nat.cast_one,
      add_sub_cancel_right] at hlen
    rw [List.flatten_concat, List.length_append, Nat.cast_add, hsum, hlen]
    ring

/-! ## A call of `syncFile` -/

/-- What happens while a call of `syncFile` is going on. -/
inductive CallEvent where
  /-- The call takes a step, and this is the current generation. -/
  | own (gen : ℕ) (e : SyncEvent)
  /-- Somebody else makes a system call. -/
  | other (op : Disk.Op FileName)

/-- A call of `syncFile` for `f` takes a step, unless it has returned, or others use the disk, who
leave the file and its temporary file alone. -/
def callStep (E : Env) (f : ContentFile) (S : Disk FileName × Sync) :
    CallEvent → Option (Disk FileName × Sync)
  | .own gen e =>
    if S.2.pc = .loop then none
    else (S.2.step E gen S.1 e).map fun st ↦ (st.op.elim S.1 S.1.apply, st.sync)
  | .other op =>
    if op.Spares S.1 (E.tmp f.path) ∧ op.Spares S.1 (E.abs f.path) then some (S.1.apply op, S.2)
    else none

/-- The chunk that is fetched in a step. -/
def fetchedBy (E : Env) (S : Disk FileName × Sync) : CallEvent → Option Bytes
  | .own _ (.fetched peers relay) =>
    match S.2.pc with
    | .fetch _ _ hash => E.fetchChunk peers relay hash
    | _ => none
  | _ => none

/-- The chunks that are fetched in a call, in the order they are fetched. -/
def fetchedChunks (E : Env) (f : ContentFile) (S : Disk FileName × Sync) (es : List CallEvent) :
    List Bytes := observed (callStep E f) (fetchedBy E) S es

/-- The temporary file is open and has these chunks. -/
structure Open (E : Env) (f : ContentFile) (d : Disk FileName) (chunks : List Bytes) (t : Temp) :
    Prop where
  /-- It is found under its name. -/
  names : d.names (E.tmp f.path) = some t.fd
  /-- It has the chunks one after the other. -/
  data : d.data t.fd = chunks.flatten
  /-- The next one is written after them. -/
  off : t.off = chunks.flatten.length
  /-- They have been counted. -/
  count : t.chunks = chunks.length
  /-- They have the hashes that are listed first. -/
  hashes : Matches E chunks (f.chunkHashes.take t.chunks)

/-- The file is in its place and has these chunks, which are all that are listed. -/
structure Placed (E : Env) (f : ContentFile) (d : Disk FileName) (chunks : List Bytes) : Prop where
  /-- It has the chunks one after the other. -/
  read : d.read (E.abs f.path) = some chunks.flatten
  /-- They have the listed hashes. -/
  hashes : Matches E chunks f.chunkHashes

/-- **How far a call has come** that has fetched these chunks. -/
def Progress (E : Env) (f : ContentFile) (chunks : List Bytes) (S : Disk FileName × Sync) : Prop :=
  match S.2.pc with
  | .mkdir g | .create g => g = f ∧ chunks = []
  | .chunk g t => g = f ∧ Open E f S.1 chunks t
  | .fetch g t hash => g = f ∧ Open E f S.1 chunks t ∧ f.chunkHashes[t.chunks]? = some hash
  | .write g t data =>
    g = f ∧ ∃ before hash, chunks = before ++ [data] ∧ Open E f S.1 before t ∧
      f.chunkHashes[t.chunks]? = some hash ∧ E.chunkHashMatches data hash = true
  | .close g t | .rename g t => g = f ∧ Open E f S.1 chunks t ∧ f.chunkHashes.length ≤ t.chunks
  | .cleanup g true => g = f ∧ Placed E f S.1 chunks
  | .cleanup _ false => True
  | .loop => S.2.ok = true → Placed E f S.1 chunks
  | _ => False

theorem abs_ne_tmp (E : Env) (path : String) : E.abs path ≠ E.tmp path :=
  FileName.ne_withSuffix _ (by decide)

/-! ### Others -/

theorem Open.spared {t : Temp} (h : Open E f d chunks t) (hop : op.Spares d (E.tmp f.path)) :
    Open E f (d.apply op) chunks t := by
  have hfd : t.fd < d.next := d.fresh _ _ h.names
  refine ⟨?_, ?_, h.off, h.count, h.hashes⟩
  · rw [Disk.names_apply hop.1]
    exact h.names
  · rw [Disk.data_apply hfd (hop.2 t.fd (by simp [h.names]))]
    exact h.data

theorem Placed.spared (h : Placed E f d chunks) (hop : op.Spares d (E.abs f.path)) :
    Placed E f (d.apply op) chunks :=
  ⟨by rw [Disk.read_apply hop]; exact h.read, h.hashes⟩

theorem Progress.spared {s : Sync} (h : Progress E f chunks (d, s))
    (htmp : op.Spares d (E.tmp f.path)) (habs : op.Spares d (E.abs f.path)) :
    Progress E f chunks (d.apply op, s) := by
  simp only [Progress] at h ⊢
  split at h
  case h_1 | h_2 => exact h
  case h_3 => exact ⟨h.1, h.2.spared htmp⟩
  case h_4 => exact ⟨h.1, h.2.1.spared htmp, h.2.2⟩
  case h_5 =>
    obtain ⟨hg, before, hash, hchunks, hopen, hhash⟩ := h
    exact ⟨hg, before, hash, hchunks, hopen.spared htmp, hhash⟩
  case h_6 | h_7 => exact ⟨h.1, h.2.1.spared htmp, h.2.2⟩
  case h_8 => exact ⟨h.1, h.2.spared habs⟩
  case h_9 => trivial
  case h_10 => exact fun hok ↦ (h hok).spared habs
  case h_11 => exact h

/-! ### The call itself -/

/-- The temporary file is made. -/
theorem open_create (E : Env) (f : ContentFile) (d : Disk FileName) :
    Open E f (d.apply (.openTrunc (E.tmp f.path))) [] ⟨d.fd (E.tmp f.path), 0, 0⟩ where
  names := update_self ..
  data := d.data_openTrunc _
  off := rfl
  count := rfl
  hashes := List.Forall₂.nil

/-- A chunk is written. -/
theorem Open.write {t : Temp} {data : Bytes} (h : Open E f d chunks t)
    (hhash : f.chunkHashes[t.chunks]? = some hash) (hm : E.chunkHashMatches data hash = true) :
    Open E f (d.apply (.write t.fd t.off data)) (chunks ++ [data])
      ⟨t.fd, t.off + data.length, t.chunks + 1⟩ where
  names := h.names
  data := by
    rw [h.off, ← h.data, Disk.data_write_end, h.data, List.flatten_concat]
  off := by
    rw [List.flatten_concat, List.length_append, h.off]
  count := by
    rw [List.length_append, List.length_singleton, h.count]
  hashes := by
    rw [List.take_add_one, hhash]
    exact List.rel_append h.hashes (List.Forall₂.cons hm List.Forall₂.nil)

/-- It is renamed when all chunks are there. -/
theorem Open.rename {t : Temp} (h : Open E f d chunks t) (hall : f.chunkHashes.length ≤ t.chunks) :
    Placed E f (d.apply (.rename (E.tmp f.path) (E.abs f.path))) chunks := by
  refine ⟨?_, ?_⟩
  · rw [Disk.read_rename h.names, h.data]
  · have hhashes := h.hashes
    rwa [List.take_of_length_le hall] at hhashes

/-- What is left to be removed in the end is not the file. -/
theorem Placed.cleanup (h : Placed E f d chunks) (ok : Bool) :
    Placed E f
      ((if ok then some (.remove (E.tmp f.path)) else none : Option (Disk.Op FileName)).elim d
        d.apply) chunks := by
  cases ok with
  | false => exact h
  | true =>
    refine ⟨?_, h.hashes⟩
    rw [if_pos rfl, Option.elim_some, Disk.read_remove, if_neg (abs_ne_tmp E f.path)]
    exact h.read

/-- A step of the call. -/
theorem Progress.own {s : Sync} {gen : ℕ} {e : SyncEvent} {st : Step}
    (h : Progress E f chunks (d, s)) (hloop : s.pc ≠ .loop) (hst : s.step E gen d e = some st) :
    Progress E f (chunks ++ (fetchedBy E (d, s) (.own gen e)).toList)
      (st.op.elim d d.apply, st.sync) := by
  have hmoves := Sync.moves_of_step hst
  cases hmoves with
  | mkdir hpc =>
    rw [Progress, hpc] at h
    simpa [Progress, fetchedBy, Sync.goto] using h
  | notMkdir hpc => simp [Progress, Sync.failed]
  | create hpc =>
    rw [Progress, hpc] at h
    obtain ⟨rfl, rfl⟩ := h
    exact ⟨rfl, open_create E _ d⟩
  | notCreated hpc => simp [Progress, Sync.failed]
  | last hpc hend =>
    rw [Progress, hpc] at h
    rw [List.getElem?_eq_none_iff] at hend
    obtain ⟨rfl, hopen⟩ := h
    rw [show fetchedBy E (d, s) (.own gen .next) = none from rfl, Option.toList_none,
      List.append_nil]
    exact ⟨rfl, hopen, hend⟩
  | chunk hpc hhash hgen =>
    rw [Progress, hpc] at h
    obtain ⟨rfl, hopen⟩ := h
    rw [show fetchedBy E (d, s) (.own gen .next) = none from rfl, Option.toList_none,
      List.append_nil]
    exact ⟨rfl, hopen, hhash⟩
  | stale hpc hhash hgen => trivial
  | fetch hpc hdata =>
    rw [Progress, hpc] at h
    obtain ⟨rfl, hopen, hhash⟩ := h
    simp only [fetchedBy, hpc, hdata, Option.toList_some]
    exact ⟨rfl, chunks, _, rfl, hopen, hhash, fetchChunk_matches hdata⟩
  | notFetched hpc hnone => trivial
  | write hpc =>
    rw [Progress, hpc] at h
    obtain ⟨rfl, before, hash, rfl, hopen, hhash, hm⟩ := h
    simp only [fetchedBy, Option.toList_none, List.append_nil]
    exact ⟨rfl, hopen.write hhash hm⟩
  | notWritten hpc hn => trivial
  | close hpc =>
    rw [Progress, hpc] at h
    simpa [Progress, fetchedBy, Sync.goto] using h
  | notClosed hpc => trivial
  | rename hpc hbound =>
    rw [Progress, hpc] at h
    obtain ⟨rfl, hopen, hall⟩ := h
    simp only [fetchedBy, Option.toList_none, List.append_nil]
    exact ⟨rfl, hopen.rename hall⟩
  | notRenamed hpc hnot => trivial
  | @cleanup g synced ok hpc =>
    rw [Progress, hpc] at h
    simp only [fetchedBy, Option.toList_none, List.append_nil]
    cases synced with
    | false => exact fun hok ↦ absurd hok (by simp [Sync.failed])
    | true =>
      obtain ⟨rfl, hplaced⟩ := h
      exact fun _ ↦ hplaced.cleanup ok
  | superseded hpc | through hpc | skip hpc | take hpc => exact absurd hpc hloop
  | accepted hpc | gossiped hpc | start hpc | delete hpc | deleted hpc | persist hpc
  | notPersisted hpc | persistWrite hpc | index hpc | announce hpc =>
    rw [Progress, hpc] at h
    exact h.elim

theorem Progress.step {S T : Disk FileName × Sync} {e : CallEvent} (h : Progress E f chunks S)
    (hstep : callStep E f S e = some T) :
    Progress E f (chunks ++ (fetchedBy E S e).toList) T := by
  cases e with
  | own gen e =>
    rw [callStep] at hstep
    split at hstep
    · cases hstep
    · rename_i hloop
      obtain ⟨st, hst, rfl⟩ := Option.map_eq_some_iff.mp hstep
      exact h.own hloop hst
  | other op =>
    rw [callStep] at hstep
    split at hstep
    · rename_i hop
      cases hstep
      simp only [fetchedBy, Option.toList_none, List.append_nil]
      exact h.spared hop.1 hop.2
    · cases hstep

/-- **What a call of `syncFile` leaves** when it returns without an error: the chunks it has
fetched, one for each hash, one after the other. -/
theorem placed_of_exec {d d' : Disk FileName} {s s' : Sync} {es : List CallEvent}
    (hpc : s.pc = .mkdir f) (hrun : exec (callStep E f) (d, s) es = some (d', s'))
    (hret : s'.pc = .loop) (hok : s'.ok = true) :
    Placed E f d' (fetchedChunks E f (d, s) es) := by
  have hstart : Progress E f [] (d, s) := by
    rw [Progress, hpc]
    exact ⟨rfl, rfl⟩
  have hend : Progress E f (fetchedChunks E f (d, s) es) (d', s') :=
    observed_of_exec (fun h hstep ↦ h.step hstep) hstart hrun
  rw [Progress, hret] at hend
  exact hend hok

/-! ## The two together -/

/-- What is in a file at an entry. -/
def ChunkLoc.select (loc : ChunkLoc) (bs : Bytes) : Bytes :=
  stretch bs loc.offset.toNat loc.size.toNat

/-- The entries that are computed for a file are where these chunks are in it. -/
structure Agrees (E : Env) (f : ContentFile) (written : Bytes) (chunks : List Bytes) : Prop where
  /-- The file has the listed size. -/
  size : (written.length : ℤ) = f.size
  /-- There is an entry for each chunk. -/
  count : (locations E f f.chunkHashes 0).length = chunks.length
  /-- Each entry is for this file and has a chunk of it. -/
  selects : ∀ (i : ℕ) (loc : ChunkLoc), (locations E f f.chunkHashes 0)[i]? = some loc →
    loc.path = E.abs f.path ∧ chunks[i]? = some (loc.select written)
  /-- No entry is empty, and none reaches beyond the file. -/
  within : ∀ loc ∈ locations E f f.chunkHashes 0,
    0 ≤ loc.offset ∧ 0 < loc.size ∧ loc.offset + loc.size ≤ f.size
  /-- Every position in the file is in exactly one of them. -/
  covers : ∀ x : ℤ, 0 ≤ x → x < f.size → ∃! i : ℕ, ∃ loc : ChunkLoc,
    (locations E f f.chunkHashes 0)[i]? = some loc ∧ loc.offset ≤ x ∧ x < loc.offset + loc.size
  /-- They are what is put into the index for the hashes of the file, one after the other. -/
  entries : ∀ idx : String → Option ChunkLoc, E.indexFile f f.chunkHashes 0 idx =
    (f.chunkHashes.zip (locations E f f.chunkHashes 0)).foldl
      (fun (idx : String → Option ChunkLoc) (p : String × ChunkLoc) ↦
        update idx p.1 (some p.2)) idx
  /-- So the index has the last of the entries that are computed for a hash. -/
  index : ∀ (i : ℕ) (hash : String), f.chunkHashes[i]? = some hash →
    hash ∉ f.chunkHashes.drop (i + 1) →
    E.buildChunkIndex [f] hash = (locations E f f.chunkHashes 0)[i]?
  /-- If there are several, they have chunks with the same hash. -/
  same : ∀ (i j : ℕ) (c c' : Bytes), f.chunkHashes[i]? = f.chunkHashes[j]? →
    chunks[i]? = some c → chunks[j]? = some c' → E.sha256 c = E.sha256 c'

/-- Chunks with the same listed hash have the same hash. -/
theorem sha256_eq_of_matches (h : Matches E chunks hashes) {i j : ℕ} {c c' : Bytes}
    (hij : hashes[i]? = hashes[j]?) (hi : chunks[i]? = some c) (hj : chunks[j]? = some c') :
    E.sha256 c = E.sha256 c' := by
  have hmatch : ∀ {k : ℕ} {b : Bytes}, chunks[k]? = some b →
      ∃ hash, hashes[k]? = some hash ∧ Bytes.hexEncode (E.sha256 b) = hash.toLower := by
    intro k b hb
    obtain ⟨hk, rfl⟩ := List.getElem?_eq_some_iff.mp hb
    have hk' : k < hashes.length := h.length_eq ▸ hk
    refine ⟨hashes[k], List.getElem?_eq_getElem hk', ?_⟩
    exact of_decide_eq_true (List.forall₂_iff_get.mp h |>.2 k hk hk')
  obtain ⟨hash, hhash, hc⟩ := hmatch hi
  obtain ⟨hash', hhash', hc'⟩ := hmatch hj
  obtain rfl : hash = hash' := Option.some_inj.mp (hhash ▸ hij ▸ hhash')
  rw [← Option.some_inj, ← Bytes.hexDecode_hexEncode, hc, ← hc', Bytes.hexDecode_hexEncode]

theorem agrees_of_sized (hpos : 0 < f.chunkSize) (hsized : Sized f chunks)
    (hm : Matches E chunks f.chunkHashes) : Agrees E f chunks.flatten chunks := by
  obtain ⟨hnonempty, hsize⟩ := hsized.spec hpos
  have hlen : chunks.length = f.chunkHashes.length := hm.length_eq
  have hlocs : locations E f f.chunkHashes 0 =
      (places 0 chunks).map fun p ↦ ⟨E.abs f.path, p.1, p.2⟩ := by
    refine locations_eq hlen 0 hsized.init (fun c hc ↦ ?_) (by simpa using hsize)
    obtain ⟨c', hc', -, -, hle⟩ := hsized.last
    rw [hc', Option.mem_some_iff] at hc
    exact hc ▸ hle
  have htiles : Tiles 0 (places 0 chunks) f.size := by
    have h := tiles_places hnonempty 0
    rwa [Nat.cast_zero, zero_add, ← hsize] at h
  have hplace : ∀ {i : ℕ} {loc : ChunkLoc}, (locations E f f.chunkHashes 0)[i]? = some loc ↔
      ∃ p, (places 0 chunks)[i]? = some p ∧ (⟨E.abs f.path, p.1, p.2⟩ : ChunkLoc) = loc := by
    intro i loc
    rw [hlocs, List.getElem?_map, Option.map_eq_some_iff]
  refine ⟨hsize.symm, by rw [length_locations, hlen], ?_, ?_, ?_, indexFile_eq_foldl _ _, ?_, ?_⟩
  · intro i loc hloc
    obtain ⟨p, hp, rfl⟩ := hplace.mp hloc
    exact ⟨rfl, stretch_places [] hp⟩
  · intro loc hloc
    obtain ⟨i, hi⟩ := List.mem_iff_getElem?.mp hloc
    obtain ⟨p, hp, rfl⟩ := hplace.mp hi
    exact htiles.bounds (List.mem_of_getElem? hp)
  · intro x hx hxs
    obtain ⟨i, ⟨p, hp, hpx⟩, honly⟩ := htiles.existsUnique hx hxs
    refine ⟨i, ⟨_, hplace.mpr ⟨p, hp, rfl⟩, hpx⟩, ?_⟩
    rintro j ⟨loc, hloc, hlx⟩
    obtain ⟨q, hq, rfl⟩ := hplace.mp hloc
    exact honly j ⟨q, hq, hlx⟩
  · intro i hash hi hlast
    exact indexFile_of_last hi hlast 0 _
  · intro i j c c'
    exact sha256_eq_of_matches hm

/-- **The index and the file agree**: if a call of `syncFile` succeeds and its chunks have the sizes
that the manifest gives them, then what `buildChunkIndex` computes for the `i`-th hash is where the
`i`-th chunk has been written, and these places make up the file. -/
theorem index_matches_file {d d' : Disk FileName} {s s' : Sync} {es : List CallEvent}
    (hpos : 0 < f.chunkSize) (hpc : s.pc = .mkdir f)
    (hrun : exec (callStep E f) (d, s) es = some (d', s')) (hret : s'.pc = .loop)
    (hok : s'.ok = true) (hsized : Sized f (fetchedChunks E f (d, s) es)) :
    ∃ written, d'.read (E.abs f.path) = some written ∧
      Agrees E f written (fetchedChunks E f (d, s) es) := by
  have hplaced := placed_of_exec hpc hrun hret hok
  exact ⟨_, hplaced.read, agrees_of_sized hpos hsized hplaced.hashes⟩

/-- A file of three bytes in two chunks. -/
def demoFile : ContentFile := ⟨"b", 3, 2, ["0708", "09"]⟩

/-- A goroutine that is about to fetch it. -/
def demoSync : Sync := ⟨[], ⟨"content", 1, [demoFile], "sig"⟩, 1, [], [], [], true, .mkdir demoFile⟩

/-- The first chunk comes from a peer, the second one from the relay, and another file is made in
between. -/
def demoCall : List CallEvent :=
  [.own 1 (.sys true), .own 1 (.sys true), .own 1 .next, .own 1 (.fetched [none, some [7, 8]] none),
    .own 1 (.wrote 2), .other (.openTrunc (demoEnv.abs "c")), .own 1 .next,
    .own 1 (.fetched [some [6]] (some [9])), .own 1 (.wrote 1), .own 1 .next, .own 2 (.sys true),
    .own 2 (.sys true), .own 2 (.sys false)]

theorem index_matches_file_demo :
    ∃ d' s', exec (callStep demoEnv demoFile) (.empty, demoSync) demoCall = some (d', s') ∧
      ∃ written, d'.read (demoEnv.abs "b") = some written ∧ written = [7, 8, 9] ∧
        Agrees demoEnv demoFile written [[7, 8], [9]] := by
  have hrun : (exec (callStep demoEnv demoFile) (.empty, demoSync) demoCall).map
      (fun S ↦ (S.2.pc, S.2.ok, S.1.read (demoEnv.abs "b"))) =
        some (.loop, true, some [7, 8, 9]) := by decide +kernel
  have hchunks : fetchedChunks demoEnv demoFile (.empty, demoSync) demoCall = [[7, 8], [9]] := by
    decide +kernel
  obtain ⟨⟨d', s'⟩, hexec, hfacts⟩ := Option.map_eq_some_iff.mp hrun
  simp only [Prod.mk.injEq] at hfacts
  obtain ⟨hpc, hok, hread⟩ := hfacts
  have hsized : Sized demoFile [[7, 8], [9]] :=
    ⟨by decide, [9], rfl, by decide, by decide, by decide⟩
  obtain ⟨written, hwritten, hagrees⟩ :=
    index_matches_file (by decide) rfl hexec hpc hok (hchunks ▸ hsized)
  rw [hchunks] at hagrees
  exact ⟨d', s', hexec, written, hwritten, Option.some_inj.mp (hwritten ▸ hread), hagrees⟩

end TunnelCat.Mirror
