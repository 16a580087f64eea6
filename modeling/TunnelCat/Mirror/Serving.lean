import TunnelCat.Mirror.Confinement

/-!
# Chunks for others

`ServeChunk` looks a hash up in the index, opens the file it finds there and reads a stretch of it.
The index is replaced when a manifest has been mirrored, and it says where the chunks of *that*
manifest are; the files are replaced one by one while the next manifest is being mirrored.  The
offsets come from the sizes in the manifest, which nobody compares with the chunks that were
fetched.

A call of `ServeChunk` is a goroutine with four steps or more: it looks up, opens, seeks and reads,
and between any two of them the mirror may go on.  What it has found out so far is a place to look
(`ServePc.opening`) or an open file (`ServePc.opened`, `ServePc.reading`).

`Careful` says of a step of the mirror that it does not pull the rug from under them:

* when the index is replaced, each listed file that is there has the chunks it is said to have, all
  of `chunk_size` but the last;
* a file is not opened for writing under a name that is in the index, or written to while it has
  such a name or is open in a call;
* what is renamed to such a name has the chunks in the places where the index has them.

Removing a file does no harm.  If every step is careful, every chunk that is returned has its hash.
-/

set_option autoImplicit false

open Trace

namespace TunnelCat.Mirror

/-! ## `ServeChunk` -/

/-- Where a call of `ServeChunk` is. -/
inductive ServePc where
  /-- Before the hash is looked up. -/
  | lookup
  /-- Before the file is opened. -/
  | opening (loc : ChunkLoc)
  /-- Before the seek. -/
  | opened (loc : ChunkLoc) (fd : ℕ)
  /-- In `ReadFull`, with what was read so far. -/
  | reading (loc : ChunkLoc) (fd : ℕ) (got : Bytes)
  /-- It has returned a chunk, or that it has none. -/
  | returned (out : Option Bytes)
  /-- It has panicked: a buffer cannot have a negative length. -/
  | panicked
deriving DecidableEq, Repr

/-- A call of `ServeChunk`. -/
structure Serve where
  /-- The hash. -/
  hash : String
  /-- Where it is. -/
  pc : ServePc
deriving DecidableEq, Repr

/-- What a call is told by its environment. -/
inductive ServeEvent where
  /-- Go on. -/
  | next
  /-- A system call succeeds or fails. -/
  | sys (ok : Bool)
  /-- A read gets this many bytes. -/
  | read (n : ℕ)

/-- The stretch of a file that a read at an offset gets. -/
def stretch (bs : Bytes) (off n : ℕ) : Bytes := (bs.drop off).take n

/-- `ServeChunk`, one access at a time. -/
def Serve.step (m : MirrorManager) (s : Serve) (e : ServeEvent) : Option Serve :=
  match s.pc, e with
  | .lookup, .next =>
    match m.chunkIdx s.hash with
    | none => some { s with pc := .returned none }
    | some loc => some { s with pc := .opening loc }
  | .opening loc, .sys ok =>
    match if ok then m.disk.names loc.path else none with
    | none => some { s with pc := .returned none }
    | some fd => some { s with pc := .opened loc fd }
  | .opened loc fd, .sys ok =>
    if ok = false ∨ loc.offset < 0 then some { s with pc := .returned none }
    else if loc.size < 0 then some { s with pc := .panicked }
    else some { s with pc := .reading loc fd [] }
  | .reading loc fd got, .read n =>
    let more := stretch (m.disk.data fd) (loc.offset.toNat + got.length) n
    if 0 < n ∧ more.length = n ∧ (got.length + n : ℤ) ≤ loc.size then
      some { s with pc := .reading loc fd (got ++ more) }
    else none
  | .reading loc _ got, .next =>
    if got.length = loc.size then some { s with pc := .returned (some got) } else none
  | .reading _ _ _, .sys ok =>
    -- An error, or the end of the file.
    if ok then none else some { s with pc := .returned none }
  | _, _ => none

/-- A mirror and the calls it serves. -/
structure Serving where
  /-- The mirror. -/
  mirror : MirrorManager
  /-- The calls. -/
  serves : List Serve

namespace Serving

/-- What happens. -/
inductive Event where
  /-- Something happens to the mirror. -/
  | mirror (e : Mirror.Event)
  /-- `ServeChunk` is called. -/
  | call (hash : String)
  /-- A call takes a step. -/
  | serve (j : ℕ) (e : ServeEvent)

/-- A step.  The calls do not survive the process. -/
def step (E : Env) (S : Serving) : Event → Option Serving
  | .mirror .restart => (S.mirror.step E .restart).map fun m ↦ ⟨m, []⟩
  | .mirror e => (S.mirror.step E e).map fun m ↦ { S with mirror := m }
  | .call hash => some { S with serves := S.serves ++ [⟨hash, .lookup⟩] }
  | .serve j e =>
    S.serves[j]?.bind fun s ↦ (s.step S.mirror e).map fun s' ↦
      { S with serves := S.serves.set j s' }

/-- A process that has just started. -/
def start (E : Env) (d : Disk FileName) : Serving := ⟨.start E d, []⟩

end Serving

/-! ## What the index says about a file -/

/-- If a place in a file can be read at all, what is there has the hash. -/
def HasChunk (E : Env) (bs : Bytes) (hash : String) (loc : ChunkLoc) : Prop :=
  0 ≤ loc.offset →
    ((stretch bs loc.offset.toNat loc.size.toNat).length : ℤ) = loc.size →
    E.chunkHashMatches (stretch bs loc.offset.toNat loc.size.toNat) hash = true

/-- A file, if it is there, is made up of the listed chunks, all of `chunk_size` bytes but the last,
which is not longer. -/
def LaidOut (E : Env) (d : Disk FileName) (f : ContentFile) : Prop :=
  ∀ bs, d.read (E.abs f.path) = some bs → ∃ chunks, bs = chunks.flatten ∧
    Matches E chunks f.chunkHashes ∧ (∀ c ∈ chunks.dropLast, (c.length : ℤ) = f.chunkSize) ∧
    (∀ c ∈ chunks.getLast?, (c.length : ℤ) ≤ f.chunkSize) ∧ (bs.length : ℤ) = f.size

variable {E : Env}

theorem stretch_middle (pre mid post : Bytes) :
    stretch (pre ++ (mid ++ post)) pre.length mid.length = mid := by
  rw [stretch, List.drop_left, List.take_left]

variable {f : ContentFile} {chunks : List Bytes} {hashes : List String}

/-- The size that the code gives a chunk is its length. -/
theorem size_chunk {off : ℕ} {c : Bytes}
    (hinit : ∀ b ∈ (c :: chunks).dropLast, (b.length : ℤ) = f.chunkSize)
    (hlast : ∀ b ∈ (c :: chunks).getLast?, (b.length : ℤ) ≤ f.chunkSize)
    (hsize : f.size = off + (c :: chunks).flatten.length) :
    (if f.size - off < f.chunkSize then f.size - off else f.chunkSize) = (c.length : ℤ) := by
  rw [List.flatten_cons, List.length_append] at hsize
  cases chunks with
  | nil =>
    have hc := hlast c rfl
    rw [List.flatten_nil, List.length_nil] at hsize
    split <;> omega
  | cons b bs =>
    have hc := hinit c (by simp)
    rw [if_neg (by omega), hc]

/-- The entries that one file adds to the index are right, for a file that is laid out. -/
theorem hasChunk_indexFile (hm : Matches E chunks hashes) (pre : Bytes)
    (idx : String → Option ChunkLoc) (hinit : ∀ c ∈ chunks.dropLast, (c.length : ℤ) = f.chunkSize)
    (hlast : ∀ c ∈ chunks.getLast?, (c.length : ℤ) ≤ f.chunkSize)
    (hsize : f.size = pre.length + chunks.flatten.length) {hash : String} {loc : ChunkLoc}
    (h : E.indexFile f hashes pre.length idx hash = some loc) :
    idx hash = some loc ∨
      loc.path = E.abs f.path ∧ HasChunk E (pre ++ chunks.flatten) hash loc := by
  induction hm generalizing pre idx with
  | nil => exact Or.inl h
  | @cons c hash' chunks hashes hc hm ih =>
    rw [Env.indexFile] at h
    simp only [size_chunk hinit hlast hsize] at h
    rw [← Nat.cast_add, ← List.length_append] at h
    rw [List.flatten_cons] at hsize ⊢
    have hinit' : ∀ b ∈ chunks.dropLast, (b.length : ℤ) = f.chunkSize := fun b hb ↦
      hinit b (by cases chunks <;> simp_all)
    have hlast' : ∀ b ∈ chunks.getLast?, (b.length : ℤ) ≤ f.chunkSize := fun b hb ↦
      hlast b (by cases chunks <;> simp_all)
    have hsize' : f.size = (pre ++ c).length + chunks.flatten.length := by
      rw [hsize, List.length_append, List.length_append]
      omega
    rcases ih (pre ++ c) _ hinit' hlast' hsize' h with hidx | ⟨hpath, hchunk⟩
    · rw [Function.update_apply] at hidx
      split at hidx
      · rename_i heq
        cases hidx
        refine Or.inr ⟨rfl, fun _ _ ↦ ?_⟩
        rw [Int.toNat_natCast, Int.toNat_natCast, stretch_middle, heq]
        exact hc
      · exact Or.inl hidx
    · rw [List.append_assoc] at hchunk
      exact Or.inr ⟨hpath, hchunk⟩

theorem path_indexFile {off : ℤ} {idx : String → Option ChunkLoc} {hash : String} {loc : ChunkLoc}
    (h : E.indexFile f hashes off idx hash = some loc) :
    idx hash = some loc ∨ loc.path = E.abs f.path := by
  induction hashes generalizing off idx with
  | nil => exact Or.inl h
  | cons hash' hashes ih =>
    rcases ih h with hidx | hpath
    · rw [Function.update_apply] at hidx
      split at hidx
      · cases hidx
        exact Or.inr rfl
      · exact Or.inl hidx
    · exact Or.inr hpath

/-- What is under the name in an entry, if anything, has the chunk. -/
def Sound (E : Env) (d : Disk FileName) (hash : String) (loc : ChunkLoc) : Prop :=
  ∀ bs, d.read loc.path = some bs → HasChunk E bs hash loc

/-- **The index is right when it is built**, if the files are laid out. -/
theorem sound_buildChunkIndex {d : Disk FileName} {files : List ContentFile}
    (h : ∀ f ∈ files, LaidOut E d f) :
    ∀ hash loc, E.buildChunkIndex files hash = some loc → Sound E d hash loc := by
  refine List.foldlRecOn
    (motive := fun idx : String → Option ChunkLoc ↦
      ∀ hash loc, idx hash = some loc → Sound E d hash loc) files _ (by simp) ?_
  intro idx hidx f hf hash loc hloc bs hbs
  rcases path_indexFile hloc with hold | hpath
  · exact hidx hash loc hold bs hbs
  · rw [hpath] at hbs
    obtain ⟨chunks, rfl, hm, hinit, hlast, hsize⟩ := h f hf bs hbs
    rcases hasChunk_indexFile hm [] idx hinit hlast (by simpa using hsize.symm) hloc with
      hold | ⟨-, hchunk⟩
    · exact hidx hash loc hold _ (hpath ▸ hbs)
    · exact hchunk

/-! ## Careful steps -/

/-- The files that a call has open. -/
def ServePc.fds : ServePc → List ℕ
  | .opened _ fd | .reading _ fd _ => [fd]
  | _ => []

namespace Serving

/-- A place where a chunk is looked for: the index has it, or a call has taken it from an index. -/
def Held (S : Serving) (hash : String) (loc : ChunkLoc) : Prop :=
  S.mirror.chunkIdx hash = some loc ∨ ⟨hash, .opening loc⟩ ∈ S.serves

/-- A system call does not put anything else in the place of a chunk. -/
def Keeps (E : Env) (d : Disk FileName) (op : Disk.Op FileName) (hash : String) (loc : ChunkLoc) :
    Prop :=
  match op with
  | .remove _ => True
  | .rename a b => loc.path = b → ∀ i ∈ d.names a, HasChunk E (d.data i) hash loc
  | op => op.Spares d loc.path

/-- **A careful step.** -/
def Careful (E : Env) (S : Serving) : Event → Prop
  | .mirror (.sync i e) =>
    (∀ op ∈ opOf E S.mirror i e,
      (∀ hash loc, S.Held hash loc → Keeps E S.mirror.disk op hash loc) ∧
      ∀ s ∈ S.serves, ∀ fd ∈ s.pc.fds, fd ∉ op.inodes S.mirror.disk) ∧
    ∀ s ∈ S.mirror.syncs[i]?, s.pc = .index → ∀ f ∈ s.sm.files, LaidOut E S.mirror.disk f
  | _ => True

/-! ## What is known about a call -/

/-- What a call relies on. -/
def PcSound (E : Env) (d : Disk FileName) (hash : String) : ServePc → Prop
  | .opening loc => Sound E d hash loc
  | .opened loc fd => fd < d.next ∧ HasChunk E (d.data fd) hash loc
  | .reading loc fd got =>
    fd < d.next ∧ HasChunk E (d.data fd) hash loc ∧ 0 ≤ loc.offset ∧
      got <+: (d.data fd).drop loc.offset.toNat
  | .returned (some chunk) => E.chunkHashMatches chunk hash = true
  | _ => True

/-- **The invariant**: the index is right, and so are the calls. -/
structure Inv (E : Env) (S : Serving) : Prop where
  /-- The index. -/
  index : ∀ hash loc, S.mirror.chunkIdx hash = some loc → Sound E S.mirror.disk hash loc
  /-- The calls. -/
  serves : ∀ s ∈ S.serves, PcSound E S.mirror.disk s.hash s.pc

variable {d : Disk FileName} {op : Disk.Op FileName} {hash : String} {loc : ChunkLoc}
  {S S' : Serving}

/-! ## The mirror takes a step -/

theorem sound_apply (h : Sound E d hash loc) (hop : Keeps E d op hash loc) :
    Sound E (d.apply op) hash loc := by
  intro bs hbs
  cases op with
  | openTrunc n | write i off data =>
    rw [Disk.read_apply hop] at hbs
    exact h bs hbs
  | rename a b =>
    rcases eq_or_ne loc.path b with hb | hb
    · rcases ha : d.names a with _ | i
      · rw [Disk.read_rename_of_none ha] at hbs
        exact h bs hbs
      · rw [hb, Disk.read_rename ha] at hbs
        cases hbs
        exact hop hb i ha
    · rcases Disk.read_rename_of_ne (d := d) (a := a) hb with heq | heq
      · exact h bs (heq ▸ hbs)
      · rw [heq] at hbs
        cases hbs
  | remove n =>
    rw [Disk.read_remove] at hbs
    split at hbs
    · cases hbs
    · exact h bs hbs

theorem pcSound_apply {pc : ServePc} (h : PcSound E d hash pc)
    (hopening : ∀ loc, pc = .opening loc → Keeps E d op hash loc)
    (hfds : ∀ fd ∈ pc.fds, fd ∉ op.inodes d) : PcSound E (d.apply op) hash pc := by
  cases pc with
  | opening loc => exact sound_apply h (hopening loc rfl)
  | opened loc fd =>
    refine ⟨h.1.trans_le (Disk.next_le_apply d op), ?_⟩
    rw [Disk.data_apply h.1 (hfds fd (List.mem_singleton_self fd))]
    exact h.2
  | reading loc fd got =>
    refine ⟨h.1.trans_le (Disk.next_le_apply d op), ?_⟩
    rw [Disk.data_apply h.1 (hfds fd (List.mem_singleton_self fd))]
    exact h.2
  | lookup | panicked => trivial
  | returned out => cases out <;> exact h

/-- A careful system call keeps the invariant. -/
theorem Inv.apply (h : Inv E S)
    (hheld : ∀ hash loc, S.Held hash loc → Keeps E S.mirror.disk op hash loc)
    (hfds : ∀ s ∈ S.serves, ∀ fd ∈ s.pc.fds, fd ∉ op.inodes S.mirror.disk) :
    Inv E { S with mirror := { S.mirror with disk := S.mirror.disk.apply op } } := by
  refine ⟨fun hash loc hloc ↦ ?_, fun s hs ↦ ?_⟩
  · exact sound_apply (h.index hash loc hloc) (hheld hash loc (Or.inl hloc))
  · refine pcSound_apply (h.serves s hs) (fun loc hpc ↦ hheld _ loc (Or.inr ?_)) (hfds s hs)
    rw [← hpc]
    exact hs

variable {st : Step}

/-- Only the step that builds the index replaces it. -/
theorem pc_of_setIndex {s : Sync} {gen : ℕ} {e : SyncEvent} {files : List ContentFile}
    (hst : s.step E gen d e = some st) (hcall : st.call = some (.setIndex files)) :
    s.pc = .index ∧ s.sm.files = files ∧ st.op = none := by
  cases Sync.moves_of_step hst with
  | index hpc => exact ⟨hpc, by simpa using hcall, rfl⟩
  | _ => exact absurd hcall (by simp [Sync.goto])

theorem chunkIdx_perform {m : MirrorManager} {i : ℕ}
    (h : ∀ files, st.call ≠ some (.setIndex files)) :
    (m.perform E i st).chunkIdx = m.chunkIdx := by
  rw [MirrorManager.perform]
  dsimp only
  split
  · rename_i files heq
    exact absurd heq (h files)
  · rfl

/-- A goroutine of the mirror takes a step: it replaces the index, or it makes a system call, or it
does neither. -/
theorem Inv.perform (h : Inv E S) {i : ℕ} {e : SyncEvent} {s : Sync}
    (hi : S.mirror.syncs[i]? = some s) (hst : s.step E S.mirror.gen S.mirror.disk e = some st)
    (hc : Careful E S (.mirror (.sync i e))) :
    Inv E { S with mirror := S.mirror.perform E i st } := by
  obtain ⟨hops, hindex⟩ := hc
  have hdisk : (S.mirror.perform E i st).disk =
      st.op.elim S.mirror.disk S.mirror.disk.apply := rfl
  by_cases hcall : ∃ files, st.call = some (.setIndex files)
  · obtain ⟨files, hcall⟩ := hcall
    obtain ⟨hpc, hfiles, hop⟩ := pc_of_setIndex hst hcall
    refine ⟨?_, ?_⟩
    · simp only [MirrorManager.perform, hcall, hop, Option.elim_none]
      exact sound_buildChunkIndex (hfiles ▸ hindex s hi hpc)
    · simpa only [MirrorManager.perform, hop, Option.elim_none] using h.serves
  · have hidx := chunkIdx_perform (E := E) (m := S.mirror) (i := i) (not_exists.mp hcall)
    cases hop : st.op with
    | none =>
      rw [hop, Option.elim_none] at hdisk
      exact ⟨by rw [hidx, hdisk]; exact h.index, by rw [hdisk]; exact h.serves⟩
    | some op =>
      rw [hop, Option.elim_some] at hdisk
      obtain ⟨hheld, hfds⟩ := hops op ((opOf_eq hi hst).trans hop)
      have happ := h.apply hheld hfds
      exact ⟨by rw [hidx, hdisk]; exact happ.index, by rw [hdisk]; exact happ.serves⟩

theorem append_stretch_prefix {bs got : Bytes} {off : ℕ} (h : got <+: bs.drop off) (n : ℕ) :
    got ++ stretch bs (off + got.length) n <+: bs.drop off := by
  obtain ⟨rest, hrest⟩ := h
  rw [stretch, ← List.drop_drop, ← hrest, List.drop_left]
  exact (List.prefix_append_right_inj got).mpr (List.take_prefix n rest)

/-- A call takes a step. -/
theorem pcSound_step {s s' : Serve} {m : MirrorManager} {e : ServeEvent}
    (hindex : ∀ hash loc, m.chunkIdx hash = some loc → Sound E m.disk hash loc)
    (h : PcSound E m.disk s.hash s.pc) (hs : s.step m e = some s') :
    PcSound E m.disk s'.hash s'.pc := by
  unfold Serve.step at hs
  split at hs <;> rename_i hpc
  all_goals try rw [hpc] at h
  case h_1 =>
    split at hs <;> cases hs
    · trivial
    · rename_i loc hloc
      exact hindex s.hash loc hloc
  case h_2 loc ok =>
    split at hs <;> cases hs
    · trivial
    · rename_i fd hfd
      split at hfd
      · exact ⟨m.disk.fresh _ _ hfd, h _ (by rw [Disk.read, hfd, Option.map_some])⟩
      · cases hfd
  case h_3 loc fd ok =>
    repeat' split at hs
    all_goals cases hs
    · trivial
    · trivial
    · rename_i hoff _
      exact ⟨h.1, h.2, by simp only [not_or, not_lt] at hoff; exact hoff.2, List.nil_prefix⟩
  case h_4 loc fd got n =>
    dsimp only at hs
    split at hs <;> cases hs
    obtain ⟨hfd, hchunk, hoff, hgot⟩ := h
    exact ⟨hfd, hchunk, hoff, append_stretch_prefix hgot n⟩
  case h_5 loc fd got =>
    split at hs <;> cases hs
    rename_i hlen
    obtain ⟨-, hchunk, hoff, hgot⟩ := h
    have hall : stretch (m.disk.data fd) loc.offset.toNat loc.size.toNat = got := by
      rw [stretch, ← hlen, Int.toNat_natCast]
      exact (List.prefix_iff_eq_take.mp hgot).symm
    have hmatch := hchunk hoff
    rw [hall] at hmatch
    exact hmatch hlen
  case h_6 loc fd got ok =>
    split at hs <;> cases hs
    trivial
  case h_7 => cases hs

theorem inv_start (E : Env) (d : Disk FileName) : Inv E (start E d) :=
  ⟨fun _ _ hloc ↦ absurd hloc (by simp [start, MirrorManager.start]),
    fun _ hs ↦ absurd hs List.not_mem_nil⟩

theorem Inv.step (h : Inv E S) {e : Event} (hc : Careful E S e) (hs : S.step E e = some S') :
    Inv E S' := by
  cases e with
  | mirror e =>
    cases e with
    | manifest raw =>
      cases hs
      rcases S.mirror.onContentManifest_cases E raw with heq | ⟨sm, -, -, heq⟩ <;> rw [heq]
      all_goals exact ⟨h.index, h.serves⟩
    | sync i e =>
      obtain ⟨m, hm, rfl⟩ := Option.map_eq_some_iff.mp hs
      obtain ⟨s, st, hi, hst, rfl⟩ := MirrorManager.step_sync hm
      exact h.perform hi hst hc
    | restart =>
      cases hs
      exact { inv_start E S.mirror.disk with }
  | call hash =>
    cases hs
    refine ⟨h.index, fun s hs ↦ ?_⟩
    rcases List.mem_append.mp hs with hs | hs
    · exact h.serves s hs
    · rw [List.mem_singleton.mp hs]
      trivial
  | serve j e =>
    obtain ⟨s, hj, hs⟩ := Option.bind_eq_some_iff.mp hs
    obtain ⟨s', hstep, rfl⟩ := Option.map_eq_some_iff.mp hs
    refine ⟨h.index, fun t ht ↦ ?_⟩
    rcases List.mem_or_eq_of_mem_set ht with ht | rfl
    · exact h.serves t ht
    · exact pcSound_step h.index (h.serves s (List.mem_of_getElem? hj)) hstep

/-- **Served chunks are sound**: from any disk, in every run all of whose steps are careful, a chunk
that a call has returned has the hash the call was made with. -/
theorem sound_of_exec {E : Env} {d : Disk FileName} {es : List Event} {S : Serving}
    (hrun : exec (step E) (start E d) es = some S)
    (hcareful : Along (step E) (Careful E) (start E d) es) {s : Serve} (hs : s ∈ S.serves)
    {chunk : Bytes} (hpc : s.pc = .returned (some chunk)) :
    E.chunkHashMatches chunk s.hash = true := by
  have hinv : Inv E S :=
    inv_of_exec_along (fun h hc hs ↦ Inv.step h hc hs) (inv_start E d) hcareful hrun
  have hsound := hinv.serves s hs
  rw [hpc] at hsound
  exact hsound

/-! ## Two runs -/

/-- A call of `ServeChunk` that gets a chunk of one byte. -/
def demoServe (hash : String) : List Event :=
  [.call hash, .serve 0 .next, .serve 0 (.sys true), .serve 0 (.sys true), .serve 0 (.read 1),
    .serve 0 .next]

/-- What the first call has returned after a run. -/
def answer (E : Env) (d : Disk FileName) (es : List Event) : Option Serve :=
  (exec (step E) (start E d) es).bind fun S ↦ S.serves.head?

theorem answer_eq_some {d : Disk FileName} {es : List Event} {s : Serve}
    (h : answer E d es = some s) : ∃ S, exec (step E) (start E d) es = some S ∧ s ∈ S.serves := by
  obtain ⟨S, hS, hs⟩ := Option.bind_eq_some_iff.mp h
  exact ⟨S, hS, List.mem_of_mem_head? hs⟩

/-- A disk with the file and the state file of an earlier manifest. -/
def stockedDisk : Disk FileName :=
  (((Disk.empty.apply (.openTrunc (demoEnv.abs "a"))).apply (.write 0 0 [7])).apply
    (.openTrunc demoEnv.statePath)).apply (.write 1 0 [1])

/-- An environment in which the third manifest does not have the file any more. -/
def shrinkingEnv : Env :=
  { demoEnv with
    unmarshal := fun raw ↦
      match raw with
      | [3] => .ok ⟨"content", 3, [], "sig"⟩
      | raw => demoEnv.unmarshal raw }

/-- The second manifest is mirrored, but the state file cannot be written, and the chunk is asked
for.  While it is being looked up, the third manifest comes, and the file is removed after it has
been opened and before it is read. -/
def removalRun : List Event :=
  .mirror (.manifest [2]) ::
    ([.next, .next, .next, .next, .next, .next, .sys false, .next] : List SyncEvent).map
      (fun e ↦ .mirror (.sync 0 e)) ++
    [.call "07", .serve 0 .next, .mirror (.manifest [3]), .mirror (.sync 1 .next),
      .mirror (.sync 1 .next), .mirror (.sync 1 .next), .serve 0 (.sys true),
      .mirror (.sync 1 (.remove "a" true)), .serve 0 (.sys true), .mirror (.sync 1 .next),
      .mirror (.sync 1 .next), .mirror (.sync 1 (.sys false)), .serve 0 (.read 1),
      .mirror (.sync 1 .next), .serve 0 .next]

/-- A step of that run: at most the file is removed, and it is right when it is indexed. -/
def Removes (S : Serving) : Event → Prop
  | .mirror (.sync i e) =>
    (∀ op ∈ opOf shrinkingEnv S.mirror i e, op = .remove (shrinkingEnv.abs "a")) ∧
      ∀ s ∈ S.mirror.syncs[i]?, s.pc = .index → ∀ f ∈ s.sm.files,
        f = ⟨"a", 1, 16, ["07"]⟩ ∧ S.mirror.disk.read (shrinkingEnv.abs "a") = some [7]
  | _ => True

instance (S : Serving) (e : Event) : Decidable (Removes S e) := by
  unfold Removes
  split <;> infer_instance

theorem careful_of_removes (S : Serving) (e : Event) (h : Removes S e) :
    Careful shrinkingEnv S e := by
  unfold Careful
  split
  · rename_i i e
    refine ⟨fun op hop ↦ ?_, fun s hs hpc f hf bs hbs ↦ ?_⟩
    · rw [h.1 op hop]
      exact ⟨fun _ _ _ ↦ trivial, fun _ _ _ _ ↦ List.not_mem_nil⟩
    · obtain ⟨rfl, hread⟩ := h.2 s hs hpc f hf
      rw [hread, Option.some_inj] at hbs
      rw [← hbs]
      exact ⟨[[7]], rfl, List.Forall₂.cons (by decide +kernel) List.Forall₂.nil, by simp, by simp,
        rfl⟩
  · trivial

theorem sound_of_exec_demo :
    ∃ S s, exec (step shrinkingEnv) (start shrinkingEnv stockedDisk) removalRun = some S ∧
      s ∈ S.serves ∧ s = ⟨"07", .returned (some [7])⟩ ∧
      shrinkingEnv.chunkHashMatches [7] s.hash = true := by
  have hrun : answer shrinkingEnv stockedDisk removalRun =
      some ⟨"07", .returned (some [7])⟩ := by decide +kernel
  obtain ⟨S, hS, hs⟩ := answer_eq_some hrun
  have hes : Along (step shrinkingEnv) Removes (start shrinkingEnv stockedDisk) removalRun := by
    decide +kernel
  exact ⟨S, _, hS, hs, rfl, sound_of_exec hS (hes.mono careful_of_removes) hs rfl⟩

/-- An environment in which the chunk of a manifest is its time stamp. -/
def versionEnv : Env :=
  { demoEnv with
    unmarshal := fun raw ↦
      match raw with
      | [ts] => .ok ⟨"content", ts.toNat, [⟨"a", 1, 16, [Bytes.hexEncode [ts]]⟩], "sig"⟩
      | _ => .error "unexpected end of JSON input" }

/-- A manifest is mirrored up to the rename. -/
def replaceSteps (i : ℕ) (ts : UInt8) : List Event :=
  .mirror (.manifest [ts]) ::
    ([.next, .next, .next, .next, .next, .sys true, .sys true, .next, .fetched [none] (some [ts]),
      .wrote 1, .next, .sys true, .sys true] : List SyncEvent).map fun e ↦ .mirror (.sync i e)

/-- From the rename to the new index. -/
def indexSteps (i : ℕ) : List Event :=
  ([.sys true, .next, .sys true, .wrote 1, .next] : List SyncEvent).map fun e ↦ .mirror (.sync i e)

/-- **A wrong chunk**: the first version is complete and indexed, the second has replaced the file
but not the index, and the chunk of the first is asked for. -/
theorem wrong_chunk :
    ∃ S s, exec (step versionEnv) (start versionEnv .empty)
        (replaceSteps 0 7 ++ indexSteps 0 ++ replaceSteps 1 8 ++ demoServe "07") = some S ∧
      s ∈ S.serves ∧ s.hash = "07" ∧ s.pc = .returned (some [8]) ∧
      versionEnv.chunkHashMatches [8] "07" = false := by
  have hrun : answer versionEnv .empty
      (replaceSteps 0 7 ++ indexSteps 0 ++ replaceSteps 1 8 ++ demoServe "07") =
        some ⟨"07", .returned (some [8])⟩ := by decide +kernel
  obtain ⟨S, hS, hs⟩ := answer_eq_some hrun
  exact ⟨S, _, hS, hs, rfl, rfl, by decide +kernel⟩

end Serving

end TunnelCat.Mirror
