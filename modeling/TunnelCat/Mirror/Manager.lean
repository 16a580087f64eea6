import TunnelCat.Lib.Disk
import TunnelCat.Lib.FileName
import TunnelCat.Lib.Outcome
import TunnelCat.Lib.Trace

/-!
# The mirror

`MirrorManager` keeps a directory in step with a signed list of files.  Every manifest that is newer
than the last one starts a goroutine, `sync`, which removes the files that are not listed any more,
fetches what has changed chunk by chunk into a temporary file, renames it into place, writes the
manifest to a state file and, if nothing failed, announces that the mirror is complete.

A goroutine for an older manifest is not stopped.  It compares its *generation* with the current one
at certain points and gives up when they differ, so between two of those points it may go on
while the next one is at work on the same directory.

A step of `Sync.step` is one access to shared state: a check of the generation, one system call, one
answer from the network.  All that can go wrong is in the events: a system call may fail, a
write may stop halfway, a chunk may not be had.  What the steps do to the disk is one `Disk.Op`
at most.  `Sync.Moves` lists the steps with their guards; what is proved of all steps is proved by
cases on it.

`encoding/json`, the hash function and the signature scheme are parameters.
-/

set_option autoImplicit false

open Bytes

namespace TunnelCat.Mirror

/-- `contentFile`. -/
structure ContentFile where
  /-- `path`. -/
  path : String
  /-- `size`. -/
  size : ℤ
  /-- `chunk_size`. -/
  chunkSize : ℤ
  /-- `chunk_hashes`. -/
  chunkHashes : List String
deriving DecidableEq, Repr

/-- `signedContentManifest`. -/
structure SignedContentManifest where
  /-- `type`. -/
  type : String
  /-- `ts`. -/
  ts : ℤ
  /-- `files`. -/
  files : List ContentFile
  /-- `sig`. -/
  sig : String
deriving DecidableEq, Repr

/-- `chunkLoc`. -/
structure ChunkLoc where
  /-- The file. -/
  path : FileName
  /-- Where the chunk starts. -/
  offset : ℤ
  /-- Its length. -/
  size : ℤ
deriving DecidableEq, Repr

/-- The configuration of a `MirrorManager` and what it calls that is not in this repository. -/
structure Env where
  /-- The public key of the arbiter; without one, signatures are not checked. -/
  pubkey : Option Bytes
  /-- The directory. -/
  dataDir : FileName
  /-- `json.Unmarshal` into `signedContentManifest`. -/
  unmarshal : Bytes → Except String SignedContentManifest
  /-- `json.Marshal` of the type, the time stamp and the files. -/
  canonical : String → ℤ → List ContentFile → Bytes
  /-- `base64.RawURLEncoding.DecodeString`. -/
  base64Decode : String → Option Bytes
  /-- `ed25519.Verify` of a public key, a message and a signature. -/
  ed25519Verify : Bytes → Bytes → Bytes → Bool
  /-- `sha256.Sum256`. -/
  sha256 : Bytes → Bytes
  /-- The verb `%q` of `fmt`. -/
  quote : String → String

namespace Env

variable (E : Env)

/-- Where a listed file goes. -/
def abs (path : String) : FileName := E.dataDir.join path

/-- Where it is put together. -/
def tmp (path : String) : FileName := (E.abs path).withSuffix ".part"

/-- `statePath`. -/
def statePath : FileName := E.dataDir.join ".manifest.json"

/-- `verify`. -/
def verify (data : Bytes) : Outcome SignedContentManifest :=
  match E.unmarshal data with
  | .error e => .err ("parse: " ++ e)
  | .ok sm =>
    if sm.type ≠ "content" then .err ("unexpected manifest type " ++ E.quote sm.type)
    else
      match E.pubkey with
      | none => .ok sm
      | some key =>
        match E.base64Decode sm.sig with
        | none => .err "signature verification failed"
        | some sig =>
          if E.ed25519Verify key (E.canonical sm.type sm.ts sm.files) sig then .ok sm
          else .err "signature verification failed"

/-- `chunkHashMatches`. -/
def chunkHashMatches (data : Bytes) (hash : String) : Bool :=
  hexEncode (E.sha256 data) = hash.toLower

/-- `fetchChunk`, of what the peers answer one after the other and what the relay answers; `none` is
an error, or a peer that does not have the chunk. -/
def fetchChunk (peers : List (Option Bytes)) (relay : Option Bytes) (hash : String) :
    Option Bytes :=
  match peers.find? fun a ↦ a.any fun data ↦ E.chunkHashMatches data hash with
  | some a => a
  | none => relay.filter fun data ↦ E.chunkHashMatches data hash

/-- `loadPrevFileList`, as the list of the entries of the map. -/
def loadPrevFileList (state : Option Bytes) : List ContentFile :=
  match state.map E.unmarshal with
  | some (.ok sm) => sm.files
  | _ => []

/-- What `buildChunkIndex` makes of the hashes of one file. -/
def indexFile (f : ContentFile) :
    List String → ℤ → (String → Option ChunkLoc) → String → Option ChunkLoc
  | [], _, idx => idx
  | hash :: hashes, offset, idx =>
    let size := if f.size - offset < f.chunkSize then f.size - offset else f.chunkSize
    indexFile f hashes (offset + size)
      (Function.update idx hash (some ⟨E.abs f.path, offset, size⟩))

/-- `buildChunkIndex`. -/
def buildChunkIndex (files : List ContentFile) : String → Option ChunkLoc :=
  files.foldl (fun idx f ↦ E.indexFile f f.chunkHashes 0 idx) fun _ ↦ none

end Env

/-- An entry of a map that was filled from a list: the last one with the key. -/
def lookupFile (files : List ContentFile) (path : String) : Option ContentFile :=
  files.reverse.find? fun f ↦ f.path = path

/-- `sync` skips a file: the previous manifest has it with the same chunks (`sameChunks`). -/
def unchanged (prev : List ContentFile) (f : ContentFile) : Bool :=
  match lookupFile prev f.path with
  | some p => p.chunkHashes = f.chunkHashes
  | none => false

/-- The files that `sync` removes: those of the previous manifest that the new one does not have. -/
def obsolete (prev files : List ContentFile) : List String :=
  (prev.map ContentFile.path).dedup.filter fun p ↦ p ∉ files.map ContentFile.path

/-! ## One synchronisation -/

/-- A temporary file that is being written. -/
structure Temp where
  /-- The open file. -/
  fd : ℕ
  /-- Its offset. -/
  off : ℕ
  /-- How many chunks are in it. -/
  chunks : ℕ
deriving DecidableEq, Repr

/-- Where a goroutine is, from the moment its manifest is accepted. -/
inductive Pc where
  /-- `OnContentManifest`: before `setContentFn`. -/
  | accepted
  /-- `OnContentManifest`: before `setCompleteFn` and the start of `sync`. -/
  | gossiped
  /-- `sync`: before the state file is read. -/
  | start
  /-- `sync`: these files are still to be removed. -/
  | deleting (todo : List String)
  /-- `sync`: before the check at the top of the loop, or after the loop. -/
  | loop
  /-- `syncFile`: before `MkdirAll`. -/
  | mkdir (f : ContentFile)
  /-- `syncFile`: before the temporary file is opened. -/
  | create (f : ContentFile)
  /-- `syncFile`: before the next chunk. -/
  | chunk (f : ContentFile) (t : Temp)
  /-- `syncFile`: in `fetchChunk`. -/
  | fetch (f : ContentFile) (t : Temp) (hash : String)
  /-- `syncFile`: before a chunk is written. -/
  | write (f : ContentFile) (t : Temp) (data : Bytes)
  /-- `syncFile`: before the temporary file is closed. -/
  | close (f : ContentFile) (t : Temp)
  /-- `syncFile`: before it is renamed. -/
  | rename (f : ContentFile) (t : Temp)
  /-- `syncFile`: before the deferred `Remove`. -/
  | cleanup (f : ContentFile) (synced : Bool)
  /-- `sync`: before the state file is opened. -/
  | persist
  /-- `sync`: before it is written. -/
  | persistWrite (fd : ℕ)
  /-- `sync`: before the index is built. -/
  | index
  /-- `sync`: before `setCompleteFn`. -/
  | announce
  /-- Over. -/
  | done
deriving DecidableEq, Repr

/-- A goroutine. -/
structure Sync where
  /-- The manifest, as it was received. -/
  raw : Bytes
  /-- The manifest. -/
  sm : SignedContentManifest
  /-- Its generation. -/
  gen : ℕ
  /-- `prevFiles`. -/
  prev : List ContentFile
  /-- The files that are still to come. -/
  rest : List ContentFile
  /-- The files that were skipped or renamed into place. -/
  settled : List ContentFile
  /-- Whether no file has failed. -/
  ok : Bool
  /-- Where it is. -/
  pc : Pc
deriving DecidableEq, Repr

/-- What a goroutine is told by its environment. -/
inductive SyncEvent where
  /-- Go on. -/
  | next
  /-- Remove this file next, and the call succeeds or fails. -/
  | remove (path : String) (ok : Bool)
  /-- A system call succeeds or fails. -/
  | sys (ok : Bool)
  /-- The answers to a request for a chunk. -/
  | fetched (peers : List (Option Bytes)) (relay : Option Bytes)
  /-- A write gets this many bytes to the disk. -/
  | wrote (n : ℕ)

/-- A call to the rest of the program. -/
inductive Call where
  /-- `setContentFn`. -/
  | setContent (raw : Bytes) (ts : ℤ)
  /-- `setCompleteFn`. -/
  | setComplete (ts : ℤ) (complete : Bool)
  /-- `chunkIdx` is replaced. -/
  | setIndex (files : List ContentFile)
deriving DecidableEq, Repr

/-- What one step of a goroutine does. -/
structure Step where
  /-- The goroutine afterwards. -/
  sync : Sync
  /-- The system call that changes the disk. -/
  op : Option (Disk.Op FileName)
  /-- The call to the rest of the program. -/
  call : Option Call

namespace Sync

/-- A step that only moves on. -/
def goto (s : Sync) (pc : Pc) : Step := ⟨{ s with pc := pc }, none, none⟩

/-- `syncFile` has returned an error: `sync` goes on with the next file. -/
def failed (s : Sync) : Sync := { s with ok := false, pc := .loop }

/-- Where `sync` goes on after the state file. -/
def afterPersist (s : Sync) : Pc := if s.ok then .index else .done

/-- `sync` and `syncFile`, and the end of `OnContentManifest`, for the current generation `gen` and
the disk `d`. -/
def step (E : Env) (gen : ℕ) (d : Disk FileName) (s : Sync) (e : SyncEvent) : Option Step :=
  match s.pc, e with
  | .accepted, .next =>
    some ⟨{ s with pc := .gossiped }, none, some (.setContent s.raw s.sm.ts)⟩
  | .gossiped, .next =>
    some ⟨{ s with pc := .start }, none, some (.setComplete s.sm.ts false)⟩
  | .start, .next =>
    let prev := E.loadPrevFileList (d.read E.statePath)
    some ⟨{ s with prev := prev, pc := .deleting (obsolete prev s.sm.files) }, none, none⟩
  | .deleting todo, .remove p ok =>
    if p ∈ todo then
      some ⟨{ s with pc := .deleting (todo.erase p) },
        if ok then some (.remove (E.abs p)) else none, none⟩
    else none
  | .deleting [], .next => some (s.goto .loop)
  | .loop, .next =>
    if s.gen ≠ gen then some (s.goto .done)
    else
      match s.rest with
      | [] => some (s.goto .persist)
      | f :: rest =>
        if unchanged s.prev f then
          some ⟨{ s with rest := rest, settled := s.settled ++ [f] }, none, none⟩
        else some ⟨{ s with rest := rest, pc := .mkdir f }, none, none⟩
  | .mkdir f, .sys ok => some (if ok then s.goto (.create f) else ⟨s.failed, none, none⟩)
  | .create f, .sys ok =>
    some (if ok then
      ⟨{ s with pc := .chunk f ⟨d.fd (E.tmp f.path), 0, 0⟩ }, some (.openTrunc (E.tmp f.path)),
        none⟩
    else ⟨s.failed, none, none⟩)
  | .chunk f t, .next =>
    match f.chunkHashes[t.chunks]? with
    | none => some (s.goto (.close f t))
    | some hash => some (s.goto (if s.gen ≠ gen then .cleanup f false else .fetch f t hash))
  | .fetch f t hash, .fetched peers relay =>
    match E.fetchChunk peers relay hash with
    | none => some (s.goto (.cleanup f false))
    | some data => some (s.goto (.write f t data))
  | .write f t data, .wrote n =>
    if n = data.length then
      some ⟨{ s with pc := .chunk f ⟨t.fd, t.off + n, t.chunks + 1⟩ },
        some (.write t.fd t.off data), none⟩
    else if n < data.length then
      some ⟨{ s with pc := .cleanup f false }, some (.write t.fd t.off (data.take n)), none⟩
    else none
  | .close f t, .sys ok => some (s.goto (if ok then .rename f t else .cleanup f false))
  | .rename f _, .sys ok =>
    -- There is nothing to rename if the temporary name is not bound any more.
    if ok = true ∧ d.names (E.tmp f.path) ≠ none then
      some ⟨{ s with settled := s.settled ++ [f], pc := .cleanup f true },
        some (.rename (E.tmp f.path) (E.abs f.path)), none⟩
    else some (s.goto (.cleanup f false))
  | .cleanup f synced, .sys ok =>
    some ⟨if synced then { s with pc := .loop } else s.failed,
      if ok then some (.remove (E.tmp f.path)) else none, none⟩
  | .persist, .sys ok =>
    some (if ok then
      ⟨{ s with pc := .persistWrite (d.fd E.statePath) }, some (.openTrunc E.statePath), none⟩
    else s.goto s.afterPersist)
  | .persistWrite fd, .wrote n =>
    if n ≤ s.raw.length then
      some ⟨{ s with pc := s.afterPersist }, some (.write fd 0 (s.raw.take n)), none⟩
    else none
  | .index, .next => some ⟨{ s with pc := .announce }, none, some (.setIndex s.sm.files)⟩
  | .announce, .next =>
    some ⟨{ s with pc := .done }, none, some (.setComplete s.sm.ts true)⟩
  | _, _ => none

/-- The steps of a goroutine, one by one, with what is known when it takes them. -/
inductive Moves (E : Env) (gen : ℕ) (d : Disk FileName) (s : Sync) : SyncEvent → Step → Prop where
  /-- `setContentFn` is called. -/
  | accepted (hpc : s.pc = .accepted) :
    Moves E gen d s .next ⟨{ s with pc := .gossiped }, none, some (.setContent s.raw s.sm.ts)⟩
  /-- `setCompleteFn` is called with `false`. -/
  | gossiped (hpc : s.pc = .gossiped) :
    Moves E gen d s .next ⟨{ s with pc := .start }, none, some (.setComplete s.sm.ts false)⟩
  /-- The state file is read. -/
  | start (hpc : s.pc = .start) :
    Moves E gen d s .next
      ⟨{ s with
        prev := E.loadPrevFileList (d.read E.statePath)
        pc := .deleting (obsolete (E.loadPrevFileList (d.read E.statePath)) s.sm.files) },
        none, none⟩
  /-- A file that is not listed any more is removed. -/
  | delete {todo : List String} {p : String} {ok : Bool} (hpc : s.pc = .deleting todo)
    (hp : p ∈ todo) :
    Moves E gen d s (.remove p ok) ⟨{ s with pc := .deleting (todo.erase p) },
      if ok then some (.remove (E.abs p)) else none, none⟩
  /-- All of them have been removed. -/
  | deleted (hpc : s.pc = .deleting []) : Moves E gen d s .next (s.goto .loop)
  /-- There is a newer generation. -/
  | superseded (hpc : s.pc = .loop) (hgen : s.gen ≠ gen) : Moves E gen d s .next (s.goto .done)
  /-- There are no more files. -/
  | through (hpc : s.pc = .loop) (hgen : s.gen = gen) (hrest : s.rest = []) :
    Moves E gen d s .next (s.goto .persist)
  /-- A file has not changed. -/
  | skip {f : ContentFile} {rest : List ContentFile} (hpc : s.pc = .loop) (hgen : s.gen = gen)
    (hrest : s.rest = f :: rest) (hun : unchanged s.prev f = true) :
    Moves E gen d s .next ⟨{ s with rest := rest, settled := s.settled ++ [f] }, none, none⟩
  /-- A file is to be fetched. -/
  | take {f : ContentFile} {rest : List ContentFile} (hpc : s.pc = .loop) (hgen : s.gen = gen)
    (hrest : s.rest = f :: rest) (hun : unchanged s.prev f = false) :
    Moves E gen d s .next ⟨{ s with rest := rest, pc := .mkdir f }, none, none⟩
  /-- Its directory is there. -/
  | mkdir {f : ContentFile} (hpc : s.pc = .mkdir f) :
    Moves E gen d s (.sys true) (s.goto (.create f))
  /-- Its directory cannot be made. -/
  | notMkdir {f : ContentFile} (hpc : s.pc = .mkdir f) :
    Moves E gen d s (.sys false) ⟨s.failed, none, none⟩
  /-- The temporary file is made. -/
  | create {f : ContentFile} (hpc : s.pc = .create f) :
    Moves E gen d s (.sys true) ⟨{ s with pc := .chunk f ⟨d.fd (E.tmp f.path), 0, 0⟩ },
      some (.openTrunc (E.tmp f.path)), none⟩
  /-- It cannot be made. -/
  | notCreated {f : ContentFile} (hpc : s.pc = .create f) :
    Moves E gen d s (.sys false) ⟨s.failed, none, none⟩
  /-- All chunks are there. -/
  | last {f : ContentFile} {t : Temp} (hpc : s.pc = .chunk f t)
    (hend : f.chunkHashes[t.chunks]? = none) : Moves E gen d s .next (s.goto (.close f t))
  /-- The next chunk is to be fetched. -/
  | chunk {f : ContentFile} {t : Temp} {hash : String} (hpc : s.pc = .chunk f t)
    (hhash : f.chunkHashes[t.chunks]? = some hash) (hgen : s.gen = gen) :
    Moves E gen d s .next (s.goto (.fetch f t hash))
  /-- There is a newer generation before the next chunk. -/
  | stale {f : ContentFile} {t : Temp} {hash : String} (hpc : s.pc = .chunk f t)
    (hhash : f.chunkHashes[t.chunks]? = some hash) (hgen : s.gen ≠ gen) :
    Moves E gen d s .next (s.goto (.cleanup f false))
  /-- The chunk has come. -/
  | fetch {f : ContentFile} {t : Temp} {hash : String} {peers : List (Option Bytes)}
    {relay : Option Bytes} {data : Bytes} (hpc : s.pc = .fetch f t hash)
    (hdata : E.fetchChunk peers relay hash = some data) :
    Moves E gen d s (.fetched peers relay) (s.goto (.write f t data))
  /-- Nobody has the chunk. -/
  | notFetched {f : ContentFile} {t : Temp} {hash : String} {peers : List (Option Bytes)}
    {relay : Option Bytes} (hpc : s.pc = .fetch f t hash)
    (hnone : E.fetchChunk peers relay hash = none) :
    Moves E gen d s (.fetched peers relay) (s.goto (.cleanup f false))
  /-- The chunk is written. -/
  | write {f : ContentFile} {t : Temp} {data : Bytes} (hpc : s.pc = .write f t data) :
    Moves E gen d s (.wrote data.length)
      ⟨{ s with pc := .chunk f ⟨t.fd, t.off + data.length, t.chunks + 1⟩ },
        some (.write t.fd t.off data), none⟩
  /-- Some of the chunk is written. -/
  | notWritten {f : ContentFile} {t : Temp} {data : Bytes} {n : ℕ} (hpc : s.pc = .write f t data)
    (hn : n < data.length) :
    Moves E gen d s (.wrote n)
      ⟨{ s with pc := .cleanup f false }, some (.write t.fd t.off (data.take n)), none⟩
  /-- The temporary file is closed. -/
  | close {f : ContentFile} {t : Temp} (hpc : s.pc = .close f t) :
    Moves E gen d s (.sys true) (s.goto (.rename f t))
  /-- It cannot be closed. -/
  | notClosed {f : ContentFile} {t : Temp} (hpc : s.pc = .close f t) :
    Moves E gen d s (.sys false) (s.goto (.cleanup f false))
  /-- It is renamed. -/
  | rename {f : ContentFile} {t : Temp} (hpc : s.pc = .rename f t)
    (hbound : d.names (E.tmp f.path) ≠ none) :
    Moves E gen d s (.sys true) ⟨{ s with settled := s.settled ++ [f], pc := .cleanup f true },
      some (.rename (E.tmp f.path) (E.abs f.path)), none⟩
  /-- It cannot be renamed. -/
  | notRenamed {f : ContentFile} {t : Temp} {ok : Bool} (hpc : s.pc = .rename f t)
    (hnot : ¬(ok = true ∧ d.names (E.tmp f.path) ≠ none)) :
    Moves E gen d s (.sys ok) (s.goto (.cleanup f false))
  /-- What is left of it is removed. -/
  | cleanup {f : ContentFile} {synced ok : Bool} (hpc : s.pc = .cleanup f synced) :
    Moves E gen d s (.sys ok) ⟨if synced then { s with pc := .loop } else s.failed,
      if ok then some (.remove (E.tmp f.path)) else none, none⟩
  /-- The state file is opened. -/
  | persist (hpc : s.pc = .persist) :
    Moves E gen d s (.sys true) ⟨{ s with pc := .persistWrite (d.fd E.statePath) },
      some (.openTrunc E.statePath), none⟩
  /-- The state file cannot be opened. -/
  | notPersisted (hpc : s.pc = .persist) : Moves E gen d s (.sys false) (s.goto s.afterPersist)
  /-- The state file is written, as far as that goes. -/
  | persistWrite {fd n : ℕ} (hpc : s.pc = .persistWrite fd) (hn : n ≤ s.raw.length) :
    Moves E gen d s (.wrote n)
      ⟨{ s with pc := s.afterPersist }, some (.write fd 0 (s.raw.take n)), none⟩
  /-- The index is built. -/
  | index (hpc : s.pc = .index) :
    Moves E gen d s .next ⟨{ s with pc := .announce }, none, some (.setIndex s.sm.files)⟩
  /-- `setCompleteFn` is called with `true`. -/
  | announce (hpc : s.pc = .announce) :
    Moves E gen d s .next ⟨{ s with pc := .done }, none, some (.setComplete s.sm.ts true)⟩

theorem moves_of_step {E : Env} {gen : ℕ} {d : Disk FileName} {s : Sync} {e : SyncEvent} {st : Step}
    (hst : s.step E gen d e = some st) : s.Moves E gen d e st := by
  unfold step at hst
  split at hst <;> rename_i hpc
  case h_1 => cases hst; exact .accepted hpc
  case h_2 => cases hst; exact .gossiped hpc
  case h_3 => cases hst; exact .start hpc
  case h_4 todo p ok =>
    split at hst <;> cases hst
    rename_i hp
    exact .delete hpc hp
  case h_5 => cases hst; exact .deleted hpc
  case h_6 =>
    split at hst
    · rename_i hgen
      cases hst
      exact .superseded hpc hgen
    rename_i hgen
    rw [ne_eq, not_not] at hgen
    split at hst
    · rename_i hrest
      cases hst
      exact .through hpc hgen hrest
    rename_i f rest hrest
    split at hst <;> rename_i hun <;> cases hst
    · exact .skip hpc hgen hrest hun
    · exact .take hpc hgen hrest (Bool.eq_false_iff.mpr hun)
  case h_7 f ok =>
    cases hst
    cases ok with
    | false => exact .notMkdir hpc
    | true => exact .mkdir hpc
  case h_8 f ok =>
    cases hst
    cases ok with
    | false => exact .notCreated hpc
    | true => exact .create hpc
  case h_9 f t =>
    split at hst
    · rename_i hend
      cases hst
      exact .last hpc hend
    · rename_i hash hhash
      cases hst
      by_cases hgen : s.gen = gen
      · rw [if_neg (not_not.mpr hgen)]
        exact .chunk hpc hhash hgen
      · rw [if_pos hgen]
        exact .stale hpc hhash hgen
  case h_10 f t hash peers relay =>
    split at hst <;> cases hst
    · rename_i hnone
      exact .notFetched hpc hnone
    · rename_i data hdata
      exact .fetch hpc hdata
  case h_11 f t data n =>
    split at hst
    · rename_i hn
      cases hst
      subst hn
      exact .write hpc
    · split at hst <;> rename_i hn <;> cases hst
      exact .notWritten hpc hn
  case h_12 f t ok =>
    cases hst
    cases ok with
    | false => exact .notClosed hpc
    | true => exact .close hpc
  case h_13 f t ok =>
    split at hst <;> rename_i hren <;> cases hst
    · obtain ⟨rfl, hbound⟩ := hren
      exact .rename hpc hbound
    · exact .notRenamed hpc hren
  case h_14 f synced ok => cases hst; exact .cleanup hpc
  case h_15 ok =>
    cases hst
    cases ok with
    | false => exact .notPersisted hpc
    | true => exact .persist hpc
  case h_16 fd n =>
    split at hst <;> rename_i hn <;> cases hst
    exact .persistWrite hpc hn
  case h_17 => cases hst; exact .index hpc
  case h_18 => cases hst; exact .announce hpc
  case h_19 => cases hst

end Sync

/-! ## The manager -/

/-- `MirrorManager`, its goroutines and the disk. -/
structure MirrorManager where
  /-- The time stamp of the newest manifest. -/
  ts : ℤ
  /-- The current generation. -/
  gen : ℕ
  /-- `chunkIdx`. -/
  chunkIdx : String → Option ChunkLoc
  /-- The goroutines. -/
  syncs : List Sync
  /-- The disk. -/
  disk : Disk FileName
  /-- Record: the calls to the rest of the program. -/
  calls : List Call

/-- What happens. -/
inductive Event where
  /-- `OnContentManifest` is called. -/
  | manifest (raw : Bytes)
  /-- A goroutine takes a step. -/
  | sync (i : ℕ) (e : SyncEvent)
  /-- The process ends, and another one starts with `NewMirrorManager` and `LoadCached`. -/
  | restart

namespace MirrorManager

variable (E : Env)

/-- The time stamp `LoadCached` finds. -/
def cachedTS (d : Disk FileName) : ℤ :=
  match (d.read E.statePath).map E.unmarshal with
  | some (.ok sm) => sm.ts
  | _ => 0

/-- A process that has just started. -/
def start (d : Disk FileName) : MirrorManager := ⟨cachedTS E d, 0, fun _ ↦ none, [], d, []⟩

/-- A manifest that was accepted. -/
def accept (m : MirrorManager) (raw : Bytes) (sm : SignedContentManifest) : MirrorManager :=
  { m with
    ts := sm.ts
    gen := m.gen + 1
    syncs := m.syncs ++ [⟨raw, sm, m.gen + 1, [], sm.files, [], true, .accepted⟩] }

/-- `OnContentManifest`, up to the end of its critical section. -/
def onContentManifest (m : MirrorManager) (raw : Bytes) : MirrorManager :=
  match E.verify raw with
  | .ok sm => if sm.ts ≤ m.ts then m else m.accept raw sm
  | _ => m

/-- The effect of a step of the goroutine at `i`. -/
def perform (m : MirrorManager) (i : ℕ) (st : Step) : MirrorManager :=
  { m with
    syncs := m.syncs.set i st.sync
    disk := st.op.elim m.disk m.disk.apply
    chunkIdx :=
      match st.call with
      | some (.setIndex files) => E.buildChunkIndex files
      | _ => m.chunkIdx
    calls := m.calls ++ st.call.toList }

/-- A step. -/
def step (m : MirrorManager) : Event → Option MirrorManager
  | .manifest raw => some (m.onContentManifest E raw)
  | .sync i e =>
    m.syncs[i]?.bind fun s ↦ (s.step E m.gen m.disk e).map fun st ↦ m.perform E i st
  | .restart => some { start E m.disk with calls := m.calls }

variable {E}

/-- A manifest is dropped, or it is newer than the last one and starts a goroutine. -/
theorem onContentManifest_cases (E : Env) (m : MirrorManager) (raw : Bytes) :
    m.onContentManifest E raw = m ∨ ∃ sm, E.verify raw = .ok sm ∧ m.ts < sm.ts ∧
      m.onContentManifest E raw = m.accept raw sm := by
  unfold onContentManifest
  split
  · rename_i sm hsm
    split
    · exact Or.inl rfl
    · rename_i hts
      exact Or.inr ⟨sm, hsm, Int.not_le.mp hts, rfl⟩
  · exact Or.inl rfl

theorem step_manifest {m m' : MirrorManager} {raw : Bytes}
    (h : m.step E (.manifest raw) = some m') :
    m' = m ∨ ∃ sm, E.verify raw = .ok sm ∧ m.ts < sm.ts ∧ m' = m.accept raw sm := by
  rw [step, Option.some_inj] at h
  subst h
  exact m.onContentManifest_cases E raw

/-- A step of a goroutine is a step of one that is there. -/
theorem step_sync {m m' : MirrorManager} {i : ℕ} {e : SyncEvent}
    (h : m.step E (.sync i e) = some m') :
    ∃ s st, m.syncs[i]? = some s ∧ s.step E m.gen m.disk e = some st ∧ m' = m.perform E i st := by
  obtain ⟨s, hi, h⟩ := Option.bind_eq_some_iff.mp h
  obtain ⟨st, hst, rfl⟩ := Option.map_eq_some_iff.mp h
  exact ⟨s, st, hi, hst, rfl⟩

end MirrorManager

end TunnelCat.Mirror
