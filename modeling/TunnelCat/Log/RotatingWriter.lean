import TunnelCat.Lib.Disk
import TunnelCat.Lib.Filing
import TunnelCat.Lib.Trace

/-!
# Log files that are rotated

A `rotatingWriter` appends what is logged to a file, and begins another file when the next record
would make it longer than `maxBytes`.  The name of a file is made from the time it is opened at, to
the second, and it is opened to append, so the next file can be an old one.

When the next file cannot be opened, the old one is closed already, and the record goes to the
standard error "so the message is not lost".  But the writer goes on with the closed file and with
the size it had: a later record that would still have fitted into it does not make the writer try
again.  It is written to the closed file, which is an error, and nobody looks at it.

`Logs` is the writer with all it writes to, and an event has the answers of the operating system.
`dest` is where a record goes, if anywhere, and `accounts_exec` says that every file, and the
standard error, has exactly the records that went there.  `records_kept_iff` is the exact condition
for none to be missing: after a failure every record makes the writer try again (`Retries`).
-/

set_option autoImplicit false

open Filing Trace

namespace TunnelCat.Log

/-! ## The writer -/

/-- The primitives of the writer. -/
structure Env where
  /-- `Format("2006-01-02_150405")` of a reading of the clock. -/
  format : ℤ → String
  /-- `filepath.Join`. -/
  join : String → String → String

/-- An `os.File`. -/
structure File where
  /-- The name it was opened under. -/
  name : String
  /-- The inode it is. -/
  inode : ℕ
  /-- Whether it has been closed. -/
  closed : Bool
  deriving DecidableEq, Repr

/-- `rotatingWriter`. -/
structure RotatingWriter where
  /-- `dir`. -/
  dir : String
  /-- `prefix`. -/
  namePrefix : String
  /-- `maxBytes`. -/
  maxBytes : ℤ
  /-- `f`. -/
  f : File
  /-- `written`. -/
  written : ℤ
  deriving DecidableEq, Repr

/-- A writer, and all that it writes to. -/
structure Logs where
  /-- The writer. -/
  writer : RotatingWriter
  /-- The disk. -/
  disk : Disk String
  /-- The files it has opened so far. -/
  opened : List ℕ
  /-- What it has written to the standard error. -/
  stderr : Bytes

/-- The name of the file that is opened at a time. -/
def logName (E : Env) (dir namePrefix : String) (now : ℤ) : String :=
  E.join dir (namePrefix ++ E.format now ++ ".log")

/-- `openNewLocked`, with the error of `os.OpenFile` and whether `Stat` works: the disk, the file,
and its size as far as it is known. -/
def openNewLocked (E : Env) (dir namePrefix : String) (disk : Disk String) (now : ℤ)
    (openErr : Option String) (statOk : Bool) : Except String (Disk String × File × ℤ) :=
  match openErr with
  | some err => .error ("log rotate: " ++ err)
  | none =>
    let name := logName E dir namePrefix now
    let i := disk.fd name
    let disk := disk.openAppend name
    .ok (disk, ⟨name, i, false⟩, if statOk then ((disk.content i).length : ℤ) else 0)

/-- `newRotatingWriter`. -/
def newRotatingWriter (E : Env) (dir namePrefix : String) (maxBytes : ℤ) (disk : Disk String)
    (now : ℤ) (openErr : Option String) (statOk : Bool) : Except String Logs :=
  match openNewLocked E dir namePrefix disk now openErr statOk with
  | .error err => .error err
  | .ok (disk, f, written) =>
    .ok ⟨⟨dir, namePrefix, maxBytes, f, written⟩, disk, [f.inode], []⟩

namespace Logs

/-- `rw.f.Write(p)` and the end of `Write`: the number of bytes, and the error. -/
def append (s : Logs) (p : Bytes) : Logs × ℕ × Option String :=
  if s.writer.f.closed then (s, 0, some ("write " ++ s.writer.f.name ++ ": file already closed"))
  else
    ({ s with
        disk := s.disk.apply
          (.write s.writer.f.inode (s.disk.data s.writer.f.inode).length p)
        writer := { s.writer with written := s.writer.written + p.length } },
      p.length, none)

/-- The writer has closed its file. -/
def close (s : Logs) : Logs :=
  { s with writer := { s.writer with f := { s.writer.f with closed := true } } }

/-- The writer has opened another file. -/
def goOn (s : Logs) (disk : Disk String) (f : File) (written : ℤ) : Logs :=
  { s with
    writer := { s.writer with f := f, written := written }
    disk := disk
    opened := s.opened ++ [f.inode] }

/-- `Write`: the number of bytes, and the error. -/
def write (E : Env) (s : Logs) (p : Bytes) (now : ℤ) (openErr : Option String) (statOk : Bool) :
    Logs × ℕ × Option String :=
  if s.writer.written + p.length > s.writer.maxBytes then
    let s := s.close
    match openNewLocked E s.writer.dir s.writer.namePrefix s.disk now openErr statOk with
    | .error _ => ({ s with stderr := s.stderr ++ p }, p.length, none)
    | .ok (disk, f, written) => (s.goOn disk f written).append p
  else s.append p

end Logs

/-- What can happen. -/
inductive LogEvent where
  /-- A record is written, with what happens if the writer begins another file. -/
  | write (p : Bytes) (now : ℤ) (openErr : Option String) (statOk : Bool)
  /-- `pruneLogFiles` removes a file. -/
  | remove (n : String)

/-- The record of an event. -/
def LogEvent.record : LogEvent → Option Bytes
  | .write p _ _ _ => some p
  | .remove _ => none

/-- The records that are written. -/
def records (es : List LogEvent) : List Bytes := es.filterMap LogEvent.record

theorem records_cons (e : LogEvent) (es : List LogEvent) :
    records (e :: es) = e.record.toList ++ records es := by
  rw [records, List.filterMap_cons]
  cases e.record with
  | none => rfl
  | some p => rfl

/-- Where a record can go. -/
inductive Dest where
  /-- The standard error. -/
  | stderr
  /-- A file. -/
  | file (i : ℕ)
  deriving DecidableEq, Repr

namespace Logs

/-- One event. -/
def step (E : Env) (s : Logs) : LogEvent → Option Logs
  | .write p now openErr statOk => some (s.write E p now openErr statOk).1
  | .remove n =>
    if (s.disk.names n).isSome then some { s with disk := s.disk.apply (.remove n) } else none

/-- What has been written to a place. -/
def text (s : Logs) : Dest → Bytes
  | .stderr => s.stderr
  | .file i => s.disk.content i

variable {E : Env} {s t : Logs} {e : LogEvent} {p : Bytes} {now : ℤ} {openErr : Option String}
  {statOk : Bool}

/-- The writer at the beginning of another file. -/
def rotated (E : Env) (s : Logs) (now : ℤ) (statOk : Bool) : Logs :=
  let name := logName E s.writer.dir s.writer.namePrefix now
  let i := s.disk.fd name
  let disk := s.disk.openAppend name
  s.close.goOn disk ⟨name, i, false⟩ (if statOk then ((disk.content i).length : ℤ) else 0)

/-- What an event does. -/
inductive Moves (E : Env) (s : Logs) : LogEvent → Logs → Prop where
  /-- A file is removed. -/
  | remove (n : String) : Moves E s (.remove n) { s with disk := s.disk.apply (.remove n) }
  /-- The next file cannot be opened, and the record goes to the standard error. -/
  | fail (p : Bytes) (now : ℤ) (err : String) (statOk : Bool)
    (h : s.writer.written + p.length > s.writer.maxBytes) :
    Moves E s (.write p now (some err) statOk) { s.close with stderr := s.stderr ++ p }
  /-- The record is written to the next file. -/
  | rotate (p : Bytes) (now : ℤ) (statOk : Bool)
    (h : s.writer.written + p.length > s.writer.maxBytes) :
    Moves E s (.write p now none statOk) ((s.rotated E now statOk).append p).1
  /-- The record is written to the file that is open. -/
  | append (p : Bytes) (now : ℤ) (openErr : Option String) (statOk : Bool)
    (h : ¬s.writer.written + p.length > s.writer.maxBytes) (hopen : s.writer.f.closed = false) :
    Moves E s (.write p now openErr statOk) (s.append p).1
  /-- The record cannot be written. -/
  | drop (p : Bytes) (now : ℤ) (openErr : Option String) (statOk : Bool)
    (h : ¬s.writer.written + p.length > s.writer.maxBytes) (hclosed : s.writer.f.closed = true) :
    Moves E s (.write p now openErr statOk) s

theorem moves_of_step (h : s.step E e = some t) : Moves E s e t := by
  cases e with
  | remove n =>
    rw [step] at h
    split at h
    · rw [← Option.some.inj h]
      exact .remove n
    · exact absurd h (by simp)
  | write p now openErr statOk =>
    rw [step, Option.some_inj] at h
    rw [← h, write]
    split
    · rename_i hrot
      cases openErr with
      | some err => exact .fail p now err statOk hrot
      | none => exact .rotate p now statOk hrot
    · rename_i hfits
      cases hclosed : s.writer.f.closed with
      | true =>
        rw [Logs.append, if_pos hclosed]
        exact .drop p now openErr statOk hfits hclosed
      | false => exact .append p now openErr statOk hfits hclosed

/-! ## Where records go -/

/-- The file of the writer is there, and one that it has opened. -/
structure Wf (s : Logs) : Prop where
  inode_lt : s.writer.f.inode < s.disk.next
  inode_mem : s.writer.f.inode ∈ s.opened

/-- Where the record of an event goes, if anywhere. -/
def dest (E : Env) (s : Logs) : LogEvent → Option (Dest × Bytes)
  | .write p now openErr _ =>
    if s.writer.written + p.length > s.writer.maxBytes then
      if openErr.isSome then some (.stderr, p)
      else some (.file (s.disk.fd (logName E s.writer.dir s.writer.namePrefix now)), p)
    else if s.writer.f.closed ∧ p ≠ [] then none
    else some (.file s.writer.f.inode, p)
  | .remove _ => none

/-- From `s` to `t` the texts of `l` have been written, each to its place, and nothing else. -/
structure Accounts (s t : Logs) (l : List (Dest × Bytes)) : Prop where
  wf : t.Wf
  /-- The files are files of the writer. -/
  opened : ∀ i p, (.file i, p) ∈ l → i ∈ t.opened
  mono : s.opened ⊆ t.opened
  text : ∀ k, t.text k = s.text k ++ filed k l

theorem Accounts.refl (hwf : s.Wf) : Accounts s s [] :=
  ⟨hwf, fun _ _ h ↦ absurd h List.not_mem_nil, List.Subset.refl _, fun k ↦ by simp⟩

theorem Accounts.trans {u : Logs} {l l' : List (Dest × Bytes)} (h : Accounts s t l)
    (h' : Accounts t u l') : Accounts s u (l ++ l') := by
  refine ⟨h'.wf, fun i p hmem ↦ ?_, List.Subset.trans h.mono h'.mono, fun k ↦ ?_⟩
  · rcases List.mem_append.mp hmem with hl | hl'
    · exact h'.mono (h.opened i p hl)
    · exact h'.opened i p hl'
  · rw [h'.text, h.text, filed_append, List.append_assoc]

/-- What is written to an open file is in this file. -/
theorem accounts_append (hwf : s.Wf) (hopen : s.writer.f.closed = false) (p : Bytes) :
    Accounts s (s.append p).1 [(.file s.writer.f.inode, p)] := by
  rw [append, hopen, if_neg Bool.false_ne_true]
  refine ⟨⟨hwf.inode_lt, hwf.inode_mem⟩, fun i q hmem ↦ ?_, List.Subset.refl _, fun k ↦ ?_⟩
  · rw [List.mem_singleton, Prod.mk.injEq, Dest.file.injEq] at hmem
    exact hmem.1 ▸ hwf.inode_mem
  · rw [filed_cons, filed_nil, List.append_nil]
    cases k with
    | stderr => rw [if_neg (by simp), List.append_nil]; rfl
    | file j =>
      simp only [Dest.file.injEq]
      exact Disk.content_write_end s.disk hwf.inode_lt p j

/-- Another file is opened as it is, and a new one is empty. -/
theorem accounts_rotated (E : Env) (s : Logs) (now : ℤ) (statOk : Bool) :
    Accounts s (s.rotated E now statOk) [] := by
  refine ⟨⟨s.disk.fd_lt_next_openAppend _, ?_⟩, fun _ _ h ↦ absurd h List.not_mem_nil,
    List.subset_append_left .., fun k ↦ ?_⟩
  · exact List.mem_append_right _ (List.mem_singleton_self _)
  · rw [filed_nil, List.append_nil]
    cases k with
    | stderr => rfl
    | file j => exact Disk.content_openAppend s.disk _ j

/-- Nothing is a text as well. -/
theorem accounts_nil (hwf : s.Wf) : Accounts s s [(.file s.writer.f.inode, [])] := by
  refine ⟨hwf, fun i q hmem ↦ ?_, List.Subset.refl _, fun k ↦ ?_⟩
  · rw [List.mem_singleton, Prod.mk.injEq, Dest.file.injEq] at hmem
    exact hmem.1 ▸ hwf.inode_mem
  · rw [filed_cons, filed_nil, ite_self, List.append_nil, List.append_nil]

/-- What goes to the standard error. -/
theorem accounts_stderr (hwf : s.Wf) (p : Bytes) :
    Accounts s { s.close with stderr := s.stderr ++ p } [(.stderr, p)] := by
  refine ⟨⟨hwf.inode_lt, hwf.inode_mem⟩, fun i q hmem ↦ ?_, List.Subset.refl _, fun k ↦ ?_⟩
  · exact absurd (List.mem_singleton.mp hmem) (by simp)
  · rw [filed_cons, filed_nil, List.append_nil]
    cases k with
    | stderr => rfl
    | file j => rw [if_neg (by simp), List.append_nil]; rfl

/-- A record goes where it goes to, and otherwise nothing is written. -/
theorem accounts_step (hwf : s.Wf) (h : s.step E e = some t) :
    Accounts s t (s.dest E e).toList := by
  cases moves_of_step h with
  | remove n =>
    exact ⟨⟨hwf.inode_lt, hwf.inode_mem⟩, fun _ _ h ↦ absurd h List.not_mem_nil,
      List.Subset.refl _, fun k ↦ (List.append_nil _).symm⟩
  | fail p now err statOk hrot =>
    rw [dest, if_pos hrot]
    exact accounts_stderr hwf p
  | rotate p now statOk hrot =>
    rw [dest, if_pos hrot]
    have hrotated := accounts_rotated E s now statOk
    exact hrotated.trans (accounts_append hrotated.wf rfl p)
  | append p now openErr statOk hfits hopen =>
    rw [dest, if_neg hfits, hopen, if_neg (by simp)]
    exact accounts_append hwf hopen p
  | drop p now openErr statOk hfits hclosed =>
    rw [dest, if_neg hfits]
    split
    · exact Accounts.refl hwf
    · rename_i hp
      rw [not_and, not_ne_iff] at hp
      rw [hp hclosed]
      exact accounts_nil hwf

/-- **What there is at the end of a run**: every place has what it had, and then the records that
went there. -/
theorem accounts_exec (hwf : s.Wf) {es : List LogEvent}
    (h : exec (step E) s es = some t) :
    Accounts s t (observed (step E) (dest E) s es) :=
  Trace.observed_of_exec (P := fun l u ↦ Accounts s u l)
    (fun hacc hstep ↦ hacc.trans (accounts_step hacc.wf hstep)) (Accounts.refl hwf) h

/-! ## Records that are missing -/

/-- A record makes the writer try to begin another file, if it has none that is open. -/
def Retries (s : Logs) : LogEvent → Prop
  | .write p _ _ _ =>
    p ≠ [] → s.writer.f.closed = true → s.writer.written + p.length > s.writer.maxBytes
  | .remove _ => True

instance decidableRetries (s : Logs) : (e : LogEvent) → Decidable (s.Retries e)
  | .write _ _ _ _ => inferInstanceAs (Decidable (_ → _ → _))
  | .remove _ => isTrue trivial

/-- A record goes somewhere, exactly if it makes the writer try again, if it has to. -/
theorem dest_cases (E : Env) (s : Logs) (e : LogEvent) :
    (s.dest E e).map Prod.snd = e.record ∧ s.Retries e ∨
      s.dest E e = none ∧ (∃ p, e.record = some p ∧ p ≠ []) ∧ ¬s.Retries e := by
  cases e with
  | remove n => exact .inl ⟨rfl, trivial⟩
  | write p now openErr statOk =>
    rw [dest, Retries]
    split
    · rename_i hrot
      refine .inl ⟨?_, fun _ _ ↦ hrot⟩
      split <;> rfl
    · rename_i hrot
      split
      · rename_i hdrop
        exact .inr ⟨rfl, ⟨p, rfl, hdrop.2⟩, fun h ↦ hrot (h hdrop.2 hdrop.1)⟩
      · rename_i hkeep
        exact .inl ⟨rfl, fun hp hclosed ↦ absurd ⟨hclosed, hp⟩ hkeep⟩

/-- If every record makes the writer try again that has to, then all of them are seen. -/
theorem records_of_along {es : List LogEvent} (h : exec (step E) s es = some t)
    (halong : Along (step E) Retries s es) :
    (observed (step E) (dest E) s es).map Prod.snd = records es := by
  induction es generalizing s with
  | nil => rfl
  | cons e es ih =>
    obtain ⟨u, hu, hut⟩ := Trace.exec_cons_eq_some.mp h
    rcases dest_cases E s e with ⟨hdest, -⟩ | ⟨-, -, hnot⟩
    · rw [observed_cons hu, List.map_append, ih hut (halong.2 u hu), records_cons, ← hdest]
      cases s.dest E e with
      | none => rfl
      | some x => rfl
    · exact absurd halong.1 hnot

/-- No more is seen than there is, and less if a record does not make the writer try again. -/
theorem total_observed {es : List LogEvent} (h : exec (step E) s es = some t) :
    total (observed (step E) (dest E) s es) ≤ (records es).flatten.length ∧
      (total (observed (step E) (dest E) s es) = (records es).flatten.length →
        Along (step E) Retries s es) := by
  induction es generalizing s with
  | nil => exact ⟨Nat.le_refl _, fun _ ↦ trivial⟩
  | cons e es ih =>
    obtain ⟨u, hu, hut⟩ := Trace.exec_cons_eq_some.mp h
    obtain ⟨hle, heq⟩ := ih hut
    have honly : ∀ v, s.step E e = some v → v = u := fun v hv ↦ Option.some.inj (hv.symm.trans hu)
    rw [observed_cons hu, records_cons, List.flatten_append, List.length_append]
    rcases dest_cases E s e with ⟨hdest, hretries⟩ | ⟨hdest, ⟨p, hp, hne⟩, -⟩
    · rw [← hdest]
      have hadd : total ((s.dest E e).toList ++ observed (step E) (dest E) u es) =
          ((s.dest E e).map Prod.snd).toList.flatten.length +
            total (observed (step E) (dest E) u es) := by
        cases s.dest E e with
        | none => simp
        | some x => simp [total_cons]
      rw [hadd]
      exact ⟨by omega, fun h ↦ ⟨hretries, fun v hv ↦ honly v hv ▸ heq (by omega)⟩⟩
    · -- this one is missing
      have hpos : 0 < p.length := List.length_pos_iff.mpr hne
      rw [hdest, hp, Option.toList_none, List.nil_append, Option.toList_some,
        List.flatten_singleton]
      exact ⟨by omega, fun h ↦ absurd h (by omega)⟩

/-! ## The result -/

theorem wf_newRotatingWriter {dir namePrefix : String} {maxBytes : ℤ} {disk : Disk String}
    (h : newRotatingWriter E dir namePrefix maxBytes disk now openErr statOk = .ok s) : s.Wf := by
  rw [newRotatingWriter, openNewLocked.eq_def] at h
  cases openErr with
  | some err => exact absurd h (by simp)
  | none =>
    rw [← Except.ok.inj h]
    exact ⟨disk.fd_lt_next_openAppend _, List.mem_singleton_self _⟩

/-- **Every record is in a file of the writer or on the standard error, exactly if the writer tries
again after a failure.**  Whatever the writer, the records, the clock and the answers of the
operating system are: there is a place for each record, a file that the writer has opened or the
standard error, such that every place has what it had at the beginning and then the records that
belong there, in their order, exactly if after a failed rotation no record is short enough to be
written to the old file. -/
theorem records_kept_iff (E : Env) (dir namePrefix : String) (maxBytes : ℤ) (disk : Disk String)
    (now : ℤ) (openErr : Option String) (statOk : Bool) {s t : Logs} {es : List LogEvent}
    (hnew : newRotatingWriter E dir namePrefix maxBytes disk now openErr statOk = .ok s)
    (h : exec (step E) s es = some t) :
    (∃ l : List (Dest × Bytes), l.map Prod.snd = records es ∧
        (∀ i p, (.file i, p) ∈ l → i ∈ t.opened) ∧ ∀ k, t.text k = s.text k ++ filed k l) ↔
      Along (step E) Retries s es := by
  have hacc := accounts_exec (wf_newRotatingWriter hnew) h
  refine ⟨?_, fun halong ↦ ⟨_, records_of_along h halong, hacc.opened, hacc.text⟩⟩
  rintro ⟨l, hl, -, htext⟩
  refine (total_observed h).2 ?_
  have hfiled : ∀ k, filed k (observed (step E) (dest E) s es) = filed k l := fun k ↦
    List.append_cancel_left ((hacc.text k).symm.trans (htext k))
  rw [total_eq_of_filed_eq hfiled, total, ← hl, List.flatMap_def]

end Logs

namespace Demo

/-- Names with the seconds in them. -/
def env : Env := ⟨fun now ↦ toString (now / 1000000000), fun dir name ↦ dir ++ "/" ++ name⟩

/-- A writer in an empty directory, with files of four bytes. -/
def newLogs : Except String Logs := newRotatingWriter env "logs" "snc_" 4 Disk.empty 0 none true

/-- Three bytes fit into the first file.  The next two do not, and the next file cannot be opened,
so they go to the standard error; then comes a record. -/
def afterFailure (p : Bytes) : List LogEvent :=
  [.write [1, 2, 3] 0 none true, .write [4, 5] 1000000000 (some "too many open files") true,
    .write p 2000000000 none true]

end Demo

namespace Logs

/-- A record of two bytes does not fit into the old file either, and is kept. -/
theorem records_kept_iff_long :
    ∃ s t, Demo.newLogs = .ok s ∧
      exec (step Demo.env) s (Demo.afterFailure [6, 7]) = some t ∧
      ∃ l : List (Dest × Bytes), l.map Prod.snd = records (Demo.afterFailure [6, 7]) ∧
        (∀ i p, (.file i, p) ∈ l → i ∈ t.opened) ∧ ∀ k, t.text k = s.text k ++ filed k l := by
  refine ⟨_, _, rfl, rfl, ?_⟩
  exact (records_kept_iff Demo.env "logs" "snc_" 4 Disk.empty 0 none true rfl rfl).mpr (by decide)

/-- **A record of one byte would have fitted into the old file, and is lost**: it is neither in the
only file of the writer nor on the standard error. -/
theorem shortRecord_lost :
    ∃ s t, Demo.newLogs = .ok s ∧
      exec (step Demo.env) s (Demo.afterFailure [6]) = some t ∧
      t.opened = [0] ∧ t.text (.file 0) = [1, 2, 3] ∧ t.text .stderr = [4, 5] :=
  ⟨_, _, rfl, rfl, rfl, rfl, rfl⟩

end Logs

end TunnelCat.Log
