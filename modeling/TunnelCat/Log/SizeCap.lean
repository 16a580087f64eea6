import TunnelCat.Log.RotatingWriter

/-!
# The size of the log files

A `rotatingWriter` compares the size of its file with `maxBytes` before it writes a record, and
begins another file if the record does not fit.  It does not compare again: what has been opened is
taken to have room.  It need not have any, since the name has only the second in it and an old file
is appended to; a writer that is given two records in its first second opens its own first file
again, and makes it longer than `maxBytes`.

As long as the writer knows the size of the file it has opened (`KnowsSize`), its counter is the
size of the file (`Counts`), so a record that is written without rotating fits.  `capped_iff` is
what this leaves: no file of a writer that begins in an empty directory is ever too long, exactly if
every rotation finds a file that has room for its record (`HasRoom`).
-/

set_option autoImplicit false

open Filing Trace

namespace TunnelCat.Log

namespace Logs

variable {E : Env} {s t : Logs} {e : LogEvent}

/-- No file of the writer is too long. -/
def Capped (s : Logs) : Prop :=
  ∀ i ∈ s.opened, ((s.disk.content i).length : ℤ) ≤ s.writer.maxBytes

/-- What is in the file that a rotation at this time opens. -/
def found (E : Env) (s : Logs) (now : ℤ) : Bytes :=
  s.disk.content (s.disk.fd (logName E s.writer.dir s.writer.namePrefix now))

/-- If the writer opens another file, then it has room for the record. -/
def HasRoom (E : Env) (s : Logs) : LogEvent → Prop
  | .write p now openErr _ =>
    s.writer.written + p.length > s.writer.maxBytes → openErr = none →
      ((s.found E now).length : ℤ) + p.length ≤ s.writer.maxBytes
  | .remove _ => True

/-- If the writer opens another file, then it is told its size, or the file is empty. -/
def KnowsSize (E : Env) (s : Logs) : LogEvent → Prop
  | .write p now openErr statOk =>
    s.writer.written + p.length > s.writer.maxBytes → openErr = none →
      statOk = true ∨ s.found E now = []
  | .remove _ => True

instance decidableHasRoom (E : Env) (s : Logs) : (e : LogEvent) → Decidable (s.HasRoom E e)
  | .write _ _ _ _ => inferInstanceAs (Decidable (_ → _ → _))
  | .remove _ => isTrue trivial

instance decidableKnowsSize (E : Env) (s : Logs) : (e : LogEvent) → Decidable (s.KnowsSize E e)
  | .write _ _ _ _ => inferInstanceAs (Decidable (_ → _ → _))
  | .remove _ => isTrue trivial

/-! ## The counter -/

/-- The counter is the size of the file, as long as it is open. -/
structure Counts (s : Logs) : Prop where
  wf : s.Wf
  written : s.writer.f.closed = false →
    s.writer.written = (s.disk.content s.writer.f.inode).length

theorem counts_append (h : s.Counts) (hopen : s.writer.f.closed = false) (p : Bytes) :
    (s.append p).1.Counts := by
  refine ⟨(accounts_append h.wf hopen p).wf, fun _ ↦ ?_⟩
  rw [append, hopen, if_neg Bool.false_ne_true]
  dsimp only
  rw [Disk.content_write_end _ h.wf.inode_lt, if_pos rfl, List.length_append, h.written hopen,
    Nat.cast_add]

theorem counts_rotated (now : ℤ) {statOk : Bool} (h : statOk = true ∨ s.found E now = []) :
    (s.rotated E now statOk).Counts := by
  refine ⟨(accounts_rotated E s now statOk).wf, fun _ ↦ ?_⟩
  rw [rotated]
  dsimp only [goOn]
  split
  · rfl
  · rename_i hstat
    have hempty : s.disk.content _ = [] := h.resolve_left hstat
    rw [Disk.content_openAppend, hempty]
    rfl

theorem counts_step (h : s.Counts) (hknows : s.KnowsSize E e) (hstep : s.step E e = some t) :
    t.Counts := by
  have hwf := (accounts_step h.wf hstep).wf
  cases moves_of_step hstep with
  | remove n => exact ⟨hwf, h.written⟩
  | fail p now err statOk hrot => exact ⟨hwf, fun hopen ↦ absurd hopen (by simp [close])⟩
  | rotate p now statOk hrot => exact counts_append (counts_rotated now (hknows hrot rfl)) rfl p
  | append p now openErr statOk hfits hopen => exact counts_append h hopen p
  | drop p now openErr statOk hfits hclosed => exact h

/-! ## One step -/

/-- A record that goes to a file: no file is too long afterwards if none was, and this one has room
for the record. -/
theorem capped_iff_of_accounts {i : ℕ} {p : Bytes} (h : Accounts s t [(.file i, p)])
    (hopened : ∀ j ∈ t.opened, j = i ∨ j ∈ s.opened)
    (hmax : t.writer.maxBytes = s.writer.maxBytes) :
    t.Capped ↔
      s.Capped ∧ ((s.disk.content i).length : ℤ) + p.length ≤ s.writer.maxBytes := by
  have htext : ∀ j, (t.disk.content j).length =
      (s.disk.content j).length + if i = j then p.length else 0 := by
    intro j
    have hj : t.disk.content j = s.disk.content j ++ filed (.file j) [(Dest.file i, p)] :=
      h.text (.file j)
    rw [hj, filed_cons, filed_nil, List.append_nil, List.length_append]
    simp only [Dest.file.injEq]
    split <;> rfl
  have hi : i ∈ t.opened := h.opened i p (List.mem_singleton_self _)
  rw [Capped, Capped, hmax]
  refine ⟨fun hcap ↦ ⟨fun j hj ↦ ?_, ?_⟩, ?_⟩
  · have hle := hcap j (h.mono hj)
    rw [htext j] at hle
    omega
  · have hle := hcap i hi
    rw [htext i, if_pos rfl] at hle
    omega
  · rintro ⟨hcap, hroom⟩ j hj
    rw [htext j]
    split
    · rename_i hij
      rw [← hij]
      omega
    · rename_i hij
      have hle := hcap j ((hopened j hj).resolve_left (Ne.symm hij))
      omega

theorem capped_step_iff (h : s.Counts) (hstep : s.step E e = some t) :
    t.Capped ↔ s.Capped ∧ s.HasRoom E e := by
  have hacc := accounts_step h.wf hstep
  cases moves_of_step hstep with
  | remove n => exact (and_iff_left trivial).symm
  | fail p now err statOk hrot =>
    exact (and_iff_left fun _ herr ↦ absurd herr (by simp)).symm
  | rotate p now statOk hrot =>
    rw [dest, if_pos hrot] at hacc
    rw [capped_iff_of_accounts hacc ?_ rfl]
    · refine and_congr_right fun _ ↦ ?_
      exact ⟨fun hroom _ _ ↦ hroom, fun hroom ↦ hroom hrot rfl⟩
    · intro j hj
      rcases List.mem_append.mp hj with hold | hnew
      · exact .inr hold
      · exact .inl (List.mem_singleton.mp hnew)
  | append p now openErr statOk hfits hopen =>
    have hmove : (s.append p).1.opened = s.opened ∧
        (s.append p).1.writer.maxBytes = s.writer.maxBytes := by
      rw [append, hopen]
      exact ⟨rfl, rfl⟩
    rw [capped_iff_of_accounts (accounts_append h.wf hopen p) (fun j hj ↦ .inr (hmove.1 ▸ hj))
      hmove.2, ← h.written hopen]
    -- the record fits, as the counter says
    refine and_congr_right fun _ ↦ ?_
    exact ⟨fun _ hrot ↦ absurd hrot hfits, fun _ ↦ Int.not_lt.mp hfits⟩
  | drop p now openErr statOk hfits hclosed =>
    exact (and_iff_left fun hrot _ ↦ absurd hrot hfits).symm

/-! ## The result -/

/-- The first file is empty. -/
theorem start_of_newRotatingWriter {dir namePrefix : String} {maxBytes now : ℤ}
    {openErr : Option String} {statOk : Bool}
    (h : newRotatingWriter E dir namePrefix maxBytes Disk.empty now openErr statOk = .ok s) :
    s.Counts ∧ (s.Capped ↔ 0 ≤ maxBytes) := by
  have hwf := wf_newRotatingWriter h
  rw [newRotatingWriter, openNewLocked.eq_def] at h
  cases openErr with
  | some err => exact absurd h (by simp)
  | none =>
    have hempty : ∀ n i, ((Disk.empty : Disk String).openAppend n).content i = [] := by
      intro n i
      rw [Disk.content_openAppend]
      rfl
    obtain rfl := Except.ok.inj h
    refine ⟨⟨hwf, fun _ ↦ ?_⟩, ?_⟩
    · dsimp only
      rw [hempty]
      split <;> rfl
    · rw [Capped]
      dsimp only
      simp only [List.mem_singleton, forall_eq, hempty, List.length_nil, Nat.cast_zero]

/-- **No log file is too long, exactly if every rotation finds a file that has room.**  Take any
writer that begins in an empty directory, and any records, clock and answers of the operating system
for which the writer knows the size of what it opens.  No file it has ever opened is longer than
`maxBytes`, exactly if `maxBytes` is not negative and whenever the writer opens another file, what
is in it and the record together are not longer than `maxBytes`. -/
theorem capped_iff (E : Env) (dir namePrefix : String) (maxBytes now : ℤ) (openErr : Option String)
    (statOk : Bool) (es : List LogEvent) {s t : Logs}
    (hnew : newRotatingWriter E dir namePrefix maxBytes Disk.empty now openErr statOk = .ok s)
    (h : exec (step E) s es = some t) (hknows : Along (step E) (KnowsSize E) s es) :
    t.Capped ↔ 0 ≤ maxBytes ∧ Along (step E) (HasRoom E) s es := by
  obtain ⟨hcounts, hstart⟩ := start_of_newRotatingWriter hnew
  rw [← hstart]
  exact inv_iff_and_along counts_step (fun hs _ hstep ↦ capped_step_iff hs hstep) hcounts
    hknows h

end Logs

/-- Two records of three bytes, of which only one fits into a file; the second one at this time. -/
def Demo.twoRecords (now : ℤ) : List LogEvent :=
  [.write [1, 2, 3] 0 none true, .write [4, 5, 6] now none true]

namespace Logs

/-- One second later there is a file for each. -/
theorem capped_iff_nextSecond :
    ∃ s t, Demo.newLogs = .ok s ∧
      exec (step Demo.env) s (Demo.twoRecords 1000000000) = some t ∧ t.Capped := by
  refine ⟨_, _, rfl, rfl, ?_⟩
  exact (capped_iff Demo.env "logs" "snc_" 4 0 none true (Demo.twoRecords 1000000000) rfl rfl
    (by decide)).mpr (by decide)

/-- **Within the same second the first file is opened again**: it has six bytes then, of four. -/
theorem sameSecond_exceeds :
    ∃ s t, Demo.newLogs = .ok s ∧ s.writer.maxBytes = 4 ∧
      exec (step Demo.env) s (Demo.twoRecords 999999999) = some t ∧
      t.opened = [0, 0] ∧ t.text (.file 0) = [1, 2, 3, 4, 5, 6] :=
  ⟨_, _, rfl, rfl, rfl, rfl, rfl⟩

end Logs

end TunnelCat.Log
