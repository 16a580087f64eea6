import TunnelCat.Lib.Format
import TunnelCat.Lib.Reader
import TunnelCat.Tunnel.Frame

/-!
# Decrypting a stream

The body of a streaming response is a sequence of frames, each a length of four bytes and then that
many sealed bytes.  A `framedDecryptReader` makes a reader of plaintext out of it.  A call of `Read`
hands out what is left of the last plaintext, if anything is; otherwise it reads one more frame from
the source, opens it, and hands out as much of it as the caller's buffer holds.

Three boundaries have nothing to do with each other: where the source cuts the stream into pieces,
where a frame ends, and where the caller's buffer ends.  The first one disappears in the library
(`Reader.readFull_eq`).  For the other two `read_buffered` and `read_empty` say what one call does:
there is something left, or else there is a complete authentic frame next, or there is none.
`exists_returns` is the induction over all calls: they return, frame by frame, the plaintext cut
into chunks (`Splits`), and then an error.

`framedReader_exact` reads off what this means for a stream that was written as it should be, for
one that is cut at some byte, and for one with a frame that does not open.
-/

set_option autoImplicit false

open Bytes

namespace TunnelCat

/-! ## The reader -/

/-- `framedDecryptReader`. -/
structure FramedDecryptReader where
  /-- `src`: the pieces in which the rest of the stream arrives. -/
  src : List Bytes
  /-- The error the stream ends with, if it is not the end of the file. -/
  srcErr : Option String
  /-- `key`. -/
  key : Bytes
  /-- `buf`: what is left of the last plaintext. -/
  buf : Bytes
  /-- The calls of `TunnelMonitor.RecordTunnelRecv`. -/
  recorded : List ℕ
  deriving DecidableEq, Repr

/-- `newFramedDecryptReader`. -/
def newFramedDecryptReader (src : List Bytes) (srcErr : Option String) (key : Bytes) :
    FramedDecryptReader :=
  ⟨src, srcErr, key, [], []⟩

/-- The longest frame a reader accepts. -/
def maxStreamFrame : ℕ := 2 ^ 20

namespace FramedDecryptReader

variable (A : ChaCha20Poly1305)

/-- The error of `io.ReadFull` if the stream ends after `n` bytes of what it was to read. -/
def shortErr (r : FramedDecryptReader) (n : ℕ) : String :=
  r.srcErr.getD (if n = 0 then "EOF" else "unexpected EOF")

/-- `Read` into a buffer for `k` bytes. -/
def read (r : FramedDecryptReader) (k : ℕ) : FramedDecryptReader × Outcome Bytes :=
  if r.buf.length > 0 then ({ r with buf := r.buf.drop k }, .ok (r.buf.take k))
  else
    let lenBuf := Reader.readFull 4 r.src
    let r := { r with src := lenBuf.2 }
    if lenBuf.1.length < 4 then (r, .err (r.shortErr lenBuf.1.length))
    else
      let frameLen := (uint32 lenBuf.1).toNat
      if frameLen > maxStreamFrame then
        (r, .err ("stream frame too large: " ++ toString frameLen))
      else
        let frame := Reader.readFull frameLen r.src
        let r := { r with src := frame.2 }
        if frame.1.length < frameLen then (r, .err (r.shortErr frame.1.length))
        else
          match openFrame A r.key frame.1 with
          | .ok plain =>
            ({ r with
              buf := plain.drop k
              recorded := if (plain.take k).length > 0 then r.recorded ++ [(plain.take k).length]
                else r.recorded },
              .ok (plain.take k))
          | .err err => (r, .err ("stream decrypt: " ++ err))
          | .panic => (r, .panic)

/-- What `n` calls with buffers of these sizes return before the first that does not succeed, and
what that one returns. -/
def run : ℕ → (ℕ → ℕ) → FramedDecryptReader → List Bytes × Option (Outcome Bytes)
  | 0, _, _ => ([], none)
  | n + 1, sizes, r =>
    match r.read A (sizes 0) with
    | (r, .ok chunk) =>
      let rest := run n (fun i ↦ sizes (i + 1)) r
      (chunk :: rest.1, rest.2)
    | (_, out) => ([], some out)

/-- Calls with buffers of these sizes return the chunks one after the other, and then the error. -/
def Returns (r : FramedDecryptReader) (sizes : ℕ → ℕ) (chunks : List Bytes) (err : String) : Prop :=
  ∀ n, run A n sizes r =
    if chunks.length < n then (chunks, some (.err err)) else (chunks.take n, none)

/-! ## One call -/

/-- The plaintext of the first frame of a stream and what follows the frame, if the frame is
complete, not too long and authentic. -/
def nextFrame (key s : Bytes) : Option (Bytes × Bytes) :=
  ((Format.prefixed 4).decode s).bind fun q ↦
    if q.1.length > maxStreamFrame then none
    else
      match openFrame A key q.1 with
      | .ok plain => some (plain, q.2)
      | _ => none

variable {A} {r : FramedDecryptReader}

theorem read_buffered (hbuf : r.buf ≠ []) (k : ℕ) :
    r.read A k = ({ r with buf := r.buf.drop k }, .ok (r.buf.take k)) :=
  if_pos (List.length_pos_iff.mpr hbuf)

theorem openFrame_ne_panic (key data : Bytes) : openFrame A key data ≠ .panic := by
  rw [openFrame]
  split
  · exact Outcome.err_ne_panic _
  split
  · exact Outcome.err_ne_panic _
  split
  · exact Outcome.ok_ne_panic _
  · exact Outcome.err_ne_panic _

/-- **What a call does with an empty buffer**: it takes the next frame off the stream and hands out
the beginning of its plaintext, or it fails. -/
theorem read_empty (hbuf : r.buf = []) (k : ℕ) :
    (∀ plain rest, nextFrame A r.key r.src.flatten = some (plain, rest) →
      ∃ src recorded, src.flatten = rest ∧
        r.read A k = (⟨src, r.srcErr, r.key, plain.drop k, recorded⟩, .ok (plain.take k))) ∧
    (nextFrame A r.key r.src.flatten = none → ∃ r' err, r.read A k = (r', .err err)) := by
  obtain ⟨hlen, hrest⟩ := Reader.readFull_eq 4 r.src
  set s := r.src.flatten
  have huint : (uint32 (s.take 4)).toNat = (uint32 s).toNat := by
    rw [toNat_uint32, toNat_uint32, List.take_take]
    rfl
  rw [read, if_neg (by rw [hbuf]; exact Nat.lt_irrefl 0), nextFrame, Format.decode_prefixed,
    ← toNat_uint32]
  dsimp only
  rw [hlen, huint, List.length_take]
  obtain ⟨hframe, hafter⟩ := Reader.readFull_eq (uint32 s).toNat (Reader.readFull 4 r.src).2
  rw [hrest] at hframe hafter
  rw [List.drop_drop] at hafter
  rw [hframe, List.length_take, List.length_drop]
  by_cases hhead : s.length < 4
  · rw [if_pos (by omega), if_pos (by omega)]
    exact ⟨fun _ _ h ↦ (nomatch h), fun _ ↦ ⟨_, _, rfl⟩⟩
  rw [if_neg (by omega : ¬min 4 s.length < 4)]
  by_cases hlong : (uint32 s).toNat > maxStreamFrame
  · rw [if_pos hlong]
    refine ⟨fun plain rest h ↦ ?_, fun _ ↦ ⟨_, _, rfl⟩⟩
    split at h
    · cases h
    · rw [Option.bind_some, if_pos] at h
      · cases h
      · rw [List.length_take, List.length_drop]
        omega
  rw [if_neg hlong]
  by_cases hshort : s.length < 4 + (uint32 s).toNat
  · rw [if_pos hshort, if_pos (by omega)]
    exact ⟨fun _ _ h ↦ (nomatch h), fun _ ↦ ⟨_, _, rfl⟩⟩
  rw [if_neg hshort, if_neg (by omega), Option.bind_some,
    if_neg (by rw [List.length_take, List.length_drop]; omega)]
  cases hopen : openFrame A r.key ((s.drop 4).take (uint32 s).toNat) with
  | err err => exact ⟨fun _ _ h ↦ (nomatch h), fun _ ↦ ⟨_, _, rfl⟩⟩
  | panic => exact absurd hopen (openFrame_ne_panic _ _)
  | ok plain =>
    refine ⟨fun plain' rest h ↦ ?_, fun h ↦ (nomatch h)⟩
    rw [Option.some_inj, Prod.mk.injEq] at h
    obtain ⟨rfl, rfl⟩ := h
    exact ⟨_, _, hafter, rfl⟩

/-- At the end of the stream the error is the one of the source. -/
theorem read_eof (hbuf : r.buf = []) (hsrc : r.src.flatten = []) (k : ℕ) :
    (r.read A k).2 = .err (r.srcErr.getD "EOF") := by
  have hlen : (Reader.readFull 4 r.src).1.length = 0 := by
    rw [(Reader.readFull_eq 4 r.src).1, hsrc]
    rfl
  rw [read, if_neg (by rw [hbuf]; exact Nat.lt_irrefl 0)]
  dsimp only
  rw [if_pos (by omega), hlen]
  rfl

/-! ## All calls -/

/-- How the plaintext of a frame is handed out: in chunks that are not empty, or, if there is
nothing in it, in one chunk that is. -/
structure Splits (plain : Bytes) (chunks : List Bytes) : Prop where
  /-- The chunks are the plaintext. -/
  flatten : chunks.flatten = plain
  /-- An empty frame is handed out as an empty chunk. -/
  nil : plain = [] → chunks = [[]]
  /-- Only an empty frame is. -/
  cons : plain ≠ [] → [] ∉ chunks

/-- A stream that begins with frames of these plaintexts, and what follows them. -/
def Decodes (A : ChaCha20Poly1305) (key : Bytes) : List Bytes → Bytes → Bytes → Prop
  | [], s, rest => s = rest
  | plain :: plains, s, rest =>
    ∃ s', nextFrame A key s = some (plain, s') ∧ Decodes A key plains s' rest

theorem returns_nil {sizes : ℕ → ℕ} {err : String} (h : (r.read A (sizes 0)).2 = .err err) :
    Returns A r sizes [] err := by
  intro n
  cases n with
  | zero => rfl
  | succ n =>
    have hzero : ([] : List Bytes).length < n + 1 := Nat.succ_pos n
    rw [run, if_pos hzero]
    split
    · rename_i heq
      rw [heq] at h
      cases h
    · rename_i heq
      rw [heq] at h
      rw [← h]

variable {plains : List Bytes} {chunks : List Bytes}

theorem returns_cons {r' : FramedDecryptReader} {sizes : ℕ → ℕ} {chunk : Bytes} {err : String}
    (h : r.read A (sizes 0) = (r', .ok chunk))
    (hrest : Returns A r' (fun i ↦ sizes (i + 1)) chunks err) :
    Returns A r sizes (chunk :: chunks) err := by
  intro n
  cases n with
  | zero => rfl
  | succ n =>
    rw [run, h]
    dsimp only
    rw [hrest n]
    by_cases hn : chunks.length < n
    · rw [if_pos hn, if_pos (by rw [List.length_cons]; omega)]
    · rw [if_neg hn, if_neg (by rw [List.length_cons]; omega), List.take_succ_cons]

theorem eq_nil_of_flatten (hflat : chunks.flatten = []) (hne : [] ∉ chunks) :
    chunks = [] := by
  cases chunks with
  | nil => rfl
  | cons c cs =>
    rw [List.flatten_cons, List.append_eq_nil_iff] at hflat
    rw [hflat.1] at hne
    exact absurd List.mem_cons_self hne

/-- The first chunk of a frame, and the chunks in which the rest of it is handed out. -/
theorem splits_cons {plain : Bytes} {k : ℕ} (hk : 0 < k) {left : List Bytes}
    (hleft : left.flatten = plain.drop k) (hne : [] ∉ left) :
    Splits plain (plain.take k :: left) where
  flatten := by rw [List.flatten_cons, hleft, List.take_append_drop]
  nil := by
    rintro rfl
    rw [List.drop_nil] at hleft
    rw [List.take_nil, eq_nil_of_flatten hleft hne]
  cons := by
    intro hplain
    rw [List.mem_cons, not_or]
    refine ⟨fun h ↦ ?_, hne⟩
    rcases List.take_eq_nil_iff.mp h.symm with h | h
    · omega
    · exact hplain h

/-- **All calls**: what is left in the buffer is handed out in chunks that are not empty, then the
plaintexts of the frames, each split into chunks, and then there is an error. -/
theorem exists_returns {rest : Bytes} (hdec : Decodes A r.key plains r.src.flatten rest)
    (hstop : nextFrame A r.key rest = none) (sizes : ℕ → ℕ) (hpos : ∀ i, 0 < sizes i) :
    ∃ left groups err, left.flatten = r.buf ∧ [] ∉ left ∧ List.Forall₂ Splits plains groups ∧
      Returns A r sizes (left ++ groups.flatten) err ∧ (rest = [] → err = r.srcErr.getD "EOF") := by
  -- every call hands out a byte or finishes a frame, so one number bounds how many there can be
  induction hm : r.buf.length + plains.flatten.length + plains.length
    using Nat.strong_induction_on generalizing r plains sizes with
  | _ m ih =>
    have hk := hpos 0
    by_cases hbuf : r.buf = []
    · cases plains with
      | nil =>
        have hsrc : r.src.flatten = rest := hdec
        obtain ⟨r', err, hread⟩ := (read_empty hbuf (sizes 0)).2 (by rw [hsrc]; exact hstop)
        refine ⟨[], [], err, hbuf.symm, List.not_mem_nil, .nil, returns_nil (by rw [hread]), ?_⟩
        intro hrest
        have heof := read_eof (A := A) hbuf (hsrc.trans hrest) (sizes 0)
        rw [hread, Outcome.err.injEq] at heof
        exact heof
      | cons plain plains =>
        obtain ⟨s', hnext, hdec⟩ := hdec
        obtain ⟨src, recorded, rfl, hread⟩ := (read_empty hbuf (sizes 0)).1 plain s' hnext
        obtain ⟨left, groups, err, hleft, hne, hgroups, hret, herr⟩ :=
          ih _ (by
            simp only [List.flatten_cons, List.length_append, List.length_cons, hbuf,
              List.length_nil] at hm
            rw [← hm, List.length_drop]
            omega)
            (r := ⟨src, r.srcErr, r.key, plain.drop (sizes 0), recorded⟩) hdec hstop
            (fun i ↦ sizes (i + 1)) (fun i ↦ hpos (i + 1)) rfl
        refine ⟨[], (plain.take (sizes 0) :: left) :: groups, err, hbuf.symm, List.not_mem_nil,
          .cons (splits_cons hk hleft hne) hgroups, ?_, herr⟩
        exact returns_cons hread hret
    · obtain ⟨left, groups, err, hleft, hne, hgroups, hret, herr⟩ :=
        ih _ (by
          have := List.length_pos_iff.mpr hbuf
          rw [← hm, List.length_drop]
          omega)
          (r := { r with buf := r.buf.drop (sizes 0) }) hdec hstop
          (fun i ↦ sizes (i + 1)) (fun i ↦ hpos (i + 1)) rfl
      have hsplit := splits_cons hk hleft hne
      exact ⟨r.buf.take (sizes 0) :: left, groups, err, hsplit.flatten, hsplit.cons hbuf, hgroups,
        returns_cons (read_buffered hbuf (sizes 0)) hret, herr⟩

/-- A new reader hands out the plaintexts, each split into chunks, and then there is an error. -/
theorem exists_returns_new {src : List Bytes} {srcErr : Option String} {key : Bytes} {rest : Bytes}
    (hdec : Decodes A key plains src.flatten rest) (hstop : nextFrame A key rest = none)
    (sizes : ℕ → ℕ) (hpos : ∀ i, 0 < sizes i) :
    ∃ groups err, List.Forall₂ Splits plains groups ∧
      Returns A (newFramedDecryptReader src srcErr key) sizes groups.flatten err ∧
      (rest = [] → err = srcErr.getD "EOF") := by
  obtain ⟨left, groups, err, hleft, hne, hgroups, hret, herr⟩ :=
    exists_returns (r := newFramedDecryptReader src srcErr key) hdec hstop sizes hpos
  rw [eq_nil_of_flatten hleft hne, List.nil_append] at hret
  exact ⟨groups, err, hgroups, hret, herr⟩

/-! ## The stream that is written -/

/-- A frame on the wire: its length and the sealed bytes. -/
def onWire (sealed : Bytes) : Bytes := beEncode 4 sealed.length ++ sealed

variable (A) in
/-- What a plaintext is sealed to with a nonce. -/
def sealed (key : Bytes) (f : Vector UInt8 12 × Bytes) : Bytes :=
  f.1.toList ++ A.Seal key f.1.toList f.2

variable (A) in
/-- What the exit writes for a list of plaintexts, each with the nonce it is sealed with. -/
def wire (key : Bytes) (frames : List (Vector UInt8 12 × Bytes)) : Bytes :=
  frames.flatMap fun f ↦ onWire (sealed A key f)

theorem length_sealed (key : Bytes) (f : Vector UInt8 12 × Bytes) :
    (sealed A key f).length = f.2.length + 28 := by
  rw [sealed, List.length_append, Vector.length_toList, A.length_seal, overhead]
  omega

/-- The first frame of a stream that begins with a frame of less than 2³² bytes. -/
theorem nextFrame_onWire (key : Bytes) {c : Bytes} (hlen : c.length < 2 ^ 32) (rest : Bytes) :
    nextFrame A key (onWire c ++ rest) =
      if c.length > maxStreamFrame then none
      else
        match openFrame A key c with
        | .ok plain => some (plain, rest)
        | _ => none := by
  have hread := (Format.prefixed 4).decode_encode (Format.valid_prefixed.mpr hlen) rest
  have hencode : (Format.prefixed 4).encode c = onWire c := rfl
  rw [hencode] at hread
  rw [nextFrame, hread, Option.bind_some]

theorem nextFrame_sealed {key : Key} {f : Vector UInt8 12 × Bytes}
    (hlen : (sealed A key.1 f).length ≤ maxStreamFrame) (rest : Bytes) :
    nextFrame A key.1 (onWire (sealed A key.1 f) ++ rest) = some (f.2, rest) := by
  have hmax : maxStreamFrame < 2 ^ 32 := by decide
  rw [nextFrame_onWire key.1 (by omega), if_neg (by omega), sealed, openFrame_sealFrame key]
  rw [length_sealed, maxStreamFrame] at hlen
  rw [maxPlaintext]
  omega

/-- A frame that is cut off is no frame. -/
theorem nextFrame_take {key c : Bytes} (hlen : c.length < 2 ^ 32) {j : ℕ}
    (hj : j < (onWire c).length) : nextFrame A key ((onWire c).take j) = none := by
  have hencode : (Format.prefixed 4).encode c = onWire c := rfl
  rw [nextFrame, ← hencode, (Format.prefixed 4).decode_take (Format.valid_prefixed.mpr hlen) hj,
    Option.bind_none]

theorem nextFrame_nil (key : Bytes) : nextFrame A key [] = none := rfl

theorem decodes_wire {key : Key} {frames : List (Vector UInt8 12 × Bytes)}
    (hlen : ∀ f ∈ frames, (sealed A key.1 f).length ≤ maxStreamFrame) (rest : Bytes) :
    Decodes A key.1 (frames.map Prod.snd) (wire A key.1 frames ++ rest) rest := by
  induction frames with
  | nil => rfl
  | cons f frames ih =>
    obtain ⟨hf, hframes⟩ := List.forall_mem_cons.mp hlen
    refine ⟨wire A key.1 frames ++ rest, ?_, ih hframes⟩
    rw [wire, List.flatMap_cons, List.append_assoc]
    exact nextFrame_sealed hf _

/-- Where a cut is: so many frames are complete, and what follows them is a part of the next. -/
theorem exists_cut (key : Bytes) (frames : List (Vector UInt8 12 × Bytes)) (j : ℕ) :
    ∃ m tail, m ≤ frames.length ∧ (wire A key (frames.take m)).length ≤ j ∧
      (m < frames.length → j < (wire A key (frames.take (m + 1))).length) ∧
      (wire A key frames).take j = wire A key (frames.take m) ++ tail ∧
      (tail = [] ∨ ∃ f ∈ frames, ∃ i, i < (onWire (sealed A key f)).length ∧
        tail = (onWire (sealed A key f)).take i) := by
  induction frames generalizing j with
  | nil => exact ⟨0, [], le_rfl, Nat.zero_le j, fun h ↦ absurd h (Nat.lt_irrefl 0),
      List.take_nil, .inl rfl⟩
  | cons f frames ih =>
    have hwire : ∀ fs, wire A key (f :: fs) = onWire (sealed A key f) ++ wire A key fs :=
      fun fs ↦ List.flatMap_cons
    by_cases hj : j < (onWire (sealed A key f)).length
    · refine ⟨0, (onWire (sealed A key f)).take j, Nat.zero_le _, Nat.zero_le j, fun _ ↦ ?_, ?_,
        .inr ⟨f, List.mem_cons_self, j, hj, rfl⟩⟩
      · rw [Nat.zero_add, List.take_succ_cons, hwire, List.length_append]
        omega
      · rw [hwire, List.take_append_of_le_length hj.le]
        rfl
    · obtain ⟨m, tail, hm, hle, hlt, hsplit, htail⟩ := ih (j - (onWire (sealed A key f)).length)
      refine ⟨m + 1, tail, Nat.succ_le_succ hm, ?_, fun h ↦ ?_, ?_, ?_⟩
      · rw [List.take_succ_cons, hwire, List.length_append]
        omega
      · have := hlt (Nat.lt_of_succ_lt_succ h)
        rw [List.take_succ_cons, hwire, List.length_append]
        omega
      · rw [List.take_succ_cons, hwire, hwire, List.take_append, List.take_of_length_le (by omega),
          hsplit, List.append_assoc]
      · refine htail.imp id ?_
        rintro ⟨g, hg, i, hi, rfl⟩
        exact ⟨g, List.mem_cons_of_mem f hg, i, hi, rfl⟩

theorem flatten_of_splits {groups : List (List Bytes)} (h : List.Forall₂ Splits plains groups) :
    groups.flatten.flatten = plains.flatten := by
  induction h with
  | nil => rfl
  | cons hfirst _ ih =>
    rw [List.flatten_cons, List.flatten_append, List.flatten_cons, hfirst.flatten, ih]

/-! ## The result -/

/-- **Reading a framed stream is exact**, for every list of plaintexts whose sealed length is at
most 2²⁰, whatever the sizes of the caller's buffers are and however the stream arrives.

Read to its end, a stream gives the plaintexts in order, each in chunks that are empty only if it
is.  If it is cut at some byte, the frames that are complete are handed out in this way before the
first error; and so are the frames before one that is not authentic. -/
theorem framedReader_exact (A : ChaCha20Poly1305) (key : Key)
    (frames : List (Vector UInt8 12 × Bytes))
    (hlen : ∀ f ∈ frames, (sealed A key.1 f).length ≤ 2 ^ 20) (sizes : ℕ → ℕ)
    (hpos : ∀ i, 0 < sizes i) (src : List Bytes) (srcErr : Option String) :
    (src.flatten = wire A key.1 frames →
      ∃ groups, List.Forall₂ Splits (frames.map Prod.snd) groups ∧
        groups.flatten.flatten = (frames.map Prod.snd).flatten ∧
        Returns A (newFramedDecryptReader src srcErr key.1) sizes groups.flatten
          (srcErr.getD "EOF")) ∧
    (∀ j, src.flatten = (wire A key.1 frames).take j →
      ∃ m groups err, m ≤ frames.length ∧ (wire A key.1 (frames.take m)).length ≤ j ∧
        (m < frames.length → j < (wire A key.1 (frames.take (m + 1))).length) ∧
        List.Forall₂ Splits ((frames.take m).map Prod.snd) groups ∧
        groups.flatten.flatten = ((frames.take m).map Prod.snd).flatten ∧
        Returns A (newFramedDecryptReader src srcErr key.1) sizes groups.flatten err) ∧
    (∀ bad after, bad.length < 2 ^ 32 → (∀ plain, openFrame A key.1 bad ≠ .ok plain) →
      src.flatten = wire A key.1 frames ++ (onWire bad ++ after) →
      ∃ groups err, List.Forall₂ Splits (frames.map Prod.snd) groups ∧
        groups.flatten.flatten = (frames.map Prod.snd).flatten ∧
        Returns A (newFramedDecryptReader src srcErr key.1) sizes groups.flatten err) := by
  refine ⟨?_, ?_, ?_⟩
  · intro hsrc
    have hdec := decodes_wire hlen []
    rw [List.append_nil, ← hsrc] at hdec
    obtain ⟨groups, err, hgroups, hret, herr⟩ :=
      exists_returns_new hdec (nextFrame_nil key.1) sizes hpos
    rw [herr rfl] at hret
    exact ⟨groups, hgroups, flatten_of_splits hgroups, hret⟩
  · intro j hsrc
    obtain ⟨m, tail, hm, hle, hlt, hsplit, htail⟩ := exists_cut (A := A) key.1 frames j
    have hcut : ∀ f ∈ frames.take m, (sealed A key.1 f).length ≤ maxStreamFrame :=
      fun f hf ↦ hlen f (List.mem_of_mem_take hf)
    have hdec := decodes_wire hcut tail
    rw [← hsplit, ← hsrc] at hdec
    have hstop : nextFrame A key.1 tail = none := by
      rcases htail with rfl | ⟨f, hf, i, hi, rfl⟩
      · exact nextFrame_nil key.1
      · have hmax := hlen f hf
        exact nextFrame_take (by omega) hi
    obtain ⟨groups, err, hgroups, hret, -⟩ :=
      exists_returns_new hdec hstop sizes hpos
    exact ⟨m, groups, err, hm, hle, hlt, hgroups, flatten_of_splits hgroups, hret⟩
  · intro bad after hbad hopen hsrc
    have hdec := decodes_wire hlen (onWire bad ++ after)
    rw [← hsrc] at hdec
    have hstop : nextFrame A key.1 (onWire bad ++ after) = none := by
      rw [nextFrame_onWire key.1 hbad]
      split
      · rfl
      · split
        · rename_i plain hplain
          exact absurd hplain (hopen plain)
        · rfl
    obtain ⟨groups, err, hgroups, hret, -⟩ :=
      exists_returns_new hdec hstop sizes hpos
    exact ⟨groups, err, hgroups, flatten_of_splits hgroups, hret⟩

/-- A frame of two bytes and an empty one, which arrive in one piece and are read byte by byte. -/
theorem framedReader_exact_two :
    ∃ groups, List.Forall₂ Splits [[1, 2], []] groups ∧ groups.flatten.flatten = [1, 2] ∧
      Returns nullAead
        (newFramedDecryptReader [wire nullAead zeroKey.1
          [(Vector.replicate 12 0, [1, 2]), (Vector.replicate 12 1, [])]] none zeroKey.1)
        (fun _ ↦ 1) groups.flatten "EOF" :=
  (framedReader_exact nullAead zeroKey
    [(Vector.replicate 12 0, [1, 2]), (Vector.replicate 12 1, [])] (by decide +kernel)
    (fun _ ↦ 1) (fun _ ↦ Nat.one_pos) _ none).1 (List.append_nil _)

end FramedDecryptReader

end TunnelCat
