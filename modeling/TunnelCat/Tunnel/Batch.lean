import TunnelCat.Lib.Format
import TunnelCat.Wire.Decoders

/-!
# Batches of datagrams

The exit answers a datagram, and a drain, with a *batch*: the number of frames in four bytes, and
then each frame with its length in four bytes in front.  `decodeDatagramBatch` reads one.  It walks
over the data with an offset, and at each frame compares twice — is there room for a length, and is
there room for what the length announces.

The batch is the format `counted 4 (prefixed 4)` of the library, and the loop is its reader
(`decodeFrames_eq_ok_iff`).  So a batch is read back whatever follows it, and what is read is a
batch: `decodeDatagramBatch_exact`.  A batch that is cut off is an error, never a shorter list.

The offset is a natural number here, as it is on 64 bits, where no sum of an offset and a length
wraps.  `wire_decodeDatagramBatch` says that this is the decoder with wrapping sums of the module on
decoders, for every batch up to a size that no machine has memory for.
-/

set_option autoImplicit false

open Bytes

namespace TunnelCat

/-! ## The decoder -/

/-- The loop of `decodeDatagramBatch`: how many frames are left, which one is next and where it
begins, and the frames before it. -/
def decodeFrames (data : Bytes) : ℕ → ℕ → ℕ → List Bytes → Outcome (List Bytes)
  | 0, _, _, frames => .ok frames
  | k + 1, i, o, frames =>
    if o + 4 > data.length then .err ("batch truncated at frame " ++ toString i)
    else
      let flen := (uint32 (data.drop o)).toNat
      let o := o + 4
      if o + flen > data.length then .err ("batch frame " ++ toString i ++ " truncated")
      else decodeFrames data k (i + 1) (o + flen) (frames ++ [(data.drop o).take flen])

/-- `decodeDatagramBatch`, on 64 bits. -/
def decodeDatagramBatch (data : Bytes) : Outcome (List Bytes) :=
  if data.length = 0 then .ok []
  else if data.length < 4 then .err ("batch too short: " ++ toString data.length ++ " bytes")
  else decodeFrames data (uint32 data).toNat 0 4 []

/-- What the exit writes: the number of the frames, and each frame after its length. -/
def encodeDatagramBatch (frames : List Bytes) : Bytes :=
  beEncode 4 frames.length ++ frames.flatMap fun frame ↦ beEncode 4 frame.length ++ frame

/-! ## The loop is the reader of the format -/

/-- The format of a batch. -/
def batchFormat : Format (List Bytes) := .counted 4 (.prefixed 4)

theorem encode_batchFormat (frames : List Bytes) :
    batchFormat.encode frames = encodeDatagramBatch frames := rfl

variable {data : Bytes} {frames : List Bytes}

theorem valid_batchFormat :
    batchFormat.Valid frames ↔ frames.length < 2 ^ 32 ∧ ∀ f ∈ frames, f.length < 2 ^ 32 := by
  refine ⟨fun h ↦ ⟨h.1, fun f hf ↦ (h.2.2 f hf).1⟩, fun h ↦ ⟨h.1, rfl, fun f hf ↦ ⟨h.2 f hf, rfl⟩⟩⟩

theorem decodeFrames_eq_ok_iff {k i o : ℕ} {frames l : List Bytes} :
    decodeFrames data k i o frames = .ok l ↔
      ∃ fs rest, Format.decodeTimes (.prefixed 4) k (data.drop o) = some (fs, rest) ∧
        l = frames ++ fs := by
  -- the frames before the next one are an accumulator, the offset is where the reader has got to
  induction k generalizing i o frames with
  | zero =>
    rw [decodeFrames, Format.decodeTimes, Outcome.ok.injEq]
    refine ⟨fun h ↦ ⟨[], data.drop o, rfl, by rw [List.append_nil, h]⟩, ?_⟩
    rintro ⟨fs, rest, h, rfl⟩
    rw [Option.some_inj, Prod.mk.injEq] at h
    rw [← h.1, List.append_nil]
  | succ k ih =>
    rw [decodeFrames, Format.decodeTimes, Format.decode_prefixed, ← toNat_uint32, List.length_drop,
      List.drop_drop, List.drop_drop]
    dsimp only
    set flen := (uint32 (data.drop o)).toNat
    by_cases hlen : o + 4 > data.length
    · rw [if_pos hlen, if_pos (by omega)]
      refine ⟨fun h ↦ (nomatch h), ?_⟩
      rintro ⟨_, _, h, -⟩
      cases h
    by_cases hbody : o + 4 + flen > data.length
    · rw [if_neg hlen, if_pos hbody, if_pos (by omega)]
      refine ⟨fun h ↦ (nomatch h), ?_⟩
      rintro ⟨_, _, h, -⟩
      cases h
    rw [if_neg hlen, if_neg hbody, if_neg (by omega), ih, Option.bind_some, Nat.add_assoc]
    simp only [Option.map_eq_some_iff, Prod.exists, Prod.mk.injEq]
    refine ⟨?_, ?_⟩
    · rintro ⟨fs, rest, hfs, rfl⟩
      exact ⟨_, rest, ⟨fs, rest, hfs, rfl, rfl⟩, List.append_assoc ..⟩
    · rintro ⟨_, _, ⟨fs, rest, hfs, rfl, rfl⟩, rfl⟩
      exact ⟨fs, rest, hfs, by rw [List.append_assoc, List.singleton_append]⟩

/-- Data that is not empty is read exactly if it begins with a batch. -/
theorem decodeDatagramBatch_eq_ok_iff (hdata : data ≠ []) :
    decodeDatagramBatch data = .ok frames ↔
      ∃ rest, batchFormat.decode data = some (frames, rest) := by
  have hne : data.length ≠ 0 := fun h ↦ hdata (List.length_eq_zero_iff.mp h)
  rw [decodeDatagramBatch, if_neg hne]
  have hread : batchFormat.decode data =
      (if data.length < 4 then none else some (beNat (data.take 4), data.drop 4)).bind
        fun p ↦ Format.decodeTimes (.prefixed 4) p.1 p.2 := rfl
  rw [hread]
  by_cases hshort : data.length < 4
  · rw [if_pos hshort, if_pos hshort]
    refine ⟨fun h ↦ (nomatch h), ?_⟩
    rintro ⟨_, h⟩
    cases h
  · rw [if_neg hshort, if_neg hshort, decodeFrames_eq_ok_iff, Option.bind_some, toNat_uint32]
    refine ⟨?_, ?_⟩
    · rintro ⟨fs, rest, h, rfl⟩
      exact ⟨rest, h⟩
    · rintro ⟨rest, h⟩
      exact ⟨frames, rest, h, rfl⟩

theorem decodeFrames_ne_panic (data : Bytes) (k i o : ℕ) (frames : List Bytes) :
    decodeFrames data k i o frames ≠ .panic := by
  induction k generalizing i o frames with
  | zero => exact Outcome.ok_ne_panic frames
  | succ k ih =>
    rw [decodeFrames]
    split
    · exact Outcome.err_ne_panic _
    · dsimp only
      split
      · exact Outcome.err_ne_panic _
      · exact ih _ _ _

theorem decodeDatagramBatch_ne_panic (data : Bytes) : decodeDatagramBatch data ≠ .panic := by
  rw [decodeDatagramBatch]
  split
  · exact Outcome.ok_ne_panic []
  · split
    · exact Outcome.err_ne_panic _
    · exact decodeFrames_ne_panic _ _ _ _ _

/-! ## Wrapping sums -/

open GoInt in
/-- On 64 bits the sum of an offset and a length is right. -/
theorem add_w64 {a b : ℕ} (h : a + b < 2 ^ 63) : add .w64 a b = (a + b : ℕ) :=
  wrap_of_lt (by simp only [Width.half]; omega) (by simp only [Width.half]; omega)

theorem wire_decodeFrames (hlen : data.length < 2 ^ 62) (k i : ℕ) {o : ℕ} (ho : o ≤ data.length)
    (frames : List Bytes) :
    Wire.decodeFrames .w64 data k i o frames = decodeFrames data k i o frames := by
  induction k generalizing i o frames with
  | zero => rfl
  | succ k ih =>
    have hv := (uint32 (data.drop o)).toNat_lt
    have hfour : GoInt.add .w64 o 4 = (o + 4 : ℕ) := add_w64 (b := 4) (by omega)
    rw [Wire.decodeFrames, decodeFrames, hfour]
    by_cases hend : o + 4 > data.length
    · rw [if_pos (by omega), if_pos hend]
    rw [if_neg (by omega), if_neg hend, Wire.uint32At_eq (by omega), Outcome.ok_bind]
    dsimp only
    rw [GoInt.ofUint32_w64, Wire.bodyAt, add_w64 (by omega)]
    by_cases hlong : o + 4 + (uint32 (data.drop o)).toNat > data.length
    · rw [if_pos (by omega), if_pos hlong, Outcome.ok_bind]
    · rw [if_neg (by omega), if_neg hlong, GoInt.slice_of_le (by omega) (by omega),
        Outcome.ok_bind, Outcome.ok_bind, Nat.add_sub_cancel_left]
      exact ih (i + 1) (by omega) _

/-- The decoder whose sums wrap is this one. -/
theorem wire_decodeDatagramBatch (hlen : data.length < 2 ^ 62) :
    Wire.decodeDatagramBatch .w64 data = decodeDatagramBatch data := by
  rw [Wire.decodeDatagramBatch, decodeDatagramBatch, Wire.batchCount, GoInt.ofUint32_w64,
    Int.toNat_natCast]
  by_cases hempty : data.length = 0
  · rw [if_pos hempty, if_pos hempty]
  by_cases hshort : data.length < 4
  · rw [if_neg hempty, if_neg hempty, if_pos hshort, if_pos hshort]
  rw [if_neg hempty, if_neg hempty, if_neg hshort, if_neg hshort, if_neg (by omega)]
  exact wire_decodeFrames hlen _ 0 (o := 4) (by omega) []

/-! ## The result -/

/-- **Decoding a batch is exact.**  A batch is read back whatever follows it; data that is read
without an error, and is not empty, begins with the batch of what was read; a batch that is cut off
anywhere is an error.  And this decoder is the one with the sums of a 64-bit machine. -/
theorem decodeDatagramBatch_exact :
    (∀ (frames : List Bytes) (trailing : Bytes), frames.length < 2 ^ 32 →
      (∀ f ∈ frames, f.length < 2 ^ 32) →
      decodeDatagramBatch (encodeDatagramBatch frames ++ trailing) = .ok frames) ∧
    (∀ (data : Bytes) (frames : List Bytes), data ≠ [] → decodeDatagramBatch data = .ok frames →
      frames.length < 2 ^ 32 ∧ (∀ f ∈ frames, f.length < 2 ^ 32) ∧
        ∃ trailing, data = encodeDatagramBatch frames ++ trailing) ∧
    (∀ (frames : List Bytes) (n : ℕ), frames.length < 2 ^ 32 → (∀ f ∈ frames, f.length < 2 ^ 32) →
      0 < n → n < (encodeDatagramBatch frames).length →
      ∃ msg, decodeDatagramBatch ((encodeDatagramBatch frames).take n) = .err msg) ∧
    (∀ data : Bytes, data.length < 2 ^ 62 →
      Wire.decodeDatagramBatch .w64 data = decodeDatagramBatch data) := by
  have hne : ∀ (frames : List Bytes) (trailing : Bytes),
      encodeDatagramBatch frames ++ trailing ≠ [] := by
    intro frames trailing h
    have hlen := congrArg List.length h
    simp [encodeDatagramBatch] at hlen
  refine ⟨?_, ?_, ?_, fun data ↦ wire_decodeDatagramBatch⟩
  · intro frames trailing hcount hlen
    rw [decodeDatagramBatch_eq_ok_iff (hne frames trailing), ← encode_batchFormat]
    exact ⟨trailing, batchFormat.decode_encode (valid_batchFormat.mpr ⟨hcount, hlen⟩) trailing⟩
  · intro data frames hdata h
    obtain ⟨rest, hread⟩ := (decodeDatagramBatch_eq_ok_iff hdata).mp h
    obtain ⟨hvalid, hsplit⟩ := batchFormat.decode_eq_some_iff.mp hread
    obtain ⟨hcount, hlen⟩ := valid_batchFormat.mp hvalid
    exact ⟨hcount, hlen, rest, hsplit⟩
  · intro frames n hcount hlen hpos hn
    have hcut : ((encodeDatagramBatch frames).take n).length = n := List.length_take_of_le hn.le
    have hdata : (encodeDatagramBatch frames).take n ≠ [] := fun h ↦ by
      rw [h, List.length_nil] at hcut
      omega
    cases hout : decodeDatagramBatch ((encodeDatagramBatch frames).take n) with
    | err msg => exact ⟨msg, rfl⟩
    | panic => exact absurd hout (decodeDatagramBatch_ne_panic _)
    | ok frames' =>
      obtain ⟨rest, hread⟩ := (decodeDatagramBatch_eq_ok_iff hdata).mp hout
      rw [← encode_batchFormat,
        batchFormat.decode_take (valid_batchFormat.mpr ⟨hcount, hlen⟩) hn] at hread
      cases hread

/-- A batch of two frames, the second of them empty, with a byte that follows it. -/
theorem decodeDatagramBatch_exact_two :
    decodeDatagramBatch (encodeDatagramBatch [[1, 2], []] ++ [7]) = .ok [[1, 2], []] :=
  decodeDatagramBatch_exact.1 [[1, 2], []] [7] (by decide) (by decide)

end TunnelCat
