import TunnelCat.Lib.GoInt
import TunnelCat.Relay.Frame

/-!
# Decoders on 32 bits and on 64

Five decoders read a length of four bytes from the network, convert it to `int`, compare the end of
what it announces with the length of the data, and cut the data there.  The rest of the development
takes `int` to have 64 bits.  Here its width is a parameter, sums wrap, and a slice expression out
of range panics.

On 64 bits none of the decoders panics, and they are the ones of the other modules
(`udpDecodeRequest_eq`, `udpDecodeResponse_eq`, `parseResponse_w64`).  On 32 bits a length of 2³¹ or
more is negative, and one a little less makes the sum negative; the comparison passes and the slice
panics.  Only `mirrorDecodeFound` tests whether the length is negative, and this is half of what is
needed.  `decodeDatagramBatch` allocates as many frames as the first four bytes say before it has
seen one of them, which is too much on both.

`decoders_inRange_iff` is the exact condition for each of them.  The data is shorter than 2³¹ bytes;
the limits of the allocator are not part of the model, so `make` fails only for a negative size.
-/

set_option autoImplicit false

open Bytes GoInt

namespace TunnelCat.Wire

variable (w : Width)

/-! ## Reading -/

/-- `binary.BigEndian.Uint16(data[o:])`. -/
def uint16At (data : Bytes) (o : ℤ) : Outcome UInt16 :=
  if 0 ≤ o ∧ o + 2 ≤ data.length then .ok (uint16 (data.drop o.toNat)) else .panic

/-- `binary.BigEndian.Uint32(data[o:])`. -/
def uint32At (data : Bytes) (o : ℤ) : Outcome UInt32 :=
  if 0 ≤ o ∧ o + 4 ≤ data.length then .ok (uint32 (data.drop o.toNat)) else .panic

/-- The test `o+n > len(data)`, and `data[o : o+n]` if it fails. -/
def bodyAt (data : Bytes) (o n : ℤ) : Outcome (Option Bytes) :=
  if add w o n > data.length then .ok none
  else (slice data o (add w o n)).bind fun body ↦ .ok (some body)

/-! ## The decoders -/

/-- `parseResponse`, from the plaintext on.  The end of the data is computed in `uint32`, the type
of `dlen`. -/
def parsePlain (plain : Bytes) : Outcome (Option Bytes) :=
  if plain.length < 4 then .err "response frame too short"
  else
    let dlen := uint32 plain
    if dlen = 0 then .ok none
    else if ofUint32 w dlen > plain.length - 4 then
      .err ("response dlen " ++ toString dlen.toNat ++ " > available " ++
        toString (plain.length - 4))
    else (slice plain 4 (4 + dlen).toNat).bind fun data ↦ .ok (some data)

/-- How many frames `decodeDatagramBatch` allocates. -/
def batchCount (data : Bytes) : ℤ := ofUint32 w (uint32 data)

/-- The loop of `decodeDatagramBatch`: how many frames are left, which one is next and where it
begins, and the frames before it. -/
def decodeFrames (data : Bytes) : ℕ → ℕ → ℤ → List Bytes → Outcome (List Bytes)
  | 0, _, _, frames => .ok frames
  | k + 1, i, o, frames =>
    if add w o 4 > data.length then .err ("batch truncated at frame " ++ toString i)
    else
      (uint32At data o).bind fun flen ↦
        let flen := ofUint32 w flen
        let o := add w o 4
        (bodyAt w data o flen).bind fun
          | none => .err ("batch frame " ++ toString i ++ " truncated")
          | some frame => decodeFrames data k (i + 1) (add w o flen) (frames ++ [frame])

/-- `decodeDatagramBatch`. -/
def decodeDatagramBatch (data : Bytes) : Outcome (List Bytes) :=
  if data.length = 0 then .ok []
  else if data.length < 4 then .err ("batch too short: " ++ toString data.length ++ " bytes")
  else if batchCount w data < 0 then .panic
  else decodeFrames w data (batchCount w data).toNat 0 4 []

/-- `udpDecodeRequest`. -/
def udpDecodeRequest (data : Bytes) : Outcome (Option (Bytes × Bytes × Bytes)) :=
  if data.length < 9 + 2 + 2 + 4 then .ok none
  else
    (uint16At data 9).bind fun pLen ↦
      let o : ℤ := 11
      if add w (add w o pLen.toNat) 2 > data.length then .ok none
      else
        (slice data o (add w o pLen.toNat)).bind fun path ↦
          let o := add w o pLen.toNat
          (uint16At data o).bind fun tLen ↦
            let o := add w o 2
            if add w (add w o tLen.toNat) 4 > data.length then .ok none
            else
              (slice data o (add w o tLen.toNat)).bind fun token ↦
                let o := add w o tLen.toNat
                (uint32At data o).bind fun bLen ↦
                  (bodyAt w data (add w o 4) (ofUint32 w bLen)).bind fun body ↦
                    .ok (body.map fun body ↦ (path, token, body))

/-- `udpDecodeResponse`. -/
def udpDecodeResponse (data : Bytes) : Outcome (Option Relay.Resp) :=
  if data.length < 4 + 4 + 1 + 2 + 4 then .ok none
  else
    (uint16At data 9).bind fun status ↦
      (uint32At data 11).bind fun bLen ↦
        (bodyAt w data 15 (ofUint32 w bLen)).bind fun body ↦
          .ok (body.map fun body ↦ ⟨status.toNat, body⟩)

/-- `mirrorDecodeFound`. -/
def mirrorDecodeFound (data : Bytes) : Outcome (Option Bytes) :=
  if data.length < 4 + 4 + 1 + 4 then .ok none
  else
    (uint32At data 9).bind fun n ↦
      if ofUint32 w n < 0 then .ok none else bodyAt w data 13 (ofUint32 w n)

/-! ## What is in range -/

variable {w} {data : Bytes}

theorem uint16At_eq {o : ℕ} (h : o + 2 ≤ data.length) :
    uint16At data o = .ok (uint16 (data.drop o)) := by
  rw [uint16At, if_pos ⟨by omega, by omega⟩, Int.toNat_natCast]

theorem uint32At_eq {o : ℕ} (h : o + 4 ≤ data.length) :
    uint32At data o = .ok (uint32 (data.drop o)) := by
  rw [uint32At, if_pos ⟨by omega, by omega⟩, Int.toNat_natCast]

/-- **What is cut out of the data**: the test is right if the sum does not wrap, and otherwise it
passes and the slice panics. -/
theorem bodyAt_eq (hlen : data.length < 2 ^ 31) {o : ℕ} (ho : o ≤ data.length) (v : UInt32) :
    bodyAt w data o (ofUint32 w v) =
      if Fits w o v then
        .ok (if data.length < o + v.toNat then none else some ((data.drop o).take v.toNat))
      else .panic := by
  have hv := v.toNat_lt
  rw [bodyAt]
  rw [add_ofUint32 (by omega)]
  by_cases hfit : Fits w o v
  · simp only [if_pos hfit]
    by_cases hlong : data.length < o + v.toNat
    · rw [if_pos (by omega), if_pos hlong]
    · rw [if_neg (by omega), if_neg hlong, slice_of_le (by omega) (by omega),
        Nat.add_sub_cancel_left, Outcome.ok_bind]
  · have hsum := not_or.mp hfit
    simp only [if_neg hfit]
    rw [if_neg (by omega), slice_of_lt (by omega), Outcome.panic_bind]

theorem parsePlain_ne_panic_iff (hlen : data.length < 2 ^ 31) :
    parsePlain w data ≠ .panic ↔
      data.length < 4 ∨ w = .w64 ∨ (uint32 data).toNat < 2 ^ 31 := by
  have hv := (uint32 data).toNat_lt
  rw [parsePlain]
  dsimp only
  by_cases hshort : data.length < 4
  · rw [if_pos hshort]
    exact ⟨fun _ ↦ .inl hshort, fun _ h ↦ (nomatch h)⟩
  rw [if_neg hshort]
  by_cases hzero : uint32 data = 0
  · rw [if_pos hzero]
    refine ⟨fun _ ↦ .inr (.inr ?_), fun _ h ↦ (nomatch h)⟩
    rw [hzero]
    decide
  rw [if_neg hzero, ofUint32_eq]
  have hsum : (4 + uint32 data).toNat = (4 + (uint32 data).toNat) % 2 ^ 32 := UInt32.toNat_add ..
  by_cases hok : w = .w64 ∨ (uint32 data).toNat < 2 ^ 31
  · rw [if_pos hok]
    refine ⟨fun _ ↦ .inr hok, fun _ ↦ ?_⟩
    split
    · exact fun h ↦ (nomatch h)
    · rw [Ne, Outcome.bind_ok_eq_panic, slice_eq_panic_iff, hsum]
      omega
  · rw [if_neg hok, if_neg (by omega), Ne, Outcome.bind_ok_eq_panic, slice_eq_panic_iff, hsum]
    refine ⟨fun h ↦ absurd ?_ h, fun h ↦ absurd h (not_or.mpr ⟨hshort, hok⟩)⟩
    omega

/-! ### The relay -/

/-- Where the length of the body of a request stands, if the fields before it are there. -/
def requestBodyAt (data : Bytes) : Option ℕ :=
  if data.length < 9 + 2 + 2 + 4 then none
  else
    let pLen := (uint16 (data.drop 9)).toNat
    if data.length < 11 + pLen + 2 then none
    else
      let tLen := (uint16 (data.drop (11 + pLen))).toNat
      if data.length < 11 + pLen + 2 + tLen + 4 then none else some (11 + pLen + 2 + tLen)

/-- A request is decoded as on 64 bits, or the decoder panics. -/
theorem udpDecodeRequest_eq (hlen : data.length < 2 ^ 31) :
    udpDecodeRequest w data =
      match requestBodyAt data with
      | none => .ok none
      | some o =>
        if Fits w (o + 4) (uint32 (data.drop o)) then .ok (Relay.udpDecodeRequest data)
        else .panic := by
  rw [udpDecodeRequest, requestBodyAt, Relay.udpDecodeRequest]
  dsimp only
  by_cases hshort : data.length < 9 + 2 + 2 + 4
  · rw [if_pos hshort, if_pos hshort]
  rw [if_neg hshort, if_neg hshort, if_neg hshort]
  have h9 : uint16At data 9 = .ok (uint16 (data.drop 9)) := uint16At_eq (o := 9) (by omega)
  rw [h9, Outcome.ok_bind]
  have hp := (uint16 (data.drop 9)).toNat_lt
  set p := (uint16 (data.drop 9)).toNat
  have hop : add w 11 p = (11 + p : ℕ) := add_of_lt (by omega) (by omega) (by omega)
  have hop2 : add w (11 + p : ℕ) 2 = (11 + p + 2 : ℕ) :=
    add_of_lt (by omega) (by omega) (by omega)
  rw [hop, hop2]
  by_cases hpath : data.length < 11 + p + 2
  · rw [if_pos (by omega), if_pos hpath]
  have hslice : slice data 11 (11 + p : ℕ) = .ok ((data.drop 11).take p) := by
    rw [show (11 : ℤ) = ((11 : ℕ) : ℤ) from rfl, slice_of_le (by omega) (by omega),
      Nat.add_sub_cancel_left]
  rw [if_neg (by omega), if_neg hpath, if_neg hpath, hslice, Outcome.ok_bind,
    uint16At_eq (by omega), Outcome.ok_bind]
  have ht := (uint16 (data.drop (11 + p))).toNat_lt
  set t := (uint16 (data.drop (11 + p))).toNat
  have hot : add w (11 + p + 2 : ℕ) t = (11 + p + 2 + t : ℕ) :=
    add_of_lt (by omega) (by omega) (by omega)
  have hot4 : add w (11 + p + 2 + t : ℕ) 4 = (11 + p + 2 + t + 4 : ℕ) :=
    add_of_lt (by omega) (by omega) (by omega)
  rw [hot, hot4]
  by_cases htoken : data.length < 11 + p + 2 + t + 4
  · rw [if_pos (by omega), if_pos htoken]
  rw [if_neg (by omega), if_neg htoken, if_neg htoken, slice_of_le (by omega) (by omega),
    Nat.add_sub_cancel_left, Outcome.ok_bind, uint32At_eq (by omega), Outcome.ok_bind,
    bodyAt_eq hlen (by omega)]
  set v := uint32 (data.drop (11 + p + 2 + t))
  by_cases hfit : Fits w (11 + p + 2 + t + 4) v
  · simp only [if_pos hfit, Outcome.ok_bind]
    split
    · rfl
    · rfl
  · rw [if_neg hfit, Outcome.panic_bind]
    exact (if_neg hfit).symm

theorem udpDecodeRequest_ne_panic_iff (hlen : data.length < 2 ^ 31) :
    udpDecodeRequest w data ≠ .panic ↔
      ∀ o, requestBodyAt data = some o → Fits w (o + 4) (uint32 (data.drop o)) := by
  rw [udpDecodeRequest_eq hlen]
  cases requestBodyAt data with
  | none => exact ⟨fun _ _ h ↦ (nomatch h), fun _ h ↦ (nomatch h)⟩
  | some o =>
    dsimp only
    split
    · rename_i hfit
      refine ⟨fun _ o' ho ↦ ?_, fun _ h ↦ (nomatch h)⟩
      cases ho
      exact hfit
    · rename_i hfit
      exact ⟨fun h ↦ absurd rfl h, fun h ↦ absurd (h o rfl) hfit⟩

/-- A response is decoded as on 64 bits, or the decoder panics. -/
theorem udpDecodeResponse_eq (hlen : data.length < 2 ^ 31) :
    udpDecodeResponse w data =
      if 15 ≤ data.length → Fits w 15 (uint32 (data.drop 11)) then
        .ok (Relay.udpDecodeResponse data)
      else .panic := by
  rw [udpDecodeResponse, Relay.udpDecodeResponse]
  dsimp only
  by_cases hshort : data.length < 4 + 4 + 1 + 2 + 4
  · rw [if_pos hshort, if_pos hshort, if_pos fun h ↦ absurd h (by omega)]
  have h9 : uint16At data 9 = .ok (uint16 (data.drop 9)) := uint16At_eq (o := 9) (by omega)
  have h11 : uint32At data 11 = .ok (uint32 (data.drop 11)) := uint32At_eq (o := 11) (by omega)
  have hbody : bodyAt w data 15 (ofUint32 w (uint32 (data.drop 11))) = _ :=
    bodyAt_eq hlen (o := 15) (by omega) _
  rw [if_neg hshort, if_neg hshort, h9, h11, Outcome.ok_bind, Outcome.ok_bind, hbody]
  by_cases hfit : Fits w 15 (uint32 (data.drop 11))
  · rw [if_pos hfit, Outcome.ok_bind, if_pos fun _ ↦ hfit]
    split
    · rfl
    · rfl
  · rw [if_neg hfit, Outcome.panic_bind, if_neg fun h ↦ hfit (h (by omega))]

theorem udpDecodeResponse_ne_panic_iff (hlen : data.length < 2 ^ 31) :
    udpDecodeResponse w data ≠ .panic ↔
      (15 ≤ data.length → Fits w 15 (uint32 (data.drop 11))) := by
  rw [udpDecodeResponse_eq hlen]
  split
  · rename_i hfit
    exact ⟨fun _ ↦ hfit, fun _ h ↦ (nomatch h)⟩
  · rename_i hfit
    exact ⟨fun h ↦ absurd rfl h, fun h ↦ absurd h hfit⟩

/-! ### The mirror -/

theorem mirrorDecodeFound_ne_panic_iff (hlen : data.length < 2 ^ 31) :
    mirrorDecodeFound w data ≠ .panic ↔ (13 ≤ data.length →
      2 ^ 31 ≤ (uint32 (data.drop 9)).toNat ∨ Fits w 13 (uint32 (data.drop 9))) := by
  rw [mirrorDecodeFound]
  by_cases hshort : data.length < 4 + 4 + 1 + 4
  · rw [if_pos hshort]
    exact ⟨fun _ h ↦ absurd h (by omega), fun _ h ↦ (nomatch h)⟩
  have h9 : uint32At data 9 = .ok (uint32 (data.drop 9)) := uint32At_eq (o := 9) (by omega)
  have hbody : bodyAt w data 13 (ofUint32 w (uint32 (data.drop 9))) = _ :=
    bodyAt_eq hlen (o := 13) (by omega) _
  rw [if_neg hshort, h9, Outcome.ok_bind, hbody]
  set v := uint32 (data.drop 9)
  by_cases hfit : Fits w 13 v
  · rw [if_pos hfit]
    refine ⟨fun _ _ ↦ .inr hfit, fun _ h ↦ ?_⟩
    split at h
    all_goals cases h
  · have hno := not_or.mp hfit
    rw [if_neg hfit]
    by_cases hneg : 2 ^ 31 ≤ v.toNat
    · rw [if_pos (ofUint32_neg_iff.mpr ⟨hno.1, hneg⟩)]
      exact ⟨fun _ _ ↦ .inl hneg, fun _ h ↦ (nomatch h)⟩
    · rw [if_neg fun h ↦ hneg (ofUint32_neg_iff.mp h).2]
      exact ⟨fun h ↦ absurd rfl h, fun h ↦ absurd (h (by omega)) (not_or.mpr ⟨hneg, hfit⟩)⟩

/-! ### Batches -/

/-- No sum wraps in the loop over the frames: how many frames are left, and where the next one
begins. -/
def FramesFit (w : Width) (data : Bytes) : ℕ → ℕ → Prop
  | 0, _ => True
  | k + 1, o => Fits w o 4 ∧ (o + 4 ≤ data.length →
      Fits w (o + 4) (uint32 (data.drop o)) ∧
      (o + 4 + (uint32 (data.drop o)).toNat ≤ data.length →
        FramesFit w data k (o + 4 + (uint32 (data.drop o)).toNat)))

theorem add_four {o : ℕ} (ho : o < 2 ^ 31) :
    add w o 4 = if Fits w o 4 then ((o + 4 : ℕ) : ℤ) else o + 4 - 2 ^ 32 := by
  have hfour : ofUint32 w 4 = 4 := by
    rw [ofUint32_eq, if_pos (.inr (by decide))]
    rfl
  have hadd := add_ofUint32 (w := w) ho 4
  rw [hfour] at hadd
  exact hadd

theorem decodeFrames_ne_panic_iff (hlen : data.length < 2 ^ 31) (k i : ℕ) {o : ℕ}
    (ho : o ≤ data.length) (frames : List Bytes) :
    decodeFrames w data k i o frames ≠ .panic ↔ FramesFit w data k o := by
  induction k generalizing i o frames with
  | zero => exact ⟨fun _ ↦ trivial, fun _ h ↦ (nomatch h)⟩
  | succ k ih =>
    rw [decodeFrames, FramesFit, add_four (by omega)]
    by_cases hwrap : Fits w o 4
    · rw [if_pos hwrap, and_iff_right hwrap]
      by_cases hend : data.length < o + 4
      · rw [if_pos (by omega)]
        exact ⟨fun _ h ↦ absurd h (by omega), fun _ h ↦ (nomatch h)⟩
      rw [if_neg (by omega), uint32At_eq (by omega), Outcome.ok_bind]
      dsimp only
      rw [bodyAt_eq hlen (by omega), add_ofUint32 (by omega)]
      set v := uint32 (data.drop o)
      by_cases hfit : Fits w (o + 4) v
      · simp only [if_pos hfit, Outcome.ok_bind]
        by_cases hlong : data.length < o + 4 + v.toNat
        · rw [if_pos hlong]
          exact ⟨fun _ _ ↦ ⟨hfit, fun h ↦ absurd h (by omega)⟩, fun _ h ↦ (nomatch h)⟩
        · rw [if_neg hlong]
          dsimp only
          rw [ih (i + 1) (by omega)]
          exact ⟨fun h _ ↦ ⟨hfit, fun _ ↦ h⟩, fun h ↦ (h (by omega)).2 (by omega)⟩
      · rw [if_neg hfit, Outcome.panic_bind]
        exact ⟨fun h ↦ absurd rfl h, fun h ↦ absurd (h (by omega)).1 hfit⟩
    · have hno := not_or.mp hwrap
      have h4 : (4 : UInt32).toNat = 4 := rfl
      rw [if_neg hwrap, if_neg (by omega), uint32At, if_neg (by omega), Outcome.panic_bind]
      exact ⟨fun h ↦ absurd rfl h, fun h ↦ absurd h.1 hwrap⟩

/-- What a batch has to be like: no more frames than bytes, and no sum that wraps. -/
theorem decodeDatagramBatch_inRange_iff (hlen : data.length < 2 ^ 31) :
    (decodeDatagramBatch w data ≠ .panic ∧
      (4 ≤ data.length → 0 ≤ batchCount w data ∧ batchCount w data ≤ data.length)) ↔
      (4 ≤ data.length → (uint32 data).toNat ≤ data.length ∧
        FramesFit w data (uint32 data).toNat 4) := by
  by_cases hshort : data.length < 4
  · refine ⟨fun _ h ↦ absurd h (by omega), fun _ ↦ ⟨?_, fun h ↦ absurd h (by omega)⟩⟩
    rw [decodeDatagramBatch]
    rw [if_pos hshort]
    split
    · exact fun h ↦ (nomatch h)
    · exact fun h ↦ (nomatch h)
  have hcount : 0 ≤ batchCount w data ∧ batchCount w data ≤ data.length ↔
      batchCount w data = (uint32 data).toNat ∧ (uint32 data).toNat ≤ data.length := by
    have hv := (uint32 data).toNat_lt
    rw [batchCount]
    rw [ofUint32_eq]
    split
    · omega
    · omega
  have hrun : batchCount w data = (uint32 data).toNat →
      (decodeDatagramBatch w data ≠ .panic ↔ FramesFit w data (uint32 data).toNat 4) := by
    intro heq
    rw [← decodeFrames_ne_panic_iff hlen _ 0 (by omega) [], decodeDatagramBatch, if_neg (by omega),
      if_neg hshort, if_neg (by omega), heq, Int.toNat_natCast]
    rfl
  refine ⟨fun ⟨hok, hmake⟩ _ ↦ ?_, fun h ↦ ?_⟩
  · obtain ⟨heq, hle⟩ := hcount.mp (hmake (by omega))
    exact ⟨hle, (hrun heq).mp hok⟩
  · obtain ⟨hle, hfit⟩ := h (by omega)
    have heq : batchCount w data = (uint32 data).toNat := by
      rw [batchCount, ofUint32_eq, if_pos (.inr (by omega))]
    exact ⟨(hrun heq).mpr hfit, fun _ ↦ hcount.mpr ⟨heq, hle⟩⟩

/-! ## The response on 64 bits -/

/-- On 64 bits this is the `parseResponse` of the other modules. -/
theorem parseResponse_w64 (A : ChaCha20Poly1305) (key body : Bytes) :
    parseResponse A key body =
      if body.length = 0 then .ok none
      else
        match openFrame A key body with
        | .err e => .err ("response decrypt: " ++ e)
        | .panic => .panic
        | .ok plain => parsePlain .w64 plain := by
  rw [parseResponse]
  split
  · rfl
  cases openFrame A key body with
  | err e => rfl
  | panic => rfl
  | ok plain =>
    unfold parsePlain
    dsimp only
    have hslice : slice plain 4 (4 + uint32 plain).toNat = _ := slice_natCast plain 4 _
    rw [ofUint32_w64, hslice]
    by_cases hshort : plain.length < 4
    · simp only [if_pos hshort]
    simp only [if_neg hshort]
    by_cases hzero : uint32 plain = 0
    · simp only [if_pos hzero]
    simp only [if_neg hzero]
    by_cases hlong : (uint32 plain).toNat > plain.length - 4
    · have hlong' : ((uint32 plain).toNat : ℤ) > plain.length - 4 := by omega
      rw [if_pos hlong, if_pos hlong']
    · have hlong' : ¬((uint32 plain).toNat : ℤ) > plain.length - 4 := by omega
      rw [if_neg hlong, if_neg hlong']
      cases Outcome.slice plain 4 (4 + uint32 plain).toNat <;> rfl

/-! ## All of them -/

/-- **When the decoders stay in range**, on either width: `parseResponse` from its plaintext on, the
batch with the size it allocates, and the three others. -/
theorem decoders_inRange_iff (w : Width) (data : Bytes) (hlen : data.length < 2 ^ 31) :
    (parsePlain w data ≠ .panic ↔
      data.length < 4 ∨ w = .w64 ∨ (uint32 data).toNat < 2 ^ 31) ∧
    ((decodeDatagramBatch w data ≠ .panic ∧
      (4 ≤ data.length → 0 ≤ batchCount w data ∧ batchCount w data ≤ data.length)) ↔
      (4 ≤ data.length → (uint32 data).toNat ≤ data.length ∧
        FramesFit w data (uint32 data).toNat 4)) ∧
    (udpDecodeRequest w data ≠ .panic ↔
      ∀ o, requestBodyAt data = some o → Fits w (o + 4) (uint32 (data.drop o))) ∧
    (udpDecodeResponse w data ≠ .panic ↔
      (15 ≤ data.length → Fits w 15 (uint32 (data.drop 11)))) ∧
    (mirrorDecodeFound w data ≠ .panic ↔ (13 ≤ data.length →
      2 ^ 31 ≤ (uint32 (data.drop 9)).toNat ∨ Fits w 13 (uint32 (data.drop 9)))) :=
  ⟨parsePlain_ne_panic_iff hlen, decodeDatagramBatch_inRange_iff hlen,
    udpDecodeRequest_ne_panic_iff hlen, udpDecodeResponse_ne_panic_iff hlen,
    mirrorDecodeFound_ne_panic_iff hlen⟩

/-- An empty response is decoded on 32 bits. -/
theorem decoders_inRange_iff_response :
    udpDecodeResponse .w32 (List.replicate 15 0) ≠ .panic :=
  ((decoders_inRange_iff .w32 (List.replicate 15 0) (by decide)).2.2.2.1).mpr (by decide)

/-- Four bytes make a batch allocate 2³² - 1 frames on 64 bits; and on 32 bits a length makes each
of the decoders panic. -/
theorem decoders_out_of_range :
    batchCount .w64 [255, 255, 255, 255] = 4294967295 ∧
    decodeDatagramBatch .w32 [255, 255, 255, 255] = .panic ∧
    parsePlain .w32 [128, 0, 0, 0] = .panic ∧
    udpDecodeRequest .w32 (List.replicate 13 0 ++ [255, 255, 255, 255]) = .panic ∧
    udpDecodeResponse .w32 (List.replicate 11 0 ++ [255, 255, 255, 255]) = .panic ∧
    mirrorDecodeFound .w32 (List.replicate 9 0 ++ [127, 255, 255, 255]) = .panic := by
  decide +kernel

end TunnelCat.Wire
