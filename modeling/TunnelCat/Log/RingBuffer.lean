import TunnelCat.Lib.Bytes
import Mathlib.Data.List.DropRight

/-!
# The ring buffer

What is logged is kept in memory too, so that it can be uploaded: a `ringBuffer` has a fixed
capacity and is overwritten from the front when it is full.  It has a position, where the next byte
goes, and a flag that says whether the bytes from the position on have been written yet.

The bytes themselves are always right.  Read from the position on and then up to it, the buffer has
what was last written, behind zeros as long as there is not enough of it (`Holds.unrolled`): this is
so for each of the three cases of `Write` and needs no assumption about the flag.

The flag is not.  `Write` sets it when the bytes go beyond the end of the buffer, and not when they
end there: then the position is zero again and the flag says that there is nothing from there on, so
`Snapshot` returns nothing at all.  `snapshot_exact_iff` is the exact condition for a snapshot to
have the last bytes: as long as less than the capacity has been written, and from the first write on
that goes beyond the end or is as long as the buffer.
-/

set_option autoImplicit false

open Bytes

namespace TunnelCat.Log

/-! ## The buffer -/

/-- `ringBuffer`. -/
structure RingBuffer where
  /-- `buf`. -/
  buf : Bytes
  /-- `pos`: where the next byte goes. -/
  pos : ℕ
  /-- `full`: whether the bytes from `pos` on have been written. -/
  full : Bool
  deriving DecidableEq, Repr

/-- `newRingBuffer`. -/
def newRingBuffer (size : ℕ) : RingBuffer := ⟨List.replicate size 0, 0, false⟩

namespace RingBuffer

/-- `Write`: the buffer afterwards, and the number of bytes that is returned. -/
def write (rb : RingBuffer) (p : Bytes) : RingBuffer × ℕ :=
  let n := p.length
  let cap := rb.buf.length
  if n ≥ cap then (⟨copyAt rb.buf 0 (p.drop (n - cap)), 0, true⟩, n)
  else
    let stop := rb.pos + n
    if stop ≤ cap then ({ rb with buf := copyAt rb.buf rb.pos p, pos := stop % cap }, n)
    else
      let first := cap - rb.pos
      (⟨copyAt (copyAt rb.buf rb.pos (p.take first)) 0 (p.drop first), stop % cap, true⟩, n)

/-- `Snapshot`. -/
def snapshot (rb : RingBuffer) : Bytes :=
  let cap := rb.buf.length
  if !rb.full then copyAt (List.replicate rb.pos 0) 0 (rb.buf.take rb.pos)
  else
    let out := copyAt (List.replicate cap 0) 0 (rb.buf.drop rb.pos)
    copyAt out (cap - rb.pos) (rb.buf.take rb.pos)

/-- A buffer of some capacity after a sequence of writes. -/
def after (c : ℕ) (ws : List Bytes) : RingBuffer :=
  ws.foldl (fun rb p ↦ (rb.write p).1) (newRingBuffer c)

/-! ## The bytes -/

/-- The bytes from the position on, and then those up to it. -/
def unrolled (rb : RingBuffer) : Bytes := rb.buf.drop rb.pos ++ rb.buf.take rb.pos

/-- The buffer has the last bytes of a text. -/
structure Holds (c : ℕ) (all : Bytes) (rb : RingBuffer) : Prop where
  /-- The capacity. -/
  length_buf : rb.buf.length = c
  /-- The position is in the buffer. -/
  pos_lt : rb.pos < c
  /-- The bytes, in the order they were written. -/
  unrolled_eq : rb.unrolled = (List.replicate c 0 ++ all).drop all.length

variable {c : ℕ} {all p : Bytes} {rb : RingBuffer}

theorem holds_new (hc : 0 < c) : Holds c [] (newRingBuffer c) where
  length_buf := List.length_replicate
  pos_lt := hc
  unrolled_eq := by
    rw [unrolled, newRingBuffer, List.append_nil, List.drop_zero, List.take_zero, List.append_nil,
      List.length_nil, List.drop_zero]

/-- Writing shifts the bytes: those written longest ago go. -/
theorem Holds.of_unrolled {rb' : RingBuffer} (h : Holds c all rb) (hlen : rb'.buf.length = c)
    (hpos : rb'.pos < c) (heq : rb'.unrolled = (rb.unrolled ++ p).drop p.length) :
    Holds c (all ++ p) rb' := by
  refine ⟨hlen, hpos, ?_⟩
  have hle : all.length ≤ (List.replicate c (0 : UInt8) ++ all).length := by
    rw [List.length_append]
    omega
  rw [heq, h.unrolled_eq, ← List.drop_append_of_le_length hle, List.drop_drop,
    List.append_assoc, List.length_append]

/-- The end of the buffer is its beginning. -/
theorem unrolled_mod {buf : Bytes} {i : ℕ} (hi : i ≤ buf.length) (f : Bool) :
    unrolled ⟨buf, i % buf.length, f⟩ = buf.drop i ++ buf.take i := by
  rw [unrolled]
  rcases Nat.lt_or_eq_of_le hi with hlt | rfl
  · rw [Nat.mod_eq_of_lt hlt]
  · rw [Nat.mod_self, List.drop_zero, List.take_zero, List.append_nil, List.drop_length,
      List.take_length, List.nil_append]

/-- A write that is at least as long as the buffer. -/
theorem holds_write_long (h : Holds c all rb) (hp : c ≤ p.length) :
    Holds c (all ++ p) ⟨copyAt rb.buf 0 (p.drop (p.length - c)), 0, true⟩ := by
  have hlast : (p.drop (p.length - c)).length = rb.buf.length := by
    rw [List.length_drop, h.length_buf]
    omega
  have hcopy := copyAt_append (p := []) (r := []) (i := 0) rfl hlast
  rw [List.nil_append, List.append_nil, List.nil_append, List.append_nil] at hcopy
  rw [hcopy]
  have hold : rb.unrolled.length = c := by
    rw [h.unrolled_eq, List.length_drop, List.length_append, List.length_replicate]
    omega
  refine h.of_unrolled (hlast.trans h.length_buf) ((Nat.zero_le _).trans_lt h.pos_lt) ?_
  rw [unrolled, List.drop_zero, List.take_zero, List.append_nil, List.drop_append, hold,
    List.drop_eq_nil_of_le (hold.trans_le hp), List.nil_append]

/-- A write that ends in the buffer, or at its end. -/
theorem holds_write_fits (h : Holds c all rb) (hp : rb.pos + p.length ≤ c) (f : Bool) :
    Holds c (all ++ p) ⟨copyAt rb.buf rb.pos p, (rb.pos + p.length) % c, f⟩ := by
  -- the bytes before the position, those that are overwritten, and the rest
  obtain ⟨a, m, b, hbuf, ha, hm⟩ : ∃ a m b, rb.buf = a ++ m ++ b ∧ a.length = rb.pos ∧
      p.length = m.length := by
    have hlen := h.length_buf
    refine ⟨rb.buf.take rb.pos, (rb.buf.drop rb.pos).take p.length,
      (rb.buf.drop rb.pos).drop p.length, ?_, ?_, ?_⟩
    · rw [List.append_assoc, List.take_append_drop, List.take_append_drop]
    · rw [List.length_take]
      omega
    · rw [List.length_take, List.length_drop]
      omega
  have hcopy : copyAt rb.buf rb.pos p = a ++ p ++ b := by rw [hbuf, copyAt_append ha hm]
  have hlen : (a ++ p ++ b).length = c := by
    rw [← h.length_buf, hbuf, List.length_append, List.length_append, List.length_append,
      List.length_append, hm]
  have hstop : (a ++ p).length = rb.pos + p.length := by rw [List.length_append, ha]
  rw [hcopy]
  refine h.of_unrolled hlen (Nat.mod_lt _ ((Nat.zero_le _).trans_lt h.pos_lt)) ?_
  subst hlen
  rw [unrolled_mod (by omega), ← hstop, List.drop_left,
    List.take_left, unrolled, hbuf, List.append_assoc a m b, ← ha, List.drop_left,
    List.take_left, hm, List.append_assoc m b a, List.append_assoc m, List.drop_left,
    List.append_assoc b a p]

/-- A write that goes on at the beginning. -/
theorem holds_write_wraps (h : Holds c all rb) (hp : p.length < c) (hstop : c < rb.pos + p.length)
    (f : Bool) :
    Holds c (all ++ p) ⟨copyAt (copyAt rb.buf rb.pos (p.take (c - rb.pos))) 0 (p.drop (c - rb.pos)),
      (rb.pos + p.length) % c, f⟩ := by
  have hpos := h.pos_lt
  -- what is overwritten at the end, what is overwritten at the beginning, and what is between
  obtain ⟨m₁, m₂, a, hbuf, hm₁, hm₂, ha⟩ : ∃ m₁ m₂ a, rb.buf = m₂ ++ a ++ m₁ ∧
      (p.take (c - rb.pos)).length = m₁.length ∧ (p.drop (c - rb.pos)).length = m₂.length ∧
      (m₂ ++ a).length = rb.pos := by
    have hlen := h.length_buf
    refine ⟨rb.buf.drop rb.pos, (rb.buf.take rb.pos).take (rb.pos + p.length - c),
      (rb.buf.take rb.pos).drop (rb.pos + p.length - c), ?_, ?_, ?_, ?_⟩
    · rw [List.take_append_drop, List.take_append_drop]
    · rw [List.length_take, List.length_drop]
      omega
    · rw [List.length_drop, List.length_take, List.length_take]
      omega
    · rw [List.take_append_drop, List.length_take]
      omega
  set p₁ := p.take (c - rb.pos)
  set p₂ := p.drop (c - rb.pos)
  have hsplit : p = p₁ ++ p₂ := (List.take_append_drop ..).symm
  have hend : copyAt rb.buf rb.pos p₁ = m₂ ++ a ++ p₁ := by
    rw [hbuf]
    have hcopy := copyAt_append (r := []) ha hm₁
    rw [List.append_nil, List.append_nil] at hcopy
    exact hcopy
  have hcopy : copyAt (copyAt rb.buf rb.pos p₁) 0 p₂ = p₂ ++ (a ++ p₁) := by
    rw [hend, List.append_assoc]
    exact copyAt_append (p := []) rfl hm₂
  have hlen : (p₂ ++ (a ++ p₁)).length = c := by
    rw [← h.length_buf, hbuf]
    simp only [List.length_append]
    omega
  have hmod : (rb.pos + p.length) % c = p₂.length := by
    have hdrop : p₂.length = p.length - (c - rb.pos) := List.length_drop
    rw [Nat.mod_eq_sub_mod hstop.le, Nat.mod_eq_of_lt (by omega)]
    omega
  rw [hcopy, hmod]
  refine h.of_unrolled hlen (hmod ▸ Nat.mod_lt _ ((Nat.zero_le _).trans_lt hpos)) ?_
  have hold : rb.unrolled = m₁ ++ (m₂ ++ a) := by
    rw [unrolled, hbuf, ← ha, List.drop_left, List.take_left]
  have hlong : p.length = (m₁ ++ m₂).length := by
    rw [hsplit, List.length_append, List.length_append, hm₁, hm₂]
  rw [unrolled, List.drop_left, List.take_left, hold, hlong, ← List.append_assoc m₁,
    List.append_assoc (m₁ ++ m₂), List.drop_left, List.append_assoc, ← hsplit]

/-- **Every write shifts the bytes**, whatever its length and wherever the position is. -/
theorem holds_write (h : Holds c all rb) (p : Bytes) : Holds c (all ++ p) (rb.write p).1 := by
  rw [write, h.length_buf]
  split
  · rename_i hlong
    exact holds_write_long h hlong
  · rename_i hlong
    dsimp only
    split
    · rename_i hfits
      exact holds_write_fits h hfits rb.full
    · rename_i hfits
      exact holds_write_wraps h (by omega) (by omega) true

/-! ## The flag -/

/-- One of the writes is as long as the buffer, or goes beyond its end. -/
def Wraps (c : ℕ) (ws : List Bytes) : Prop :=
  ∃ pre p post, ws = pre ++ p :: post ∧ (c ≤ p.length ∨ c < pre.flatten.length % c + p.length)

theorem not_wraps_nil : ¬Wraps c [] := by
  rintro ⟨pre, p, post, h, -⟩
  exact List.append_ne_nil_of_right_ne_nil pre (List.cons_ne_nil p post) h.symm

theorem wraps_concat {ws : List Bytes} :
    Wraps c (ws ++ [p]) ↔
      Wraps c ws ∨ c ≤ p.length ∨ c < ws.flatten.length % c + p.length := by
  refine ⟨?_, ?_⟩
  · rintro ⟨pre, q, post, h, hq⟩
    rcases List.eq_nil_or_concat post with rfl | ⟨post, r, rfl⟩
    · obtain ⟨rfl, hpq⟩ := List.append_inj' h rfl
      rw [List.singleton_inj.mp hpq]
      exact .inr hq
    · rw [List.concat_eq_append, ← List.cons_append, ← List.append_assoc] at h
      exact .inl ⟨pre, q, post, (List.append_inj' h rfl).1, hq⟩
  · rintro (⟨pre, q, post, rfl, hq⟩ | hp)
    · exact ⟨pre, q, post ++ [p], by rw [List.append_assoc, List.cons_append], hq⟩
    · exact ⟨ws, p, [], rfl, hp⟩

/-- Whoever goes beyond the end has written as much as the buffer holds. -/
theorem Wraps.le_length {ws : List Bytes} (h : Wraps c ws) : c ≤ ws.flatten.length := by
  obtain ⟨pre, p, post, rfl, hp⟩ := h
  have hmod := Nat.mod_le pre.flatten.length c
  rw [List.flatten_append, List.flatten_cons, List.length_append, List.length_append]
  omega

/-- What the flag and the position say about the writes so far. -/
structure Flagged (c : ℕ) (ws : List Bytes) (rb : RingBuffer) : Prop where
  /-- The flag is set if one of them went beyond the end. -/
  full_iff : rb.full = true ↔ Wraps c ws
  /-- Until then, the position counts the bytes. -/
  pos_eq : rb.full = false → rb.pos = ws.flatten.length % c

theorem flagged_write {ws : List Bytes} (hlen : rb.buf.length = c) (h : Flagged c ws rb)
    (p : Bytes) : Flagged c (ws ++ [p]) (rb.write p).1 := by
  rw [write, hlen]
  split
  · rename_i hlong
    exact ⟨iff_of_true rfl (wraps_concat.mpr (.inr (.inl hlong))), fun hf ↦ (nomatch hf)⟩
  · rename_i hlong
    dsimp only
    cases hfull : rb.full with
    | true =>
      have hwraps : Wraps c (ws ++ [p]) := wraps_concat.mpr (.inl (h.full_iff.mp hfull))
      split
      · exact ⟨iff_of_true rfl hwraps, fun hf ↦ (nomatch hf)⟩
      · exact ⟨iff_of_true rfl hwraps, fun hf ↦ (nomatch hf)⟩
    | false =>
      have hpos := h.pos_eq hfull
      have hnot : ¬Wraps c ws := fun hw ↦ by
        rw [h.full_iff.mpr hw] at hfull
        exact absurd hfull.symm Bool.false_ne_true
      split
      · rename_i hfits
        refine ⟨iff_of_false Bool.false_ne_true ?_, fun _ ↦ ?_⟩
        · rw [wraps_concat, not_or, not_or]
          exact ⟨hnot, hlong, by omega⟩
        · rw [List.flatten_concat, List.length_append, hpos, Nat.mod_add_mod]
      · rename_i hfits
        exact ⟨iff_of_true rfl (wraps_concat.mpr (.inr (.inr (by omega)))), fun hf ↦ (nomatch hf)⟩

/-- **A buffer after any writes.** -/
theorem holds_after (hc : 0 < c) (ws : List Bytes) :
    Holds c ws.flatten (after c ws) ∧ Flagged c ws (after c ws) := by
  induction ws using List.reverseRecOn with
  | nil =>
    refine ⟨holds_new hc, iff_of_false Bool.false_ne_true not_wraps_nil, fun _ ↦ ?_⟩
    exact (Nat.zero_mod c).symm
  | append_singleton ws p ih =>
    obtain ⟨hholds, hflagged⟩ := ih
    rw [after, List.foldl_concat, List.flatten_concat]
    exact ⟨holds_write hholds p, flagged_write hholds.length_buf hflagged p⟩

/-! ## The snapshot -/

/-- A snapshot of a buffer whose flag is set has all of it. -/
theorem snapshot_of_full (h : Holds c all rb) (hfull : rb.full = true) :
    rb.snapshot = rb.unrolled := by
  have hpos := h.pos_lt
  have hlen := h.length_buf
  have hdrop : (rb.buf.drop rb.pos).length = c - rb.pos := by rw [List.length_drop, hlen]
  have htake : (rb.buf.take rb.pos).length + 0 = rb.pos := by
    rw [List.length_take]
    omega
  rw [snapshot, hfull, if_neg (by decide), hlen, unrolled, ← List.nil_append (List.replicate c 0)]
  dsimp only
  rw [copyAt_fill (i := 0) rfl rb.pos (by omega), List.nil_append, copyAt_fill hdrop 0 htake.symm,
    List.replicate_zero, List.append_nil]

/-- A snapshot of any other buffer ends at the position. -/
theorem snapshot_of_not_full (h : Holds c all rb) (hfull : rb.full = false) :
    rb.snapshot = rb.buf.take rb.pos := by
  have hpos := h.pos_lt
  have hlen := h.length_buf
  have htake : (rb.buf.take rb.pos).length + 0 = rb.pos := by
    rw [List.length_take]
    omega
  rw [snapshot, hfull, if_pos (by decide), ← List.nil_append (List.replicate rb.pos 0),
    copyAt_fill (i := 0) rfl 0 htake.symm, List.replicate_zero, List.append_nil, List.nil_append]

/-- **When a snapshot has the last bytes**, for every capacity and every sequence of writes: as long
as less than the capacity has been written, and from the first write on that is as long as the
buffer or goes beyond its end.  If the writes fill the buffer exactly, it does not. -/
theorem snapshot_exact_iff (c : ℕ) (hc : 0 < c) (ws : List Bytes) :
    (after c ws).snapshot = ws.flatten.rtake (min c ws.flatten.length) ↔
      ws.flatten.length < c ∨ Wraps c ws := by
  obtain ⟨hholds, hflagged⟩ := holds_after hc ws
  have hlen := hholds.length_buf
  have hpos := hholds.pos_lt
  have hbytes := hholds.unrolled_eq
  rw [List.drop_append, List.drop_replicate, List.length_replicate] at hbytes
  cases hfull : (after c ws).full with
  | true =>
    have hwraps := hflagged.full_iff.mp hfull
    have hle := hwraps.le_length
    refine iff_of_true ?_ (.inr hwraps)
    rw [snapshot_of_full hholds hfull, hbytes, Nat.sub_eq_zero_of_le hle, List.replicate_zero,
      List.nil_append, List.rtake, Nat.min_eq_left hle]
  | false =>
    have hcount := hflagged.pos_eq hfull
    rw [snapshot_of_not_full hholds hfull]
    rcases Nat.lt_or_ge ws.flatten.length c with hlt | hge
    · -- nothing has been overwritten: the bytes up to the position are all there are
      refine iff_of_true ?_ (.inl hlt)
      rw [Nat.mod_eq_of_lt hlt] at hcount
      rw [unrolled, Nat.sub_eq_zero_of_le hlt.le, List.drop_zero] at hbytes
      have hzeros : ((after c ws).buf.drop (after c ws).pos).length =
          (List.replicate (c - ws.flatten.length) (0 : UInt8)).length := by
        rw [List.length_drop, List.length_replicate, hlen, hcount]
      rw [(List.append_inj hbytes hzeros).2, List.rtake, Nat.min_eq_right hlt.le, Nat.sub_self,
        List.drop_zero]
    · -- the buffer was filled exactly, at least once, and the snapshot is too short
      refine iff_of_false (fun h ↦ ?_) ?_
      · have hshort := congrArg List.length h
        rw [List.length_take, List.rtake, List.length_drop] at hshort
        omega
      · rw [not_or, ← hflagged.full_iff, hfull]
        exact ⟨not_lt.mpr hge, Bool.false_ne_true⟩

/-- Three bytes and then two more in a buffer of four. -/
theorem snapshot_exact_iff_wrapped :
    (after 4 [[1, 2, 3], [4, 5]]).snapshot = [[1, 2, 3], [4, 5]].flatten.rtake (min 4 5) :=
  (snapshot_exact_iff 4 (by decide) [[1, 2, 3], [4, 5]]).mpr
    (.inr ⟨[[1, 2, 3]], [4, 5], [], rfl, .inr (by decide)⟩)

/-- Two writes that fill a buffer of four bytes exactly: the snapshot is empty. -/
theorem snapshot_empty_when_filled :
    (after 4 [[1, 2], [3, 4]]).snapshot = [] ∧ [[1, 2], [3, 4]].flatten.rtake (min 4 4) =
      ([1, 2, 3, 4] : Bytes) := by
  decide

end RingBuffer

end TunnelCat.Log
