import TunnelCat.Lib.Bytes

/-!
# Self-delimiting formats

A *format* is a writer and a reader for values that stand one after the other in a byte string, and
the law that ties them together: the reader takes a value off the front of a string exactly if the
string begins with what the writer makes of a value the format has room for.  The one law,
`Format.decode_eq_some_iff`, is both directions at once — what was written is read back whatever
follows it, and what is read was written that way, with nothing in between.

The formats of binary protocols are made of a few pieces, and each is a format again:

* `number k`, a number of `k` bytes, most significant first;
* `bytes n`, exactly `n` bytes, and `times n F`, exactly `n` values of `F`;
* `seq F G`, a value of `F` and then one of `G`;
* `dep F G tag`, a value whose format is chosen by something written in front of it.

The length-prefixed string `prefixed k` and the counted list `counted k F` are instances of the
last.  `decode_prefixed` says what the reader of a length-prefixed string is in the terms a program
has: one comparison, and two cuts.
-/

set_option autoImplicit false

open Bytes

/-- A writer and a reader for values of one type in a byte string. -/
structure Format (α : Type*) where
  /-- What a value is written as. -/
  encode : α → Bytes
  /-- The value at the front of a string, and what follows it. -/
  decode : Bytes → Option (α × Bytes)
  /-- The values the format has room for. -/
  Valid : α → Prop
  /-- A value is read exactly where it was written. -/
  decode_eq_some_iff : ∀ {s : Bytes} {a : α} {rest : Bytes},
    decode s = some (a, rest) ↔ Valid a ∧ s = encode a ++ rest

namespace Format

variable {α β : Type*}

/-- **What is written is read back**, whatever follows it. -/
theorem decode_encode (F : Format α) {a : α} (h : F.Valid a) (rest : Bytes) :
    F.decode (F.encode a ++ rest) = some (a, rest) :=
  F.decode_eq_some_iff.mpr ⟨h, rfl⟩

/-- **No encoding is a proper beginning of another**: a string begins with one value at most. -/
theorem encode_append_inj (F : Format α) {a b : α} {r s : Bytes} (ha : F.Valid a) (hb : F.Valid b)
    (h : F.encode a ++ r = F.encode b ++ s) : a = b ∧ r = s := by
  have hread := F.decode_encode ha r
  rw [h, F.decode_encode hb s, Option.some_inj, Prod.mk.injEq] at hread
  exact ⟨hread.1.symm, hread.2.symm⟩

/-- A value that is cut off is not read. -/
theorem decode_take (F : Format α) {a : α} (h : F.Valid a) {j : ℕ} (hj : j < (F.encode a).length) :
    F.decode ((F.encode a).take j) = none := by
  cases hread : F.decode ((F.encode a).take j) with
  | none => rfl
  | some q =>
    -- what was read would be a beginning of the whole, so it would be the whole
    obtain ⟨b, rest⟩ := q
    obtain ⟨hb, hsplit⟩ := F.decode_eq_some_iff.mp hread
    have hwhole : F.encode b ++ (rest ++ (F.encode a).drop j) = F.encode a ++ [] := by
      rw [← List.append_assoc, ← hsplit, List.take_append_drop, List.append_nil]
    have hnil := (F.encode_append_inj hb h hwhole).2
    have hdrop := (List.append_eq_nil_iff.mp hnil).2
    rw [List.drop_eq_nil_iff] at hdrop
    omega

/-! ## The pieces -/

/-- A number of `k` bytes, most significant first. -/
def number (k : ℕ) : Format ℕ where
  encode := beEncode k
  decode s := if s.length < k then none else some (beNat (s.take k), s.drop k)
  Valid n := n < 256 ^ k
  decode_eq_some_iff := by
    intro s n rest
    rw [Option.ite_none_left_eq_some, Option.some_inj, Prod.mk.injEq]
    refine ⟨?_, ?_⟩
    · rintro ⟨hlong, rfl, rfl⟩
      have hlen : (s.take k).length = k := List.length_take_of_le (by omega)
      refine ⟨?_, ?_⟩
      · conv_rhs => rw [← hlen]
        exact beNat_lt _
      · conv_lhs => rw [← List.take_append_drop k s, ← beEncode_beNat (s.take k), hlen]
    · rintro ⟨hlt, rfl⟩
      rw [List.take_left' (length_beEncode k n), List.drop_left' (length_beEncode k n),
        beNat_beEncode, Nat.mod_eq_of_lt hlt, List.length_append, length_beEncode]
      exact ⟨by omega, rfl, rfl⟩

/-- Exactly `n` bytes. -/
def bytes (n : ℕ) : Format Bytes where
  encode b := b
  decode s := if s.length < n then none else some (s.take n, s.drop n)
  Valid b := b.length = n
  decode_eq_some_iff := by
    intro s b rest
    rw [Option.ite_none_left_eq_some, Option.some_inj, Prod.mk.injEq]
    refine ⟨?_, ?_⟩
    · rintro ⟨hlong, rfl, rfl⟩
      exact ⟨List.length_take_of_le (by omega), (List.take_append_drop n s).symm⟩
    · rintro ⟨rfl, rfl⟩
      rw [List.take_left, List.drop_left, List.length_append]
      exact ⟨by omega, rfl, rfl⟩

/-- A value of `F`, and then one of `G`. -/
def seq (F : Format α) (G : Format β) : Format (α × β) where
  encode p := F.encode p.1 ++ G.encode p.2
  decode s := (F.decode s).bind fun p ↦ (G.decode p.2).map fun q ↦ ((p.1, q.1), q.2)
  Valid p := F.Valid p.1 ∧ G.Valid p.2
  decode_eq_some_iff := by
    rintro s ⟨a, b⟩ rest
    simp only [Option.bind_eq_some_iff, Option.map_eq_some_iff, Prod.mk.injEq, Prod.exists,
      F.decode_eq_some_iff, G.decode_eq_some_iff]
    refine ⟨?_, ?_⟩
    · rintro ⟨a, _, ⟨ha, rfl⟩, b, rest, ⟨hb, rfl⟩, ⟨rfl, rfl⟩, rfl⟩
      exact ⟨⟨ha, hb⟩, (List.append_assoc ..).symm⟩
    · rintro ⟨⟨ha, hb⟩, rfl⟩
      exact ⟨a, _, ⟨ha, List.append_assoc ..⟩, b, rest, ⟨hb, rfl⟩, ⟨rfl, rfl⟩, rfl⟩

/-- A value whose format is chosen by a tag in front of it.  The tag is a function of the value. -/
def dep (F : Format α) (G : α → Format β) (tag : β → α)
    (htag : ∀ {a : α} {b : β}, (G a).Valid b → tag b = a) : Format β where
  encode b := F.encode (tag b) ++ (G (tag b)).encode b
  decode s := (F.decode s).bind fun p ↦ (G p.1).decode p.2
  Valid b := F.Valid (tag b) ∧ (G (tag b)).Valid b
  decode_eq_some_iff := by
    intro s b rest
    simp only [Option.bind_eq_some_iff, Prod.exists, F.decode_eq_some_iff,
      Format.decode_eq_some_iff]
    refine ⟨?_, ?_⟩
    · rintro ⟨a, _, ⟨ha, rfl⟩, hb, rfl⟩
      obtain rfl := htag hb
      exact ⟨⟨ha, hb⟩, (List.append_assoc ..).symm⟩
    · rintro ⟨⟨ha, hb⟩, rfl⟩
      exact ⟨tag b, _, ⟨ha, List.append_assoc ..⟩, hb, rfl⟩

/-! ## Lists -/

/-- The reader of exactly `n` values. -/
def decodeTimes (F : Format α) : ℕ → Bytes → Option (List α × Bytes)
  | 0, s => some ([], s)
  | n + 1, s =>
    (F.decode s).bind fun p ↦ (decodeTimes F n p.2).map fun q ↦ (p.1 :: q.1, q.2)

/-- Exactly `n` values of `F`, one after the other. -/
def times (n : ℕ) (F : Format α) : Format (List α) where
  encode l := l.flatMap F.encode
  decode := decodeTimes F n
  Valid l := l.length = n ∧ ∀ a ∈ l, F.Valid a
  decode_eq_some_iff := by
    intro s l rest
    induction n generalizing s l rest with
    | zero =>
      rw [decodeTimes, Option.some_inj, Prod.mk.injEq, List.length_eq_zero_iff]
      refine ⟨?_, ?_⟩
      · rintro ⟨rfl, rfl⟩
        exact ⟨⟨rfl, fun a ha ↦ absurd ha List.not_mem_nil⟩, rfl⟩
      · rintro ⟨⟨rfl, -⟩, rfl⟩
        exact ⟨rfl, rfl⟩
    | succ n ih =>
      simp only [decodeTimes, Option.bind_eq_some_iff, Option.map_eq_some_iff, Prod.mk.injEq,
        Prod.exists, F.decode_eq_some_iff, ih]
      refine ⟨?_, ?_⟩
      · rintro ⟨a, _, ⟨ha, rfl⟩, l, rest, ⟨⟨rfl, hl⟩, rfl⟩, rfl, rfl⟩
        refine ⟨⟨rfl, List.forall_mem_cons.mpr ⟨ha, hl⟩⟩, ?_⟩
        rw [List.flatMap_cons, List.append_assoc]
      · rintro ⟨⟨hlen, hvalid⟩, rfl⟩
        obtain ⟨a, l, rfl⟩ := List.exists_cons_of_length_eq_add_one hlen
        obtain ⟨ha, hl⟩ := List.forall_mem_cons.mp hvalid
        rw [List.flatMap_cons, List.append_assoc]
        exact ⟨a, _, ⟨ha, rfl⟩, l, rest, ⟨⟨Nat.succ_injective hlen, hl⟩, rfl⟩, rfl, rfl⟩

/-- A list with the number of its values in `k` bytes in front. -/
def counted (k : ℕ) (F : Format α) : Format (List α) :=
  dep (number k) (fun n ↦ times n F) List.length fun h ↦ h.1

/-! ## Length-prefixed strings -/

/-- A string with its length in `k` bytes in front. -/
def prefixed (k : ℕ) : Format Bytes :=
  dep (number k) bytes List.length id

theorem valid_prefixed {k : ℕ} {b : Bytes} : (prefixed k).Valid b ↔ b.length < 256 ^ k :=
  and_iff_left rfl

/-- The reader of a length-prefixed string, as one comparison and two cuts. -/
theorem decode_prefixed (k : ℕ) (s : Bytes) :
    (prefixed k).decode s =
      if s.length < k + beNat (s.take k) then none
      else some ((s.drop k).take (beNat (s.take k)), s.drop (k + beNat (s.take k))) := by
  dsimp only [prefixed, dep, number, bytes]
  by_cases hshort : s.length < k
  · rw [if_pos hshort, if_pos (by omega), Option.bind_none]
  · rw [if_neg hshort, Option.bind_some, List.length_drop, List.drop_drop]
    by_cases hlong : s.length < k + beNat (s.take k)
    · rw [if_pos (by omega), if_pos hlong]
    · rw [if_neg (by omega), if_neg hlong]

end Format
