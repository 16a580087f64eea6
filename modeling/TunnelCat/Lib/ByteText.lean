import TunnelCat.Lib.Bytes

/-!
# Text in byte strings

A program that reads a file gets bytes and treats them as text.  Three things it does with them are
modelled here: it reads hexadecimal digits (`unhex`, and `decodedBefore` for a decoder that returns
the bytes before the first mistake together with its error), it cuts white space off both ends
(`trimSpace`, with the white space of Unicode in its UTF-8 form), and it hands the bytes on as a
string (`string`).

The facts needed of them: the digits of a byte string are read back (`unhex_hexText`) and lose
nothing when they are trimmed (`trimSpace_hexText`), trimming makes nothing longer
(`length_trimSpace_le`), and a string of digits has as many bytes as the text it comes from
(`utf8ByteSize_string`).
-/

set_option autoImplicit false

open Bytes

namespace ByteText

/-! ## Digits -/

/-- The character of a byte that stands for itself. -/
def charOf (b : UInt8) : Char := Char.ofNat b.toNat

/-- The byte of such a character. -/
def byteOf (c : Char) : UInt8 := UInt8.ofNat c.toNat

/-- The hexadecimal digits of a byte string, as bytes. -/
def hexText (bs : Bytes) : Bytes := (hexChars bs).map byteOf

/-- The bytes a text of hexadecimal digits denotes. -/
def unhex (t : Bytes) : Option Bytes := unhexChars (t.map charOf)

/-- The bytes read before the first pair that is not two digits. -/
def decodedBefore : Bytes → Bytes
  | a :: b :: t =>
    match fromHexChar (charOf a), fromHexChar (charOf b) with
    | some x, some y => UInt8.ofNat (16 * x + y) :: decodedBefore t
    | _, _ => []
  | _ => []

theorem charOf_byteOf {c : Char} (h : IsLowerHex c) : charOf (byteOf c) = c := by
  obtain ⟨n, hn, -, rfl⟩ := fromHexChar_lower h
  revert n
  decide

theorem map_charOf_hexText (bs : Bytes) : (hexText bs).map charOf = hexChars bs := by
  rw [hexText, List.map_map]
  refine (List.map_congr_left fun c hc ↦ ?_).trans (List.map_id _)
  exact charOf_byteOf (hexChars_lower bs c hc)

@[simp] theorem length_hexText (bs : Bytes) : (hexText bs).length = 2 * bs.length := by
  rw [hexText, List.length_map, length_hexChars]

/-- **The digits of a byte string denote it.** -/
@[simp] theorem unhex_hexText (bs : Bytes) : unhex (hexText bs) = some bs := by
  rw [unhex, map_charOf_hexText, unhexChars_hexChars]

/-- A text of two or more characters is read pair by pair. -/
theorem unhex_cons_cons {a b : UInt8} {t bs : Bytes} (h : unhex (a :: b :: t) = some bs) :
    ∃ x y cs, fromHexChar (charOf a) = some x ∧ fromHexChar (charOf b) = some y ∧
      unhex t = some cs ∧ bs = UInt8.ofNat (16 * x + y) :: cs := by
  simp only [unhex, List.map_cons, unhexChars, Option.bind_eq_bind, Option.bind_eq_some_iff,
    Option.pure_def, Option.some_inj] at h
  obtain ⟨x, hx, y, hy, cs, hcs, rfl⟩ := h
  exact ⟨x, y, cs, hx, hy, hcs, rfl⟩

theorem unhex_singleton (a : UInt8) : unhex [a] = none := by
  rw [unhex, List.map_cons, List.map_nil, unhexChars]

/-- A byte has two digits. -/
theorem length_of_unhex : ∀ {t bs : Bytes}, unhex t = some bs → t.length = 2 * bs.length
  | [], bs, h => by
    rw [unhex, List.map_nil, unhexChars, Option.some_inj] at h
    rw [← h, List.length_nil]
  | [a], bs, h => absurd (h.symm.trans (unhex_singleton a)) (Option.some_ne_none bs)
  | a :: b :: t, bs, h => by
    obtain ⟨x, y, cs, -, -, hcs, rfl⟩ := unhex_cons_cons h
    rw [List.length_cons, List.length_cons, List.length_cons, length_of_unhex hcs]
    omega

/-- Without a mistake, everything is read. -/
theorem decodedBefore_eq : ∀ {t bs : Bytes}, unhex t = some bs → decodedBefore t = bs
  | [], bs, h => by
    rw [unhex, List.map_nil, unhexChars, Option.some_inj] at h
    rw [decodedBefore, h]
    exact fun _ _ _ ↦ List.cons_ne_nil _ _ ∘ Eq.symm
  | [a], bs, h => absurd (h.symm.trans (unhex_singleton a)) (Option.some_ne_none bs)
  | a :: b :: t, bs, h => by
    obtain ⟨x, y, cs, hx, hy, hcs, rfl⟩ := unhex_cons_cons h
    rw [decodedBefore, hx, hy, decodedBefore_eq hcs]

/-! ## Strings -/

/-- The string of a text whose bytes all stand for themselves. -/
def string (t : Bytes) : String := String.ofList (t.map charOf)

theorem hexDecode_string (t : Bytes) : hexDecode (string t) = unhex t := by
  rw [hexDecode, string, String.toList_ofList, unhex]

theorem utf8Size_of_fromHexChar {c : Char} {n : ℕ} (h : fromHexChar c = some n) :
    c.utf8Size = 1 := by
  have hle : ∀ d : Char, d.val ≤ 127 → c ≤ d → c.utf8Size = 1 := fun d hd hc ↦
    Char.utf8Size_eq_one_iff.mpr (UInt32.le_trans (Char.le_def.mp hc) hd)
  rw [fromHexChar] at h
  split at h
  · rename_i hc
    exact hle '9' (by decide) hc.2
  split at h
  · rename_i hc
    exact hle 'f' (by decide) hc.2
  split at h
  · rename_i hc
    exact hle 'F' (by decide) hc.2
  · exact absurd h (Option.some_ne_none n).symm

/-- **A string of digits has one byte for each of them.** -/
theorem utf8ByteSize_string : ∀ {t bs : Bytes}, unhex t = some bs →
    (string t).utf8ByteSize = t.length
  | [], _, _ => rfl
  | [a], bs, h => absurd (h.symm.trans (unhex_singleton a)) (Option.some_ne_none bs)
  | a :: b :: t, bs, h => by
    obtain ⟨x, y, cs, hx, hy, hcs, -⟩ := unhex_cons_cons h
    have ih : (String.ofList (t.map charOf)).utf8ByteSize = t.length := utf8ByteSize_string hcs
    rw [string, List.map_cons, List.map_cons, String.ofList_cons, String.ofList_cons,
      String.utf8ByteSize_append, String.utf8ByteSize_append, String.utf8ByteSize_singleton,
      String.utf8ByteSize_singleton, utf8Size_of_fromHexChar hx, utf8Size_of_fromHexChar hy, ih,
      List.length_cons, List.length_cons]
    omega

/-! ## White space -/

/-- The UTF-8 forms of the white space characters: tab to carriage return and blank, `U+0085`,
`U+00A0`, `U+1680`, `U+2000` to `U+200A`, `U+2028`, `U+2029`, `U+202F`, `U+205F`, `U+3000`. -/
def spaces : List Bytes :=
  [[0x09], [0x0a], [0x0b], [0x0c], [0x0d], [0x20], [0xc2, 0x85], [0xc2, 0xa0],
    [0xe1, 0x9a, 0x80], [0xe2, 0x80, 0x80], [0xe2, 0x80, 0x81], [0xe2, 0x80, 0x82],
    [0xe2, 0x80, 0x83], [0xe2, 0x80, 0x84], [0xe2, 0x80, 0x85], [0xe2, 0x80, 0x86],
    [0xe2, 0x80, 0x87], [0xe2, 0x80, 0x88], [0xe2, 0x80, 0x89], [0xe2, 0x80, 0x8a],
    [0xe2, 0x80, 0xa8], [0xe2, 0x80, 0xa9], [0xe2, 0x80, 0xaf], [0xe2, 0x81, 0x9f],
    [0xe3, 0x80, 0x80]]

/-- The text without the patterns at its beginning, `fuel` of them at most. -/
def strip (pats : List Bytes) : ℕ → Bytes → Bytes
  | 0, t => t
  | fuel + 1, t =>
    match pats.find? (·.isPrefixOf t) with
    | some p => strip pats fuel (t.drop p.length)
    | none => t

/-- `strings.TrimSpace`. -/
def trimSpace (t : Bytes) : Bytes :=
  let front := strip spaces t.length t
  (strip (spaces.map List.reverse) front.length front.reverse).reverse

theorem length_strip_le (pats : List Bytes) (fuel : ℕ) (t : Bytes) :
    (strip pats fuel t).length ≤ t.length := by
  induction fuel generalizing t with
  | zero => exact le_refl _
  | succ fuel ih =>
    rw [strip]
    split
    · refine (ih _).trans ?_
      rw [List.length_drop]
      exact Nat.sub_le _ _
    · exact le_refl _

/-- **Trimming makes nothing longer.** -/
theorem length_trimSpace_le (t : Bytes) : (trimSpace t).length ≤ t.length := by
  rw [trimSpace, List.length_reverse]
  refine (length_strip_le _ _ _).trans ?_
  rw [List.length_reverse]
  exact length_strip_le _ _ _

/-- A text of bytes with which no pattern begins keeps all of them. -/
theorem strip_eq_self {pats : List Bytes} {t : Bytes}
    (h : ∀ p ∈ pats, ∃ a q, p = a :: q ∧ a ∉ t) (fuel : ℕ) : strip pats fuel t = t := by
  cases fuel with
  | zero => rfl
  | succ fuel =>
    have hnone : pats.find? (·.isPrefixOf t) = none := by
      rw [List.find?_eq_none]
      intro p hp hpre
      obtain ⟨a, q, rfl, ha⟩ := h p hp
      exact ha ((List.isPrefixOf_iff_prefix.mp hpre).subset (List.mem_cons_self ..))
    rw [strip, hnone]

/-- **A text of bytes that no white space has loses nothing.** -/
theorem trimSpace_eq_self {t : Bytes} (h : ∀ b ∈ t, ∀ p ∈ spaces, b ∉ p) : trimSpace t = t := by
  have hne : ∀ p ∈ spaces, p ≠ [] := by decide
  have hout : ∀ p ∈ spaces, ∀ a ∈ p, a ∉ t := fun p hp a ha hat ↦ h a hat p hp ha
  have hfront : strip spaces t.length t = t := by
    refine strip_eq_self (fun p hp ↦ ?_) _
    obtain ⟨a, q, rfl⟩ := List.exists_cons_of_ne_nil (hne p hp)
    exact ⟨a, q, rfl, hout _ hp a (List.mem_cons_self ..)⟩
  have hback : strip (spaces.map List.reverse) t.length t.reverse = t.reverse := by
    refine strip_eq_self (fun r hr ↦ ?_) _
    obtain ⟨p, hp, rfl⟩ := List.mem_map.mp hr
    obtain ⟨a, q, hq⟩ := List.exists_cons_of_ne_nil (List.reverse_ne_nil_iff.mpr (hne p hp))
    refine ⟨a, q, hq, fun ha ↦ hout p hp a ?_ (List.mem_reverse.mp ha)⟩
    exact List.mem_reverse.mp (hq ▸ List.mem_cons_self ..)
  rw [trimSpace, hfront, hback, List.reverse_reverse]

@[simp] theorem trimSpace_hexText (bs : Bytes) : trimSpace (hexText bs) = hexText bs := by
  have hdigit : ∀ n < 16, ∀ p ∈ spaces, byteOf (hexDigit n) ∉ p := by decide
  refine trimSpace_eq_self fun b hb ↦ ?_
  obtain ⟨c, hc, rfl⟩ := List.mem_map.mp hb
  obtain ⟨n, hn, -, rfl⟩ := fromHexChar_lower (hexChars_lower bs c hc)
  exact hdigit n hn

end ByteText
