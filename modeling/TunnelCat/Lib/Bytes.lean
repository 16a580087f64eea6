import Mathlib.Data.List.Induction
import Mathlib.Tactic.Ring

/-!
# Byte strings

The three things a wire protocol does with bytes: it writes and reads numbers of a fixed width
most significant byte first (`beEncode`, `beNat`), it writes bytes as hexadecimal text
(`hexEncode`, `hexDecode`), and it copies a field into its place in a preallocated buffer
(`copyAt`).  Each comes with the equations that undo it.

`beNat` is also how two byte strings of one length are compared: `lexLt_iff` says that the
byte-by-byte comparison and the comparison of the two numbers are the same order.
-/

set_option autoImplicit false

/-- A byte string. -/
abbrev Bytes := List UInt8

namespace Bytes

/-! ## Big-endian numbers -/

/-- The number a byte string denotes, most significant byte first. -/
def beNat (bs : Bytes) : ℕ := bs.foldl (fun acc b ↦ acc * 256 + b.toNat) 0

/-- The `k` low-order bytes of `n`, most significant first. -/
def beEncode : ℕ → ℕ → Bytes
  | 0, _ => []
  | k + 1, n => beEncode k (n / 256) ++ [UInt8.ofNat n]

@[simp] theorem beNat_nil : beNat [] = 0 := rfl

theorem beNat_concat (bs : Bytes) (b : UInt8) : beNat (bs ++ [b]) = beNat bs * 256 + b.toNat := by
  simp [beNat]

theorem foldl_be (bs : Bytes) (n : ℕ) :
    bs.foldl (fun acc b ↦ acc * 256 + b.toNat) n = n * 256 ^ bs.length + beNat bs := by
  induction bs using List.reverseRecOn with
  | nil => simp
  | append_singleton bs b ih =>
    rw [beNat_concat, List.foldl_append, ih]
    simp only [List.foldl_cons, List.foldl_nil, List.length_append, List.length_singleton]
    ring

theorem beNat_cons (b : UInt8) (bs : Bytes) :
    beNat (b :: bs) = b.toNat * 256 ^ bs.length + beNat bs := by
  rw [beNat, List.foldl_cons, foldl_be]
  simp

theorem beNat_append (as bs : Bytes) :
    beNat (as ++ bs) = beNat as * 256 ^ bs.length + beNat bs := by
  rw [beNat, List.foldl_append, foldl_be]
  rfl

@[simp] theorem length_beEncode (k n : ℕ) : (beEncode k n).length = k := by
  induction k generalizing n with
  | zero => rfl
  | succ k ih => simp [beEncode, ih]

theorem beNat_lt (bs : Bytes) : beNat bs < 256 ^ bs.length := by
  induction bs with
  | nil => simp
  | cons b bs ih =>
    rw [beNat_cons, List.length_cons, Nat.pow_succ]
    have hb : b.toNat + 1 ≤ 256 := b.toNat_lt
    calc b.toNat * 256 ^ bs.length + beNat bs
        < b.toNat * 256 ^ bs.length + 256 ^ bs.length := by omega
      _ = (b.toNat + 1) * 256 ^ bs.length := by ring
      _ ≤ 256 * 256 ^ bs.length := Nat.mul_le_mul_right _ hb
      _ = 256 ^ bs.length * 256 := by ring

/-- Reading what was written gives the number back, up to what `k` bytes can hold. -/
theorem beNat_beEncode (k n : ℕ) : beNat (beEncode k n) = n % 256 ^ k := by
  induction k generalizing n with
  | zero => simp [beEncode, Nat.mod_one]
  | succ k ih =>
    rw [beEncode, beNat_concat, ih, Nat.pow_succ, Nat.mul_comm (256 ^ k), Nat.mod_mul]
    have : (UInt8.ofNat n).toNat = n % 256 := by simp
    omega

/-- Writing what was read gives the bytes back. -/
theorem beEncode_beNat (bs : Bytes) : beEncode bs.length (beNat bs) = bs := by
  induction bs using List.reverseRecOn with
  | nil => rfl
  | append_singleton bs b ih =>
    have hb := b.toNat_lt
    rw [List.length_append, List.length_singleton, beEncode, beNat_concat,
      show (beNat bs * 256 + b.toNat) / 256 = beNat bs by omega, ih]
    refine congrArg (bs ++ [·]) (UInt8.toNat_inj.mp ?_)
    rw [UInt8.toNat_ofNat']
    omega

theorem beNat_injective {xs ys : Bytes} (hlen : xs.length = ys.length)
    (h : beNat xs = beNat ys) : xs = ys := by
  rw [← beEncode_beNat xs, ← beEncode_beNat ys, hlen, h]

/-- The comparison of two byte strings that stops at the first byte in which they differ. -/
def lexLt : Bytes → Bytes → Bool
  | a :: as, b :: bs => if a ≠ b then decide (a < b) else lexLt as bs
  | _, _ => false

/-- **Comparing byte by byte is comparing the numbers**, for strings of one length. -/
theorem lexLt_iff {xs ys : Bytes} (hlen : xs.length = ys.length) :
    lexLt xs ys = true ↔ beNat xs < beNat ys := by
  induction xs generalizing ys with
  | nil =>
    obtain rfl : ys = [] := List.length_eq_zero_iff.mp hlen.symm
    simp [lexLt]
  | cons a as ih =>
    cases ys with
    | nil => simp at hlen
    | cons b bs =>
      have hl : as.length = bs.length := by simpa using hlen
      have ha := beNat_lt as
      have hb := beNat_lt bs
      rw [lexLt, beNat_cons, beNat_cons, hl]
      rw [hl] at ha
      split
      · rename_i hne
        rw [decide_eq_true_eq, UInt8.lt_iff_toNat_lt]
        have hne' : a.toNat ≠ b.toNat := fun h ↦ hne (UInt8.toNat_inj.mp h)
        constructor
        · intro hab
          calc a.toNat * 256 ^ bs.length + beNat as
              < (a.toNat + 1) * 256 ^ bs.length := by rw [Nat.add_mul]; omega
            _ ≤ b.toNat * 256 ^ bs.length := Nat.mul_le_mul_right _ hab
            _ ≤ b.toNat * 256 ^ bs.length + beNat bs := Nat.le_add_right _ _
        · intro h
          by_contra hab
          have hba : b.toNat + 1 ≤ a.toNat := by omega
          have := Nat.mul_le_mul_right (256 ^ bs.length) hba
          rw [Nat.add_mul] at this
          omega
      · rename_i heq
        obtain rfl : a = b := not_not.mp heq
        rw [ih hl]
        omega

/-! ## Copying into a buffer -/

/-- `src` copied over `buf` from position `i` on, as far as it fits. -/
def copyAt (buf : Bytes) (i : ℕ) (src : Bytes) : Bytes :=
  buf.take i ++ src.take (buf.length - i) ++ buf.drop (i + src.length)

/-- Copying over the first bytes of what follows `pre`. -/
theorem copyAt_append {p m r s : Bytes} {i : ℕ} (hi : p.length = i)
    (hm : s.length = m.length) : copyAt (p ++ m ++ r) i s = p ++ s ++ r := by
  subst hi
  have htake : s.take ((p ++ m ++ r).length - p.length) = s := by
    refine List.take_of_length_le ?_
    simp only [List.length_append]
    omega
  rw [copyAt, htake, List.append_assoc p m r, List.take_left', hm, ← List.drop_drop,
    List.drop_left', List.drop_left']
  all_goals rfl

/-- Filling a buffer of zeros from the front: each copy goes where the one before it ended. -/
theorem copyAt_fill {p s : Bytes} {i n : ℕ} (hi : p.length = i) (m : ℕ) (hn : n = s.length + m) :
    copyAt (p ++ List.replicate n 0) i s = p ++ s ++ List.replicate m 0 := by
  subst hn
  rw [← List.replicate_append_replicate, ← List.append_assoc]
  exact copyAt_append hi List.length_replicate.symm

/-! ## Hexadecimal text -/

/-- The digit of a number below 16. -/
def hexDigit (n : ℕ) : Char :=
  if n < 10 then Char.ofNat (48 + n) else Char.ofNat (87 + n)

/-- The value of a hexadecimal digit, in either letter case. -/
def fromHexChar (c : Char) : Option ℕ :=
  if '0' ≤ c ∧ c ≤ '9' then some (c.toNat - 48)
  else if 'a' ≤ c ∧ c ≤ 'f' then some (c.toNat - 87)
  else if 'A' ≤ c ∧ c ≤ 'F' then some (c.toNat - 55)
  else none

/-- The digits of a byte string, two for each byte. -/
def hexChars : Bytes → List Char
  | [] => []
  | b :: bs => hexDigit (b.toNat / 16) :: hexDigit (b.toNat % 16) :: hexChars bs

/-- The bytes a list of digits denotes. -/
def unhexChars : List Char → Option Bytes
  | [] => some []
  | [_] => none
  | a :: b :: cs => do
    let x ← fromHexChar a
    let y ← fromHexChar b
    let bs ← unhexChars cs
    return UInt8.ofNat (16 * x + y) :: bs

/-- `hex.EncodeToString`. -/
def hexEncode (bs : Bytes) : String := String.ofList (hexChars bs)

/-- `hex.DecodeString`; every error is `none`. -/
def hexDecode (s : String) : Option Bytes := unhexChars s.toList

/-- A character that `hexEncode` can produce. -/
def IsLowerHex (c : Char) : Prop := ('0' ≤ c ∧ c ≤ '9') ∨ ('a' ≤ c ∧ c ≤ 'f')

instance (c : Char) : Decidable (IsLowerHex c) :=
  inferInstanceAs (Decidable (('0' ≤ c ∧ c ≤ '9') ∨ ('a' ≤ c ∧ c ≤ 'f')))

theorem fromHexChar_hexDigit : ∀ n < 16, fromHexChar (hexDigit n) = some n := by decide

theorem isLowerHex_hexDigit : ∀ n < 16, IsLowerHex (hexDigit n) := by decide

/-- A lower-case digit is the digit of its value. -/
theorem fromHexChar_lower {c : Char} (h : IsLowerHex c) :
    ∃ n < 16, fromHexChar c = some n ∧ hexDigit n = c := by
  have key : ∀ lo hi : Char, lo ≤ c → c ≤ hi → lo.toNat ≤ c.toNat ∧ c.toNat ≤ hi.toNat :=
    fun lo hi h1 h2 ↦ ⟨Char.le_def.mp h1, Char.le_def.mp h2⟩
  rcases h with ⟨h1, h2⟩ | ⟨h1, h2⟩
  · obtain ⟨hl, hh⟩ := key _ _ h1 h2
    simp only [Char.reduceToNat] at hl hh
    refine ⟨c.toNat - 48, by omega, by rw [fromHexChar, if_pos ⟨h1, h2⟩], ?_⟩
    rw [hexDigit, if_pos (by omega), show 48 + (c.toNat - 48) = c.toNat by omega, Char.ofNat_toNat]
  · obtain ⟨hl, hh⟩ := key _ _ h1 h2
    simp only [Char.reduceToNat] at hl hh
    have hnot : ¬('0' ≤ c ∧ c ≤ '9') := by
      rintro ⟨_, h9⟩
      have := Char.le_def.mp h9
      have : c.toNat ≤ 57 := this
      omega
    refine ⟨c.toNat - 87, by omega, by rw [fromHexChar, if_neg hnot, if_pos ⟨h1, h2⟩], ?_⟩
    rw [hexDigit, if_neg (by omega), show 87 + (c.toNat - 87) = c.toNat by omega, Char.ofNat_toNat]

@[simp] theorem length_hexChars (bs : Bytes) : (hexChars bs).length = 2 * bs.length := by
  induction bs with
  | nil => rfl
  | cons b bs ih => simp [hexChars, ih]; omega

theorem hexChars_lower (bs : Bytes) : ∀ c ∈ hexChars bs, IsLowerHex c := by
  induction bs with
  | nil => simp [hexChars]
  | cons b bs ih =>
    have hb := b.toNat_lt
    intro c hc
    simp only [hexChars, List.mem_cons] at hc
    rcases hc with rfl | rfl | hc
    · exact isLowerHex_hexDigit _ (by omega)
    · exact isLowerHex_hexDigit _ (by omega)
    · exact ih c hc

theorem unhexChars_hexChars (bs : Bytes) : unhexChars (hexChars bs) = some bs := by
  induction bs with
  | nil => rfl
  | cons b bs ih =>
    have hb := b.toNat_lt
    rw [hexChars, unhexChars, fromHexChar_hexDigit _ (by omega), fromHexChar_hexDigit _ (by omega),
      ih]
    simp only [Option.bind_eq_bind, Option.bind_some, Option.pure_def,
      show 16 * (b.toNat / 16) + b.toNat % 16 = b.toNat by omega, UInt8.ofNat_toNat]

/-- A decoded string of lower-case digits is the text of its bytes. -/
theorem unhexChars_lower : ∀ {cs : List Char}, (∀ c ∈ cs, IsLowerHex c) → Even cs.length →
    ∃ bs, unhexChars cs = some bs ∧ hexChars bs = cs
  | [], _, _ => ⟨[], rfl, rfl⟩
  | [_], _, hlen => by simp at hlen
  | a :: b :: cs, h, hlen => by
    obtain ⟨x, hx, hax, hxa⟩ := fromHexChar_lower (h a (by simp))
    obtain ⟨y, hy, hby, hyb⟩ := fromHexChar_lower (h b (by simp))
    have hrest : ∀ c ∈ cs, IsLowerHex c := fun c hc ↦ h c (by simp [hc])
    obtain ⟨bs, hbs, hcs⟩ := unhexChars_lower hrest (by simpa [Nat.even_add_one] using hlen)
    refine ⟨UInt8.ofNat (16 * x + y) :: bs, ?_, ?_⟩
    · rw [unhexChars, hax, hby, hbs]
      rfl
    · rw [hexChars, UInt8.toNat_ofNat', show (16 * x + y) % 2 ^ 8 / 16 = x by omega,
        show (16 * x + y) % 2 ^ 8 % 16 = y by omega, hxa, hyb, hcs]

/-- **Decoding undoes encoding.** -/
theorem hexDecode_hexEncode (bs : Bytes) : hexDecode (hexEncode bs) = some bs := by
  rw [hexDecode, hexEncode, String.toList_ofList, unhexChars_hexChars]

/-- **Encoding undoes decoding**, for lower-case text of even length. -/
theorem hexEncode_of_lower {s : String} (h : ∀ c ∈ s.toList, IsLowerHex c)
    (hlen : Even s.toList.length) : ∃ bs, hexDecode s = some bs ∧ hexEncode bs = s := by
  obtain ⟨bs, hbs, hcs⟩ := unhexChars_lower h hlen
  exact ⟨bs, hbs, by rw [hexEncode, hcs, String.ofList_toList]⟩

end Bytes
