import TunnelCat.Lib.Bytes
import Mathlib.Data.Nat.Bitwise

/-!
# Leading bits of byte strings

How many leading bits two byte strings share, computed the way programs do it: scan the bytewise
exclusive or for the first byte that is not zero, and add the leading zeros of that byte to eight
for every byte before it.  `firstBit_eq_commonPrefix` says that the scan computes the length of
the common prefix of the two strings of bits, for any two different strings of one length.
-/

set_option autoImplicit false

namespace Bytes

/-- The number of leading entries two lists share. -/
def commonPrefix {α : Type*} [DecidableEq α] : List α → List α → ℕ
  | a :: as, b :: bs => if a = b then commonPrefix as bs + 1 else 0
  | _, _ => 0

section CommonPrefix

variable {α : Type*} [DecidableEq α]

theorem commonPrefix_append_left (l xs ys : List α) :
    commonPrefix (l ++ xs) (l ++ ys) = l.length + commonPrefix xs ys := by
  induction l with
  | nil => simp
  | cons a l ih =>
    rw [List.cons_append, List.cons_append, commonPrefix, if_pos rfl, ih, List.length_cons]
    omega

theorem commonPrefix_append_of_ne {l l' : List α} (xs ys : List α) (hlen : l.length = l'.length)
    (hne : l ≠ l') : commonPrefix (l ++ xs) (l' ++ ys) = commonPrefix l l' := by
  induction l generalizing l' with
  | nil => exact absurd (List.length_eq_zero_iff.mp hlen.symm).symm hne
  | cons a l ih =>
    cases l' with
    | nil => simp at hlen
    | cons b l' =>
      rw [List.cons_append, List.cons_append, commonPrefix, commonPrefix]
      split
      · rename_i hab
        subst hab
        rw [ih (by simpa using hlen) (fun h ↦ hne (by rw [h]))]
      · rfl

end CommonPrefix

/-! ## Bits -/

/-- The eight bits of a byte, most significant first. -/
def byteBits (b : UInt8) : List Bool := (List.range 8).map fun i ↦ b.toNat.testBit (7 - i)

/-- The bits of a byte string, most significant first. -/
def bits (bs : Bytes) : List Bool := bs.flatMap byteBits

@[simp] theorem length_byteBits (b : UInt8) : (byteBits b).length = 8 := rfl

theorem byteBits_injective : Function.Injective byteBits := by
  intro a b h
  refine UInt8.toNat_inj.mp (Nat.eq_of_testBit_eq fun i ↦ ?_)
  by_cases hi : i < 8
  · have h7 : ∀ j < 8, a.toNat.testBit (7 - j) = b.toNat.testBit (7 - j) := by
      intro j hj
      exact List.map_inj_left.mp h j (List.mem_range.mpr hj)
    have := h7 (7 - i) (by omega)
    rwa [show 7 - (7 - i) = i by omega] at this
  · have key : ∀ c : UInt8, c.toNat.testBit i = false := fun c ↦
      Nat.testBit_eq_false_of_lt (lt_of_lt_of_le c.toNat_lt
        (Nat.pow_le_pow_right (by decide) (by omega)))
    rw [key a, key b]

/-- `bits.LeadingZeros8`: eight minus the length of the number in binary. -/
def leadingZeros8 (b : UInt8) : ℕ := 8 - if b = 0 then 0 else Nat.log2 b.toNat + 1

/-- The common prefix of two bytes is the run of zeros at the front of their exclusive or. -/
theorem commonPrefix_byteBits (a b : UInt8) :
    commonPrefix (byteBits a) (byteBits b) =
      commonPrefix (byteBits (a ^^^ b)) (List.replicate 8 false) := by
  have hbit : ∀ i, (a ^^^ b).toNat.testBit i = (a.toNat.testBit i ^^ b.toNat.testBit i) := by
    intro i
    rw [UInt8.toNat_xor, Nat.testBit_xor]
  have hcons : ∀ {x y : Bool} {xs ys zs fs : List Bool},
      commonPrefix xs ys = commonPrefix zs fs →
      commonPrefix (x :: xs) (y :: ys) = commonPrefix ((x ^^ y) :: zs) (false :: fs) := by
    intro x y xs ys zs fs h
    cases x <;> cases y <;> simp [commonPrefix, h]
  simp only [byteBits, List.range_succ, List.range_zero, List.nil_append, List.cons_append,
    List.map_cons, List.map_nil, List.replicate_succ, List.replicate_zero, hbit]
  exact hcons (hcons (hcons (hcons (hcons (hcons (hcons (hcons rfl)))))))

theorem leadingZeros8_eq (b : UInt8) (hb : b ≠ 0) :
    leadingZeros8 b = commonPrefix (byteBits b) (List.replicate 8 false) := by
  have key : ∀ n < 256, n ≠ 0 → leadingZeros8 (UInt8.ofNat n) =
      commonPrefix (byteBits (UInt8.ofNat n)) (List.replicate 8 false) := by
    decide +kernel
  have h := key b.toNat b.toNat_lt (fun h0 ↦ hb (UInt8.toNat_inj.mp h0))
  rwa [UInt8.ofNat_toNat] at h

/-! ## The first byte in which two strings differ -/

/-- Scan for the first byte that is not zero, `i` bytes into the string; `dflt` if there is none. -/
def firstBit (dflt : ℕ) : ℕ → Bytes → ℕ
  | _, [] => dflt
  | i, b :: bs => if b ≠ 0 then i * 8 + leadingZeros8 b else firstBit dflt (i + 1) bs

theorem leadingZeros8_lt {b : UInt8} (hb : b ≠ 0) : leadingZeros8 b < 8 := by
  rw [leadingZeros8, if_neg hb]
  omega

theorem firstBit_lt {dflt : ℕ} (i : ℕ) (bs : Bytes) (h : dflt < (i + bs.length) * 8) :
    firstBit dflt i bs < (i + bs.length) * 8 := by
  induction bs generalizing i with
  | nil => exact h
  | cons b bs ih =>
    rw [firstBit]
    rw [List.length_cons] at h ⊢
    split
    · rename_i hb
      have := leadingZeros8_lt hb
      omega
    · have := ih (i + 1) (by omega)
      omega

theorem xor_eq_zero_iff (a b : UInt8) : a ^^^ b = 0 ↔ a = b := by
  rw [← UInt8.toNat_inj, ← UInt8.toNat_inj, UInt8.toNat_xor, UInt8.toNat_zero, Nat.xor_eq_zero_iff]

/-- **The scan finds the common prefix**: for two different strings of one length, the first
non-zero bit of the exclusive or is the first bit in which they differ. -/
theorem firstBit_eq_commonPrefix (dflt i : ℕ) {xs ys : Bytes} (hlen : xs.length = ys.length)
    (hne : xs ≠ ys) :
    firstBit dflt i (List.zipWith (· ^^^ ·) xs ys) = i * 8 + commonPrefix (bits xs) (bits ys) := by
  induction xs generalizing ys i with
  | nil => exact absurd (List.length_eq_zero_iff.mp hlen.symm).symm hne
  | cons x xs ih =>
    cases ys with
    | nil => simp at hlen
    | cons y ys =>
      rw [List.zipWith_cons_cons, firstBit, bits, List.flatMap_cons, bits, List.flatMap_cons]
      by_cases hxy : x = y
      · subst hxy
        have hne' : xs ≠ ys := fun h ↦ hne (by rw [h])
        rw [if_neg (not_not.mpr ((xor_eq_zero_iff x x).mpr rfl)), commonPrefix_append_left,
          length_byteBits, ih (i + 1) (by simpa using hlen) hne', bits, bits]
        omega
      · have hx : x ^^^ y ≠ 0 := fun h ↦ hxy ((xor_eq_zero_iff x y).mp h)
        have hbits : byteBits x ≠ byteBits y := fun h ↦ hxy (byteBits_injective h)
        rw [if_pos hx, commonPrefix_append_of_ne _ _ (by simp) hbits, leadingZeros8_eq _ hx,
          commonPrefix_byteBits]

end Bytes
