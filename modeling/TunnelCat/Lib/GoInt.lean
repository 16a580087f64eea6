import TunnelCat.Lib.Outcome
import Mathlib.Algebra.Group.Int.Defs
import Mathlib.Algebra.Group.Nat.Defs

/-!
# Integers of Go

The type `int` has 32 bits or 64, as the platform has it, and its arithmetic wraps.  A length that
was read from a packet as a `uint32` may become negative when it is converted, and the sum of an
offset and a length may become negative even if both are positive.  `add_ofUint32` says what comes
out for offsets below 2³¹: the sum is right on 64 bits, and on 32 bits as long as it stays below
2³¹; otherwise it is less than the offset, and a comparison with an upper bound passes.
-/

set_option autoImplicit false

namespace GoInt

/-- How many bits `int` has. -/
inductive Width where
  /-- 32 bits. -/
  | w32
  /-- 64 bits. -/
  | w64
  deriving DecidableEq, Repr

/-- The least number that is too large. -/
def Width.half : Width → ℤ
  | .w32 => 2 ^ 31
  | .w64 => 2 ^ 63

/-- The number that a result wraps to. -/
def wrap (w : Width) (x : ℤ) : ℤ := (x + w.half) % (2 * w.half) - w.half

/-- The sum of two values of type `int`. -/
def add (w : Width) (a b : ℤ) : ℤ := wrap w (a + b)

/-- The conversion of a `uint32`. -/
def ofUint32 (w : Width) (v : UInt32) : ℤ := wrap w v.toNat

variable {w : Width}

theorem wrap_of_lt {x : ℤ} (hge : -w.half ≤ x) (hlt : x < w.half) : wrap w x = x := by
  rw [wrap]
  rw [Int.emod_eq_of_lt (by omega) (by omega)]
  omega

theorem add_of_lt {a b : ℤ} (ha : 0 ≤ a) (hb : 0 ≤ b) (hlt : a + b < 2 ^ 31) :
    add w a b = a + b := by
  cases w
  all_goals exact wrap_of_lt (by simp only [Width.half]; omega) (by simp only [Width.half]; omega)

/-- What the conversion makes of a length. -/
theorem ofUint32_eq (v : UInt32) :
    ofUint32 w v = if w = .w64 ∨ v.toNat < 2 ^ 31 then (v.toNat : ℤ) else v.toNat - 2 ^ 32 := by
  have hv := v.toNat_lt
  cases w with
  | w64 =>
    rw [if_pos (.inl rfl)]
    exact wrap_of_lt (by simp only [Width.half]; omega) (by simp only [Width.half]; omega)
  | w32 =>
    simp only [ofUint32, wrap, Width.half, reduceCtorEq, false_or]
    split
    · omega
    · omega

theorem ofUint32_w64 (v : UInt32) : ofUint32 .w64 v = v.toNat := by
  rw [ofUint32_eq, if_pos (.inl rfl)]

theorem ofUint32_neg_iff {v : UInt32} :
    ofUint32 w v < 0 ↔ w ≠ .w64 ∧ 2 ^ 31 ≤ v.toNat := by
  have hv := v.toNat_lt
  rw [ofUint32_eq]
  split
  · rename_i h
    refine ⟨fun hneg ↦ absurd hneg (by omega), fun hneg ↦ ?_⟩
    exact absurd (h.resolve_left hneg.1) (by omega)
  · rename_i h
    rw [not_or] at h
    exact ⟨fun _ ↦ ⟨h.1, by omega⟩, fun _ ↦ by omega⟩

/-- The sum of an offset and a length is a value of type `int`. -/
def Fits (w : Width) (a : ℕ) (v : UInt32) : Prop := w = .w64 ∨ a + v.toNat < 2 ^ 31

instance (w : Width) (a : ℕ) (v : UInt32) : Decidable (Fits w a v) :=
  inferInstanceAs (Decidable (_ ∨ _))

/-- **What an offset and a length add up to.** -/
theorem add_ofUint32 {a : ℕ} (ha : a < 2 ^ 31) (v : UInt32) :
    add w a (ofUint32 w v) =
      if Fits w a v then ((a + v.toNat : ℕ) : ℤ) else a + v.toNat - 2 ^ 32 := by
  have hv := v.toNat_lt
  rw [ofUint32_eq]
  cases w with
  | w64 =>
    rw [if_pos (.inl rfl), if_pos (.inl rfl)]
    exact wrap_of_lt (by simp only [Width.half]; omega) (by simp only [Width.half]; omega)
  | w32 =>
    simp only [add, wrap, Width.half, Fits, reduceCtorEq, false_or]
    split
    · split
      · omega
      · omega
    · rw [if_neg (by omega)]
      omega

/-- The slice expression `xs[lo:hi]` with bounds of type `int`. -/
def slice {α : Type*} (xs : List α) (lo hi : ℤ) : Outcome (List α) :=
  if 0 ≤ lo ∧ lo ≤ hi ∧ hi ≤ xs.length then .ok ((xs.take hi.toNat).drop lo.toNat) else .panic

variable {α : Type*}

/-- With bounds that are not negative it is the slice expression of the other modules. -/
theorem slice_natCast (xs : List α) (lo hi : ℕ) :
    slice xs lo hi = Outcome.slice xs lo hi := by
  rw [slice, Outcome.slice]
  rw [Int.toNat_natCast, Int.toNat_natCast]
  by_cases h : lo ≤ hi ∧ hi ≤ xs.length
  · rw [if_pos h, if_pos ⟨by omega, by omega, by omega⟩]
  · rw [if_neg h, if_neg fun hc ↦ h ⟨by omega, by omega⟩]

theorem slice_of_le {xs : List α} {lo hi : ℕ} (hle : lo ≤ hi) (hhi : hi ≤ xs.length) :
    slice xs lo hi = .ok ((xs.drop lo).take (hi - lo)) := by
  rw [slice_natCast, Outcome.slice_of_le hle hhi]

theorem slice_eq_panic_iff {xs : List α} {lo hi : ℤ} :
    slice xs lo hi = .panic ↔ ¬(0 ≤ lo ∧ lo ≤ hi ∧ hi ≤ xs.length) := by
  rw [slice]
  split
  · rename_i h
    exact ⟨fun h' ↦ (nomatch h'), fun h' ↦ absurd h h'⟩
  · rename_i h
    exact ⟨fun _ ↦ h, fun _ ↦ rfl⟩

theorem slice_of_lt {xs : List α} {lo hi : ℤ} (h : hi < lo) : slice xs lo hi = .panic :=
  if_neg fun hc ↦ absurd hc.2.1 (by omega)

end GoInt
