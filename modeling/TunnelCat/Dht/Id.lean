import TunnelCat.Lib.Bits

/-!
# Node identifiers and the XOR metric

`dht.ID` is a 256-bit identifier; the distance of two of them is their exclusive or.  Three
functions read a distance: `bucketIndex` files it under one of 256 buckets, `closer` compares two of
them in full, and `key64` is the first eight bytes, which is all that the sort in
`RoutingTable.Closest` looks at.

`bucketIndex_xor` says what the buckets are: an identifier other than our own is filed under the
number of leading bits it shares with ours.  `dist` is the distance as a number, and `closer_iff`
and `key64_eq` put the two comparisons on that one scale.
-/

set_option autoImplicit false

open Bytes

namespace TunnelCat.Dht

/-- `IDBits`. -/
def idBits : ℕ := 256

/-- `IDBytes`. -/
def idBytes : ℕ := idBits / 8

/-- `dht.ID`. -/
@[ext] structure ID where
  /-- The bytes of the identifier. -/
  bytes : Bytes
  /-- There are thirty-two of them. -/
  length_eq : bytes.length = idBytes
deriving DecidableEq, Repr

namespace ID

/-- `ParseID`: the identifier a string of 64 hexadecimal digits denotes. -/
def parse (s : String) : Option ID :=
  match hexDecode s with
  | some b => if h : b.length = idBytes then some ⟨b, h⟩ else none
  | none => none

/-- `ID.String`. -/
def toHex (a : ID) : String := hexEncode a.bytes

theorem parse_toHex (a : ID) : parse a.toHex = some a := by
  rw [parse, toHex, hexDecode_hexEncode]
  exact dif_pos a.length_eq

/-- `ID.XOR`. -/
def xor (a b : ID) : ID where
  bytes := List.zipWith (· ^^^ ·) a.bytes b.bytes
  length_eq := by rw [List.length_zipWith, a.length_eq, b.length_eq, Nat.min_self]

/-- `ID.BucketIndex`: the position of the first bit that is set. -/
def bucketIndex (d : ID) : ℕ := firstBit (idBits - 1) 0 d.bytes

theorem bucketIndex_lt (d : ID) : d.bucketIndex < idBits := by
  have h : firstBit (idBits - 1) 0 d.bytes < _ :=
    firstBit_lt 0 d.bytes (by rw [d.length_eq]; decide)
  rw [d.length_eq] at h
  exact h

/-- **What the buckets are**: an identifier other than ours is filed under the number of leading
bits it shares with ours. -/
theorem bucketIndex_xor {self id : ID} (h : id ≠ self) :
    (self.xor id).bucketIndex = commonPrefix (bits self.bytes) (bits id.bytes) := by
  have hne : self.bytes ≠ id.bytes := fun he ↦ h (ID.ext he).symm
  rw [bucketIndex, xor, firstBit_eq_commonPrefix _ _ (self.length_eq.trans id.length_eq.symm) hne,
    Nat.zero_mul, Nat.zero_add]

/-! ## Comparing distances -/

/-- `ID.Closer`: whether `a` is closer to `target` than `b`. -/
def closer (a b target : ID) : Bool := lexLt (a.xor target).bytes (b.xor target).bytes

/-- `binary.BigEndian.Uint64` of the first eight bytes of the distance. -/
def key64 (a target : ID) : ℕ := beNat ((a.xor target).bytes.take 8)

/-- The distance as a number of 256 bits. -/
def dist (a target : ID) : ℕ := beNat (a.xor target).bytes

theorem closer_iff (a b target : ID) : a.closer b target = true ↔ a.dist target < b.dist target :=
  lexLt_iff ((a.xor target).length_eq.trans (b.xor target).length_eq.symm)

/-- The comparison of the sort sees the leading quarter of the distance. -/
theorem key64_eq (a target : ID) : a.key64 target = a.dist target / 256 ^ 24 := by
  have hlen : ((a.xor target).bytes.drop 8).length = 24 := by
    rw [List.length_drop, ID.length_eq]
    rfl
  have hlt := beNat_lt ((a.xor target).bytes.drop 8)
  have happ := beNat_append ((a.xor target).bytes.take 8) ((a.xor target).bytes.drop 8)
  rw [List.take_append_drop] at happ
  rw [hlen] at hlt happ
  rw [dist, key64, happ, Nat.mul_comm, Nat.mul_add_div (by decide), Nat.div_eq_of_lt hlt,
    Nat.add_zero]

theorem zipWith_xor_cancel {xs ts : Bytes} (h : xs.length = ts.length) :
    List.zipWith (· ^^^ ·) (List.zipWith (· ^^^ ·) xs ts) ts = xs := by
  induction xs generalizing ts with
  | nil => simp
  | cons x xs ih =>
    cases ts with
    | nil => exact absurd h (by simp)
    | cons t ts =>
      rw [List.zipWith_cons_cons, List.zipWith_cons_cons, ih (by simpa using h), UInt8.xor_assoc,
        UInt8.xor_self, UInt8.xor_zero]

theorem xor_xor_cancel (a t : ID) : (a.xor t).xor t = a :=
  ID.ext (zipWith_xor_cancel (a.length_eq.trans t.length_eq.symm))

/-- Different identifiers are at different distances. -/
theorem dist_injective (target : ID) : Function.Injective fun a : ID ↦ a.dist target := by
  intro a b h
  have hx : a.xor target = b.xor target :=
    ID.ext (beNat_injective ((a.xor target).length_eq.trans (b.xor target).length_eq.symm) h)
  rw [← xor_xor_cancel a target, hx, xor_xor_cancel]

end ID

end TunnelCat.Dht
