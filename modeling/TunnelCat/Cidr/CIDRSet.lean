import TunnelCat.Assoc.Header
import TunnelCat.Lib.Blocks

/-!
# Sets of networks

A `CIDRSet` is the list of networks of a country.  `ParseCIDRs` sorts the networks by their
addresses, those of IPv4 as 32-bit numbers and those of IPv6 as strings of sixteen bytes, and
`Contains` looks an address up by binary search: it finds the last network that begins at or before
the address, and compares the bits under the mask of this one.

The program says that the networks must not overlap.  `contains_parseCIDRs` is that this is enough:
an address is found exactly if one of the networks covers it.  The networks may come in any order
and more than once, and `sort.Slice` may put equal ones in any order.

What `net.ParseCIDR` makes of a text is a parameter.  It returns four or sixteen bytes of address
and a mask of the same length, made of a number of leading ones, and the address is already masked.
-/

set_option autoImplicit false

open Bytes Blocks

namespace TunnelCat.Cidr

/-! ## What the library returns -/

/-- `net.IPNet`. -/
structure IPNet where
  /-- `IP`. -/
  ip : Bytes
  /-- `Mask`. -/
  mask : Bytes
  deriving DecidableEq, Repr

/-- `net.CIDRMask`: a number of ones, in a number of bytes. -/
def cidrMask : ℕ → ℕ → Bytes
  | _, 0 => []
  | ones, len + 1 =>
    if 8 ≤ ones then 255 :: cidrMask (ones - 8) len
    else ~~~((255 : UInt8) >>> UInt8.ofNat ones) :: cidrMask 0 len

/-- The bits of an address under a mask. -/
def masked (ip mask : Bytes) : Bytes := List.zipWith (fun a m ↦ a &&& m) ip mask

/-- A network as `net.ParseCIDR` returns it. -/
structure IPNet.Valid (n : IPNet) : Prop where
  /-- An address of IPv4 or of IPv6. -/
  len : n.ip.length = 4 ∨ n.ip.length = 16
  /-- The mask is a number of ones. -/
  mask_eq : ∃ ones ≤ 8 * n.ip.length, n.mask = cidrMask ones n.ip.length
  /-- The address is masked. -/
  ip_masked : masked n.ip n.mask = n.ip

/-- `net.ParseCIDR`, without the address before it is masked. -/
structure CIDRParser where
  /-- The network, or an error. -/
  parseCIDR : String → Option IPNet
  /-- What a network is like. -/
  valid : ∀ {s n}, parseCIDR s = some n → n.Valid

/-- The network has the address, which is given in four or in sixteen bytes like that of the
network. -/
def IPNet.Has (n : IPNet) (ip : Bytes) : Prop :=
  ip.length = n.ip.length ∧ masked ip n.mask = n.ip

/-- The network covers an address: one of IPv4, in either form, if it is a network of IPv4, and any
other if it is one of IPv6. -/
def IPNet.Covers (n : IPNet) (ip : Bytes) : Prop := n.Has ((Assoc.to4 ip).getD ip)

/-! ## The set -/

/-- `[16]byte`. -/
def Bytes16 := { bs : Bytes // bs.length = 16 }

/-- Sixteen zeros. -/
def Bytes16.zero : Bytes16 := ⟨List.replicate 16 0, rfl⟩

/-- `entry4`. -/
structure Entry4 where
  /-- `start`. -/
  start : UInt32
  /-- `mask`. -/
  mask : UInt32

/-- `entry6`. -/
structure Entry6 where
  /-- `start`. -/
  start : Bytes16
  /-- `mask`. -/
  mask : Bytes16

/-- The entry of IPv4 that is made of a network, if one is. -/
def entry4Of (n : IPNet) : Option Entry4 :=
  match Assoc.to4 n.ip with
  | some ip4 => if n.mask.length = 4 then some ⟨uint32 ip4, uint32 n.mask⟩ else none
  | none => none

/-- The entry of IPv6 that is made of a network, if one is. -/
def entry6Of (n : IPNet) : Option Entry6 :=
  if (entry4Of n).isSome then none
  else if h : n.ip.length = 16 ∧ n.mask.length = 16 then some ⟨⟨n.ip, h.1⟩, ⟨n.mask, h.2⟩⟩
  else none

/-- The comparison of `entries4`. -/
def less4 (a b : Entry4) : Bool := a.start < b.start

/-- The comparison of `entries6`. -/
def less6 (a b : Entry6) : Bool := lexLt a.start.1 b.start.1

/-- `CIDRSet`. -/
structure CIDRSet where
  /-- `starts4`. -/
  starts4 : List UInt32
  /-- `masks4`. -/
  masks4 : List UInt32
  /-- `starts6`. -/
  starts6 : List Bytes16
  /-- `masks6`. -/
  masks6 : List Bytes16

section Parse

variable (P : CIDRParser) (S4 : SortSlice Entry4) (S6 : SortSlice Entry6)

/-- The networks of a list of texts. -/
def networks (cidrs : List String) : List IPNet := cidrs.filterMap P.parseCIDR

/-- `entries4`, sorted. -/
def entries4 (cidrs : List String) : List Entry4 :=
  S4.sort less4 ((networks P cidrs).filterMap entry4Of)

/-- `entries6`, sorted. -/
def entries6 (cidrs : List String) : List Entry6 :=
  S6.sort less6 ((networks P cidrs).filterMap entry6Of)

/-- `ParseCIDRs`. -/
def parseCIDRs (cidrs : List String) : CIDRSet where
  starts4 := (entries4 P S4 cidrs).map Entry4.start
  masks4 := (entries4 P S4 cidrs).map Entry4.mask
  starts6 := (entries6 P S6 cidrs).map Entry6.start
  masks6 := (entries6 P S6 cidrs).map Entry6.mask

end Parse

namespace CIDRSet

variable (s : CIDRSet)

/-- `contains4`. -/
def contains4 (ip4 : Bytes) : Bool :=
  if s.starts4 = [] then false
  else
    let addr := uint32 ip4
    let idx := lastBelow (fun mid ↦ s.starts4.getD mid 0 ≤ addr) s.starts4.length
    if idx < 0 then false
    else addr &&& s.masks4.getD idx.toNat 0 = s.starts4.getD idx.toNat 0

/-- `contains6`, of sixteen bytes. -/
def contains6 (addr : Bytes) : Bool :=
  if s.starts6.isEmpty then false
  else
    let idx := lastBelow (fun mid ↦ !lexLt addr (s.starts6.getD mid .zero).1) s.starts6.length
    if idx < 0 then false
    else
      (List.range 16).all fun i ↦
        addr.getD i 0 &&& (s.masks6.getD idx.toNat .zero).1.getD i 0 =
          (s.starts6.getD idx.toNat .zero).1.getD i 0

/-- `Contains`. -/
def contains (ip : Bytes) : Bool :=
  match Assoc.to4 ip with
  | some ip4 => s.contains4 ip4
  | none => if ip.length = 16 then s.contains6 ip else false

end CIDRSet

/-! ## Masks as numbers -/

theorem length_cidrMask (ones len : ℕ) : (cidrMask ones len).length = len := by
  induction len generalizing ones with
  | zero => rfl
  | succ len ih =>
    rw [cidrMask]
    split
    · rw [List.length_cons, ih]
    · rw [List.length_cons, ih]

theorem toNat_mask : ∀ ones < 8,
    (~~~((255 : UInt8) >>> UInt8.ofNat ones)).toNat = 2 ^ 8 - 2 ^ (8 - ones) := by
  decide

theorem beNat_cidrMask_zero (len : ℕ) : beNat (cidrMask 0 len) = 0 := by
  induction len with
  | zero => rfl
  | succ len ih =>
    rw [cidrMask, if_neg (by omega), beNat_cons, ih, toNat_mask 0 (by omega)]
    simp

theorem pow_256 (k : ℕ) : 256 ^ k = 2 ^ (8 * k) := by
  rw [Nat.pow_mul]

/-- A number of ones is a mask of high bits. -/
theorem beNat_cidrMask {ones len : ℕ} (h : ones ≤ 8 * len) :
    beNat (cidrMask ones len) = 2 ^ (8 * len) - 2 ^ (8 * len - ones) := by
  induction len generalizing ones with
  | zero =>
    obtain rfl : ones = 0 := by omega
    rfl
  | succ len ih =>
    have hpow : 2 ^ (8 * (len + 1)) = 256 * 2 ^ (8 * len) := by
      rw [Nat.mul_add, Nat.pow_add, Nat.mul_comm]
    rw [cidrMask]
    split
    · have hexp : 8 * len - (ones - 8) = 8 * (len + 1) - ones := by omega
      have hle : 2 ^ (8 * (len + 1) - ones) ≤ 2 ^ (8 * len) :=
        Nat.pow_le_pow_right (by omega) (by omega)
      rw [beNat_cons, ih (by omega), length_cidrMask, pow_256, hexp, hpow]
      have h255 : (255 : UInt8).toNat = 255 := rfl
      rw [h255]
      omega
    · have hexp : 8 - ones + 8 * len = 8 * (len + 1) - ones := by omega
      rw [beNat_cons, beNat_cidrMask_zero, length_cidrMask, pow_256, toNat_mask _ (by omega),
        Nat.add_zero, Nat.sub_mul, ← Nat.pow_add, ← Nat.pow_add, hexp, Nat.mul_add, Nat.add_comm 8]

theorem beNat_masked {xs ys : Bytes} (hlen : xs.length = ys.length) :
    beNat (masked xs ys) = beNat xs &&& beNat ys := by
  induction xs generalizing ys with
  | nil =>
    obtain rfl : ys = [] := List.length_eq_zero_iff.mp hlen.symm
    rfl
  | cons x xs ih =>
    cases ys with
    | nil => cases hlen
    | cons y ys =>
      have hl : xs.length = ys.length := Nat.succ.inj hlen
      have hx := beNat_lt xs
      have hy := beNat_lt ys
      have hml : (masked xs ys).length = ys.length := by
        rw [masked, List.length_zipWith, hl, Nat.min_self]
      rw [hl] at hx
      rw [pow_256] at hx hy
      have hcons : masked (x :: xs) (y :: ys) = (x &&& y) :: masked xs ys := rfl
      rw [hcons, beNat_cons, beNat_cons, beNat_cons, ih hl, hml, hl, pow_256, UInt8.toNat_and,
        mul_add_and hx hy]

/-! ## Networks as blocks -/

namespace IPNet

variable {n m : IPNet}

/-- The addresses of a network, as numbers. -/
def block (n : IPNet) : Set ℕ := maskBlock (8 * n.ip.length) (beNat n.ip) (beNat n.mask)

theorem Valid.length_mask (hn : n.Valid) : n.mask.length = n.ip.length := by
  obtain ⟨ones, -, hmask⟩ := hn.mask_eq
  rw [hmask, length_cidrMask]

theorem Valid.isBlock (hn : n.Valid) : IsBlock (beNat n.ip) n.block := by
  obtain ⟨ones, hones, hmask⟩ := hn.mask_eq
  have hstart : beNat n.ip < 2 ^ (8 * n.ip.length) := pow_256 _ ▸ beNat_lt n.ip
  have hmasked := beNat_masked hn.length_mask.symm
  rw [hn.ip_masked] at hmasked
  rw [block]
  rw [hmask, beNat_cidrMask hones] at hmasked ⊢
  exact isBlock_maskBlock (Nat.sub_le _ _) hstart hmasked.symm

theorem Valid.has_iff (hn : n.Valid) {ip : Bytes} (hlen : ip.length = n.ip.length) :
    n.Has ip ↔ beNat ip ∈ n.block := by
  have hip : beNat ip < 2 ^ (8 * n.ip.length) := by
    rw [← pow_256, ← hlen]
    exact beNat_lt ip
  have hml : (masked ip n.mask).length = n.ip.length := by
    rw [masked, List.length_zipWith, hn.length_mask, hlen, Nat.min_self]
  have hand := beNat_masked (hlen.trans hn.length_mask.symm)
  refine ⟨fun h ↦ ⟨hip, ?_⟩, fun h ↦ ⟨hlen, beNat_injective hml ?_⟩⟩
  · rw [← hand, h.2]
  · rw [hand, h.2]

/-- The networks have the same addresses, or none in common. -/
def Apart (m n : IPNet) : Prop := (∀ ip, m.Has ip ↔ n.Has ip) ∨ ∀ ip, ¬(m.Has ip ∧ n.Has ip)

/-- A number in the block is that of an address. -/
theorem Valid.mem_block_iff (hn : n.Valid) (x : ℕ) :
    x ∈ n.block ↔ x < 2 ^ (8 * n.ip.length) ∧ n.Has (beEncode n.ip.length x) := by
  have hval : x < 2 ^ (8 * n.ip.length) → beNat (beEncode n.ip.length x) = x := fun hx ↦ by
    rw [beNat_beEncode, pow_256, Nat.mod_eq_of_lt hx]
  have hhas := hn.has_iff (length_beEncode n.ip.length x)
  refine ⟨fun h ↦ ⟨h.1, hhas.mpr ?_⟩, fun h ↦ ?_⟩
  · rwa [hval h.1]
  · rw [← hval h.1]
    exact hhas.mp h.2

/-- Networks that are apart have blocks that are. -/
theorem Apart.block_eq (hm : m.Valid) (hn : n.Valid) (h : m.Apart n)
    (hlen : m.ip.length = n.ip.length) (hmeet : (m.block ∩ n.block).Nonempty) :
    m.block = n.block := by
  rcases h with hsame | hnone
  · ext x
    rw [hm.mem_block_iff, hn.mem_block_iff, hlen, hsame]
  · obtain ⟨x, hxm, hxn⟩ := hmeet
    rw [hm.mem_block_iff, hlen] at hxm
    rw [hn.mem_block_iff] at hxn
    exact absurd ⟨hxm.2, hxn.2⟩ (hnone _)

end IPNet

/-! ## The entries -/

theorem toNat_uint32 {bs : Bytes} (h : bs.length = 4) : (uint32 bs).toNat = beNat bs := by
  have hlt := beNat_lt bs
  rw [h] at hlt
  rw [uint32, List.take_of_length_le h.le, UInt32.toNat_ofNat']
  exact Nat.mod_eq_of_lt hlt

theorem entry4Of_eq_some {n : IPNet} (hn : n.Valid) {e : Entry4} :
    entry4Of n = some e ↔ n.ip.length = 4 ∧ e = ⟨uint32 n.ip, uint32 n.mask⟩ := by
  rw [entry4Of]
  rcases hn.len with h4 | h16
  · have hto4 : Assoc.to4 n.ip = some n.ip := by rw [Assoc.to4, if_pos h4]
    simp only [hto4, if_pos (hn.length_mask.trans h4), Option.some_inj]
    exact ⟨fun h ↦ ⟨h4, h.symm⟩, fun h ↦ h.2.symm⟩
  · have hmask : n.mask.length ≠ 4 := by
      rw [hn.length_mask, h16]
      decide
    refine ⟨fun h ↦ ?_, fun h ↦ by omega⟩
    split at h
    · rw [if_neg hmask] at h
      cases h
    · cases h

theorem entry6Of_eq_some {n : IPNet} (hn : n.Valid) {e : Entry6} :
    entry6Of n = some e ↔ e.start.1 = n.ip ∧ e.mask.1 = n.mask := by
  rw [entry6Of]
  rcases hn.len with h4 | h16
  · have hsome : (entry4Of n).isSome = true := by
      rw [(entry4Of_eq_some hn).mpr ⟨h4, rfl⟩, Option.isSome_some]
    rw [if_pos hsome]
    refine ⟨fun h ↦ (nomatch h), fun h ↦ ?_⟩
    have hlen := e.start.2
    rw [h.1] at hlen
    omega
  · have hnone : ¬(entry4Of n).isSome = true := by
      intro h
      obtain ⟨e', he'⟩ := Option.isSome_iff_exists.mp h
      have := ((entry4Of_eq_some hn).mp he').1
      omega
    rw [if_neg hnone, dif_pos ⟨h16, hn.length_mask.trans h16⟩, Option.some_inj]
    refine ⟨?_, fun h ↦ ?_⟩
    · rintro rfl
      exact ⟨rfl, rfl⟩
    · obtain ⟨⟨start, hs⟩, ⟨mask, hm⟩⟩ := e
      obtain ⟨rfl, rfl⟩ := h
      rfl

/-- The addresses of an entry, as numbers. -/
def Entry4.block (e : Entry4) : Set ℕ := maskBlock 32 e.start.toNat e.mask.toNat

/-- The addresses of an entry, as numbers. -/
def Entry6.block (e : Entry6) : Set ℕ := maskBlock 128 (beNat e.start.1) (beNat e.mask.1)

theorem Entry4.block_eq {n : IPNet} (hn : n.Valid) {e : Entry4} (h : entry4Of n = some e) :
    e.block = n.block ∧ e.start.toNat = beNat n.ip ∧ n.ip.length = 4 := by
  obtain ⟨h4, rfl⟩ := (entry4Of_eq_some hn).mp h
  refine ⟨?_, toNat_uint32 h4, h4⟩
  rw [Entry4.block, IPNet.block, toNat_uint32 h4, toNat_uint32 (hn.length_mask.trans h4), h4]

theorem Entry6.block_eq {n : IPNet} (hn : n.Valid) {e : Entry6} (h : entry6Of n = some e) :
    e.block = n.block ∧ beNat e.start.1 = beNat n.ip ∧ n.ip.length = 16 := by
  obtain ⟨hstart, hmask⟩ := (entry6Of_eq_some hn).mp h
  have h16 : n.ip.length = 16 := hstart ▸ e.start.2
  refine ⟨?_, by rw [hstart], h16⟩
  rw [Entry6.block, IPNet.block, hstart, hmask, h16]

/-! ## Looking up -/

section Lookup

variable {P : CIDRParser} {S4 : SortSlice Entry4} {S6 : SortSlice Entry6} {cidrs : List String}

theorem valid_of_mem_networks {n : IPNet} (hn : n ∈ networks P cidrs) : n.Valid := by
  obtain ⟨c, -, hc⟩ := List.mem_filterMap.mp hn
  exact P.valid hc

theorem less4_eq (a b : Entry4) : less4 a b = decide (a.start.toNat < b.start.toNat) := by
  rw [less4, decide_eq_decide, UInt32.lt_iff_toNat_lt]

theorem less6_eq (a b : Entry6) : less6 a b = decide (beNat a.start.1 < beNat b.start.1) := by
  rw [less6, Bool.eq_iff_iff, lexLt_iff (a.start.2.trans b.start.2.symm), decide_eq_true_eq]

/-- What looking up in the sorted entries of one family finds. -/
theorem found_iff {ε : Type} {entryOf : IPNet → Option ε} {start : ε → ℕ} {block : ε → Set ℕ}
    {len : ℕ} {nets : List IPNet} {S : SortSlice ε} {less : ε → ε → Bool} {below : ℕ → Bool}
    {ip : Bytes} {r : ℤ} (hvalid : ∀ n ∈ nets, n.Valid)
    (hdisj : ∀ m ∈ nets, ∀ n ∈ nets, m.Apart n)
    (hsome : ∀ {n}, n.Valid → n.ip.length = len → ∃ e, entryOf n = some e)
    (hentry : ∀ {n}, n.Valid → ∀ {e}, entryOf n = some e →
      block e = n.block ∧ start e = beNat n.ip ∧ n.ip.length = len)
    (hless : ∀ x y, less x y = decide (start x < start y)) (hip : ip.length = len)
    (hbelow : ∀ i x, (S.sort less (nets.filterMap entryOf))[i]? = some x →
      (below i = true ↔ start x ≤ beNat ip))
    (hr : lastBelow below (S.sort less (nets.filterMap entryOf)).length = r) :
    (∃ n ∈ nets, n.Has ip) ↔ 0 ≤ r ∧
      ∃ e, (S.sort less (nets.filterMap entryOf))[r.toNat]? = some e ∧ beNat ip ∈ block e := by
  have hfrom : ∀ e ∈ nets.filterMap entryOf, ∃ n ∈ nets, n.Valid ∧ block e = n.block ∧
      start e = beNat n.ip ∧ n.ip.length = len := by
    intro e he
    obtain ⟨n, hn, hne⟩ := List.mem_filterMap.mp he
    exact ⟨n, hn, hvalid n hn, hentry (hvalid n hn) hne⟩
  rw [← mem_lookup_iff hless hbelow ?_ ?_ hr]
  · refine ⟨fun ⟨n, hn, hhas⟩ ↦ ?_, fun ⟨e, he, hmem⟩ ↦ ?_⟩
    · have hlen : n.ip.length = len := hhas.1.symm.trans hip
      obtain ⟨e, he⟩ := hsome (hvalid n hn) hlen
      refine ⟨e, List.mem_filterMap.mpr ⟨n, hn, he⟩, ?_⟩
      rw [(hentry (hvalid n hn) he).1]
      exact ((hvalid n hn).has_iff hhas.1).mp hhas
    · obtain ⟨n, hn, hnv, hblock, -, hlen⟩ := hfrom e he
      exact ⟨n, hn, (hnv.has_iff (hip.trans hlen.symm)).mpr (hblock ▸ hmem)⟩
  · intro e he
    obtain ⟨n, -, hnv, hblock, hstart, -⟩ := hfrom e he
    rw [hblock, hstart]
    exact hnv.isBlock
  · intro e he f hf hmeet
    obtain ⟨m, hm, hmv, hmb, -, hml⟩ := hfrom e he
    obtain ⟨n, hn, hnv, hnb, -, hnl⟩ := hfrom f hf
    rw [hmb, hnb] at hmeet ⊢
    exact (hdisj m hm n hn).block_eq hmv hnv (hml.trans hnl.symm) hmeet

theorem getD_map {α β : Type} {f : α → β} {xs : List α} {i : ℕ} {x : α} (h : xs[i]? = some x)
    (d : β) : (xs.map f).getD i d = f x := by
  rw [List.getD_eq_getElem?_getD, List.getElem?_map, h, Option.map_some, Option.getD_some]

/-- How both lookups end: with the entry that was found, if there is one. -/
theorem checked_iff {ε : Type} {es : List ε} {r : ℤ} {empty : Prop} [Decidable empty] {check : Bool}
    {Q : ε → Prop} (hempty : empty → es = []) (hlt : r < es.length)
    (hcheck : ∀ e, es[r.toNat]? = some e → (check = true ↔ Q e)) :
    (if empty then false else if r < 0 then false else check) = true ↔
      0 ≤ r ∧ ∃ e, es[r.toNat]? = some e ∧ Q e := by
  by_cases hr : 0 ≤ r
  · have hne : ¬empty := by
      intro h
      rw [hempty h, List.length_nil] at hlt
      omega
    obtain ⟨e, he⟩ : ∃ e, es[r.toNat]? = some e := ⟨_, List.getElem?_eq_getElem (by omega)⟩
    rw [if_neg hne, if_neg (by omega), hcheck e he]
    refine ⟨fun h ↦ ⟨hr, e, he, h⟩, fun ⟨_, e', he', h⟩ ↦ ?_⟩
    rw [he, Option.some_inj] at he'
    exact he' ▸ h
  · rw [if_pos (by omega : r < 0), ite_self]
    exact ⟨fun h ↦ (nomatch h), fun h ↦ absurd h.1 hr⟩

/-- `contains4` is membership in one of the networks. -/
theorem contains4_iff
    (hdisj : ∀ m ∈ networks P cidrs, ∀ n ∈ networks P cidrs, m.Apart n) {ip4 : Bytes}
    (h4 : ip4.length = 4) : (parseCIDRs P S4 S6 cidrs).contains4 ip4 = true ↔
      ∃ n ∈ networks P cidrs, n.Has ip4 := by
  have hbelow : ∀ i x, (entries4 P S4 cidrs)[i]? = some x →
      (decide (((entries4 P S4 cidrs).map Entry4.start).getD i 0 ≤ uint32 ip4) = true ↔
        x.start.toNat ≤ beNat ip4) := by
    intro i x hx
    rw [getD_map hx, decide_eq_true_eq, UInt32.le_iff_toNat_le, toNat_uint32 h4]
  rw [found_iff (fun n ↦ valid_of_mem_networks) hdisj
    (fun hn hlen ↦ ⟨_, (entry4Of_eq_some hn).mpr ⟨hlen, rfl⟩⟩) Entry4.block_eq less4_eq h4 hbelow
    rfl]
  rw [CIDRSet.contains4, parseCIDRs]
  dsimp only
  rw [List.length_map]
  refine checked_iff List.map_eq_nil_iff.mp (isLast_lookup less4_eq hbelow).lt fun e he ↦ ?_
  change (entries4 P S4 cidrs)[_]? = some e at he
  rw [decide_eq_true_eq, getD_map he, getD_map he, ← UInt32.toNat_inj, UInt32.toNat_and,
    toNat_uint32 h4]
  exact ⟨fun h ↦ ⟨toNat_uint32 h4 ▸ (uint32 ip4).toNat_lt, h⟩, fun h ↦ h.2⟩

theorem all_masked_iff {a m start : Bytes} (ha : a.length = 16) (hm : m.length = 16)
    (hs : start.length = 16) :
    ((List.range 16).all fun i ↦ a.getD i 0 &&& m.getD i 0 = start.getD i 0) = true ↔
      masked a m = start := by
  have hlen : (masked a m).length = 16 := by
    rw [masked, List.length_zipWith, ha, hm, Nat.min_self]
  have hget : ∀ i (hi : i < 16), (masked a m)[i] = a.getD i 0 &&& m.getD i 0 := by
    intro i hi
    have hia : i < a.length := ha ▸ hi
    have him : i < m.length := hm ▸ hi
    simp only [masked, List.getElem_zipWith, List.getD_eq_getElem _ _ hia,
      List.getD_eq_getElem _ _ him]
  rw [List.all_eq_true]
  refine ⟨fun h ↦ List.ext_getElem (hlen.trans hs.symm) fun i hi his ↦ ?_, fun h i hi ↦ ?_⟩
  · have hcheck := h i (List.mem_range.mpr (hlen ▸ hi))
    rw [decide_eq_true_eq, List.getD_eq_getElem _ _ his] at hcheck
    rw [hget i (hlen ▸ hi), hcheck]
  · have hi16 := List.mem_range.mp hi
    rw [decide_eq_true_eq, ← hget i hi16, List.getD_eq_getElem _ _ (hs ▸ hi16)]
    simp only [h]

/-- `contains6` is membership in one of the networks. -/
theorem contains6_iff
    (hdisj : ∀ m ∈ networks P cidrs, ∀ n ∈ networks P cidrs, m.Apart n) {ip : Bytes}
    (h16 : ip.length = 16) : (parseCIDRs P S4 S6 cidrs).contains6 ip = true ↔
      ∃ n ∈ networks P cidrs, n.Has ip := by
  have hbelow : ∀ i x, (entries6 P S6 cidrs)[i]? = some x →
      ((!lexLt ip (((entries6 P S6 cidrs).map Entry6.start).getD i .zero).1) = true ↔
        beNat x.start.1 ≤ beNat ip) := by
    intro i x hx
    rw [getD_map hx, Bool.not_eq_true', ← Bool.not_eq_true, lexLt_iff (h16.trans x.start.2.symm),
      Nat.not_lt]
  have hsome : ∀ {n : IPNet}, n.Valid → n.ip.length = 16 → ∃ e, entry6Of n = some e :=
    fun {n} hn hlen ↦ ⟨⟨⟨n.ip, hlen⟩, ⟨n.mask, hn.length_mask.trans hlen⟩⟩,
      (entry6Of_eq_some hn).mpr ⟨rfl, rfl⟩⟩
  rw [found_iff (fun n ↦ valid_of_mem_networks) hdisj hsome Entry6.block_eq less6_eq h16 hbelow rfl]
  rw [CIDRSet.contains6, parseCIDRs]
  dsimp only
  rw [List.length_map]
  refine checked_iff (fun h ↦ List.map_eq_nil_iff.mp (List.isEmpty_iff.mp h))
    (isLast_lookup less6_eq hbelow).lt fun e he ↦ ?_
  change (entries6 P S6 cidrs)[_]? = some e at he
  rw [getD_map he, getD_map he, all_masked_iff h16 e.mask.2 e.start.2]
  have hand := beNat_masked (h16.trans e.mask.2.symm)
  have hlen : (masked ip e.mask.1).length = e.start.1.length := by
    rw [masked, List.length_zipWith, h16, e.mask.2, e.start.2, Nat.min_self]
  refine ⟨fun h ↦ ⟨?_, by rw [← hand, h]⟩, fun h ↦ beNat_injective hlen (hand.trans h.2)⟩
  have hlt := beNat_lt ip
  rw [h16, pow_256] at hlt
  exact hlt

end Lookup

theorem length_of_to4 {ip ip4 : Bytes} (h : Assoc.to4 ip = some ip4) : ip4.length = 4 := by
  rw [Assoc.to4] at h
  split at h
  · cases h
    assumption
  · split at h
    · rename_i h16
      cases h
      rw [List.length_drop, h16.1]
    · cases h

/-- **Looking up agrees with membership**: if the networks of a list do not overlap, an address is
in the set exactly if one of them covers it. -/
theorem contains_parseCIDRs (P : CIDRParser) (S4 : SortSlice Entry4) (S6 : SortSlice Entry6)
    (cidrs : List String) (ip : Bytes)
    (hdisj : ∀ a ∈ cidrs, ∀ b ∈ cidrs, ∀ m n, P.parseCIDR a = some m → P.parseCIDR b = some n →
      (∀ x, m.Has x ↔ n.Has x) ∨ ∀ x, ¬(m.Has x ∧ n.Has x)) :
    (parseCIDRs P S4 S6 cidrs).contains ip = true ↔
      ∃ c ∈ cidrs, ∃ n, P.parseCIDR c = some n ∧ n.Covers ip := by
  have hapart : ∀ m ∈ networks P cidrs, ∀ n ∈ networks P cidrs, m.Apart n := by
    intro m hm n hn
    obtain ⟨a, ha, ham⟩ := List.mem_filterMap.mp hm
    obtain ⟨b, hb, hbn⟩ := List.mem_filterMap.mp hn
    exact hdisj a ha b hb m n ham hbn
  have hnets : (∃ c ∈ cidrs, ∃ n, P.parseCIDR c = some n ∧ n.Covers ip) ↔
      ∃ n ∈ networks P cidrs, n.Covers ip := by
    refine ⟨fun ⟨c, hc, n, hn, h⟩ ↦ ⟨n, List.mem_filterMap.mpr ⟨c, hc, hn⟩, h⟩, ?_⟩
    rintro ⟨n, hn, h⟩
    obtain ⟨c, hc, hcn⟩ := List.mem_filterMap.mp hn
    exact ⟨c, hc, n, hcn, h⟩
  rw [hnets, CIDRSet.contains]
  unfold IPNet.Covers
  cases hto4 : Assoc.to4 ip with
  | some ip4 =>
    exact contains4_iff hapart (length_of_to4 hto4)
  | none =>
    dsimp only [Option.getD_none]
    split
    · rename_i h16
      exact contains6_iff hapart h16
    · rename_i h16
      refine ⟨fun h ↦ (nomatch h), fun ⟨n, hn, hhas⟩ ↦ ?_⟩
      have hne4 : ip.length ≠ 4 := by
        intro h4
        rw [Assoc.to4, if_pos h4] at hto4
        cases hto4
      have hlen := (valid_of_mem_networks hn).len
      rw [← hhas.1] at hlen
      omega

/-- A parser that knows one network of each family. -/
def demoParser : CIDRParser where
  parseCIDR s :=
    if s = "10.0.0.0/8" then some ⟨[10, 0, 0, 0], [255, 0, 0, 0]⟩
    else if s = "fc00::/7" then
      some ⟨252 :: List.replicate 15 0, 254 :: List.replicate 15 0⟩
    else none
  valid := by
    intro s n h
    split at h
    · cases h
      exact ⟨.inl rfl, ⟨8, by decide, by decide⟩, by decide⟩
    · split at h
      · cases h
        exact ⟨.inr rfl, ⟨7, by decide, by decide⟩, by decide⟩
      · cases h

/-- A list with both networks, with one of them twice and with something else. -/
def demoList : List String := ["fc00::/7", "10.0.0.0/8", "localhost", "fc00::/7"]

/-- An IPv4 address in its sixteen-byte form is found in a network of IPv4. -/
theorem contains_parseCIDRs_demo :
    (parseCIDRs demoParser .insertion .insertion demoList).contains
      (Assoc.v4InV6Prefix ++ [10, 1, 2, 3]) = true := by
  refine (contains_parseCIDRs demoParser .insertion .insertion demoList _ ?_).mpr
    ⟨"10.0.0.0/8", by decide, ⟨[10, 0, 0, 0], [255, 0, 0, 0]⟩, rfl, rfl, by decide⟩
  have hnets : ∀ a n, demoParser.parseCIDR a = some n → n = ⟨[10, 0, 0, 0], [255, 0, 0, 0]⟩ ∨
      n = ⟨252 :: List.replicate 15 0, 254 :: List.replicate 15 0⟩ := by
    intro a n h
    rw [demoParser] at h
    dsimp only at h
    split at h
    · exact .inl (Option.some_inj.mp h).symm
    split at h
    · exact .inr (Option.some_inj.mp h).symm
    · cases h
  intro a _ b _ m n hm hn
  rcases hnets a m hm with rfl | rfl
  all_goals rcases hnets b n hn with rfl | rfl
  · exact .inl fun _ ↦ Iff.rfl
  · exact .inr fun x hx ↦ absurd (hx.1.1.symm.trans hx.2.1) (by decide)
  · exact .inr fun x hx ↦ absurd (hx.1.1.symm.trans hx.2.1) (by decide)
  · exact .inl fun _ ↦ Iff.rfl

end TunnelCat.Cidr
