import Mathlib.Data.Nat.Bitwise
import Mathlib.Data.Set.Basic
import TunnelCat.Lib.Selection

/-!
# Finding the block a number lies in

A table of ranges that do not overlap is kept sorted by where the ranges start, and a number is
looked up by binary search for the last range that starts at or before it.  Three things make this
right.  The search finds the last such range (`isLast_lastBelow`).  A range without gaps that
contains the number also contains the start of every range between, so no other than the last can
contain it (`mem_last_iff`).  And a range that is given by a mask of high bits has no gaps, because
masking is dividing and multiplying by a power of two (`isBlock_maskBlock`).
-/

set_option autoImplicit false

namespace Blocks

/-! ## Binary search -/

/-- The loop of the search: what is below stands before `lo`, what is not stands behind `hi`, and
`idx` is the last that was found to be below.  Each turn makes the part between smaller, so the
length of the list is enough fuel. -/
def lastBelowFrom (below : ℕ → Bool) : ℕ → ℤ → ℤ → ℤ → ℤ
  | 0, _, _, idx => idx
  | fuel + 1, lo, hi, idx =>
    if lo ≤ hi then
      let mid := (lo + hi) / 2
      if below mid.toNat then lastBelowFrom below fuel (mid + 1) hi mid
      else lastBelowFrom below fuel lo (mid - 1) idx
    else idx

/-- The last of the first `n` positions that is below, or -1. -/
def lastBelow (below : ℕ → Bool) (n : ℕ) : ℤ := lastBelowFrom below n 0 (n - 1) (-1)

/-- The positions that are below are those up to `r`. -/
structure IsLast (below : ℕ → Bool) (n : ℕ) (r : ℤ) : Prop where
  /-- There may be none. -/
  ge : -1 ≤ r
  /-- `r` is a position, if there are any. -/
  lt : r < n
  /-- Which positions are below. -/
  iff : ∀ i : ℕ, i < n → (below i = true ↔ (i : ℤ) ≤ r)

theorem isLast_of_lt {below : ℕ → Bool} {n : ℕ} {lo hi : ℤ} (hlo : 0 ≤ lo) (hhi : hi < n)
    (hle : lo = hi + 1) (hbelow : ∀ i : ℕ, (i : ℤ) < lo → below i = true)
    (habove : ∀ i : ℕ, hi < i → i < n → below i = false) : IsLast below n (lo - 1) := by
  refine ⟨by omega, by omega, fun i hi' ↦ ⟨fun h ↦ ?_, fun h ↦ hbelow i (by omega)⟩⟩
  by_contra hlt
  rw [habove i (by omega) hi'] at h
  cases h

theorem isLast_lastBelowFrom {below : ℕ → Bool} {n : ℕ}
    (hdown : ∀ i j, i ≤ j → j < n → below j = true → below i = true) (fuel : ℕ) (lo hi idx : ℤ)
    (hidx : idx = lo - 1) (hlo : 0 ≤ lo) (hhi : hi < n) (hle : lo ≤ hi + 1) (hfuel : hi - lo < fuel)
    (hbelow : ∀ i : ℕ, (i : ℤ) < lo → below i = true)
    (habove : ∀ i : ℕ, hi < i → i < n → below i = false) :
    IsLast below n (lastBelowFrom below fuel lo hi idx) := by
  induction fuel generalizing lo hi idx with
  | zero =>
    subst hidx
    exact isLast_of_lt hlo hhi (by omega) hbelow habove
  | succ fuel ih =>
    rw [lastBelowFrom]
    split
    · obtain ⟨mid, hmid⟩ : ∃ mid : ℕ, (lo + hi) / 2 = mid := ⟨((lo + hi) / 2).toNat, by omega⟩
      simp only [hmid, Int.toNat_natCast]
      by_cases hb : below mid = true
      · rw [if_pos hb]
        exact ih (mid + 1) hi mid (by omega) (by omega) hhi (by omega) (by omega)
          (fun i hi' ↦ hdown i mid (by omega) (by omega) hb) habove
      · rw [if_neg hb]
        refine ih lo (mid - 1) idx hidx hlo (by omega) (by omega) (by omega) hbelow
          fun i hi' hin ↦ ?_
        exact Bool.eq_false_iff.mpr fun h ↦ hb (hdown mid i (by omega) hin h)
    · subst hidx
      exact isLast_of_lt hlo hhi (by omega) hbelow habove

/-- **The search finds the last.** -/
theorem isLast_lastBelow {below : ℕ → Bool} {n : ℕ}
    (hdown : ∀ i j, i ≤ j → j < n → below j = true → below i = true) :
    IsLast below n (lastBelow below n) := by
  refine isLast_lastBelowFrom hdown n 0 (n - 1) (-1) rfl le_rfl (by omega) (by omega) (by omega)
    (fun i hi ↦ ?_) fun i hi hin ↦ ?_
  · omega
  · omega

/-! ## Blocks -/

section Order

variable {ι κ : Type*} [LinearOrder κ]

/-- A set that begins at its start and has no gaps. -/
structure IsBlock (start : κ) (block : Set κ) : Prop where
  /-- The start is in the set. -/
  start_mem : start ∈ block
  /-- Nothing comes before it. -/
  le_of_mem : ∀ {a}, a ∈ block → start ≤ a
  /-- There are no gaps. -/
  mem_of_le : ∀ {a b}, b ∈ block → start ≤ a → a ≤ b → a ∈ block

/-- **Only the last block that starts before a number can contain it**, if no two of the blocks
overlap. -/
theorem mem_last_iff {xs : List ι} {start : ι → κ} {block : ι → Set κ} {a : κ}
    {below : ℕ → Bool} {r : ℤ} (hblock : ∀ x ∈ xs, IsBlock (start x) (block x))
    (hdisj : ∀ x ∈ xs, ∀ y ∈ xs, (block x ∩ block y).Nonempty → block x = block y)
    (hsorted : xs.Pairwise fun x y ↦ start x ≤ start y)
    (hbelow : ∀ i x, xs[i]? = some x → (below i = true ↔ start x ≤ a))
    (hr : IsLast below xs.length r) :
    (∃ x ∈ xs, a ∈ block x) ↔ 0 ≤ r ∧ ∃ x, xs[r.toNat]? = some x ∧ a ∈ block x := by
  refine ⟨fun ⟨x, hx, ha⟩ ↦ ?_, fun ⟨_, x, hx, ha⟩ ↦ ⟨x, List.mem_of_getElem? hx, ha⟩⟩
  obtain ⟨i, hi⟩ := List.mem_iff_getElem?.mp hx
  have hir : (i : ℤ) ≤ r := (hr.iff i (List.getElem?_eq_some_iff.mp hi).1).mp
    ((hbelow i x hi).mpr ((hblock x hx).le_of_mem ha))
  have hlt : r.toNat < xs.length := by
    have := hr.lt
    omega
  obtain ⟨y, hy⟩ : ∃ y, xs[r.toNat]? = some y := ⟨_, List.getElem?_eq_getElem hlt⟩
  have hymem : y ∈ xs := List.mem_of_getElem? hy
  have hya : start y ≤ a := (hbelow _ y hy).mp ((hr.iff _ hlt).mpr (by omega))
  have hxy : start x ≤ start y := by
    rcases Nat.lt_or_ge i r.toNat with hlt' | hge
    · obtain ⟨hix, rfl⟩ := List.getElem?_eq_some_iff.mp hi
      obtain ⟨_, rfl⟩ := List.getElem?_eq_some_iff.mp hy
      exact List.pairwise_iff_getElem.mp hsorted i r.toNat hix hlt hlt'
    · have heq : i = r.toNat := by omega
      rw [heq, hy, Option.some_inj] at hi
      rw [hi]
  -- The start of the last block lies between the start of the other and the number.
  have hmeet : start y ∈ block x ∩ block y :=
    ⟨(hblock x hx).mem_of_le ha hxy hya, (hblock y hymem).start_mem⟩
  refine ⟨by omega, y, hy, ?_⟩
  rw [← hdisj x hx y hymem ⟨start y, hmeet⟩]
  exact ha

section Table

variable {S : SortSlice ι} {less : ι → ι → Bool} {xs : List ι} {start : ι → ℕ} {a : ℕ}
  {below : ℕ → Bool}

/-- In a sorted table, what starts before a number stands before what does not. -/
theorem isLast_lookup (hless : ∀ x y, less x y = decide (start x < start y))
    (hbelow : ∀ i x, (S.sort less xs)[i]? = some x → (below i = true ↔ start x ≤ a)) :
    IsLast below (S.sort less xs).length (lastBelow below (S.sort less xs).length) := by
  refine isLast_lastBelow fun i j hij hj hb ↦ ?_
  have hi := hij.trans_lt hj
  have hle : start (S.sort less xs)[i] ≤ start (S.sort less xs)[j] := by
    rcases Nat.lt_or_ge i j with hlt | hge
    · exact List.pairwise_iff_getElem.mp (S.sorted_of_key hless xs) i j hi hj hlt
    · obtain rfl : i = j := Nat.le_antisymm hij hge
      exact le_rfl
  rw [hbelow i _ (List.getElem?_eq_getElem hi)]
  exact hle.trans ((hbelow j _ (List.getElem?_eq_getElem hj)).mp hb)

/-- **Looking up in a sorted table** finds the block a number lies in. -/
theorem mem_lookup_iff {block : ι → Set ℕ} (hless : ∀ x y, less x y = decide (start x < start y))
    (hbelow : ∀ i x, (S.sort less xs)[i]? = some x → (below i = true ↔ start x ≤ a))
    (hblock : ∀ x ∈ xs, IsBlock (start x) (block x))
    (hdisj : ∀ x ∈ xs, ∀ y ∈ xs, (block x ∩ block y).Nonempty → block x = block y) {r : ℤ}
    (hr : lastBelow below (S.sort less xs).length = r) :
    (∃ x ∈ xs, a ∈ block x) ↔
      0 ≤ r ∧ ∃ x, (S.sort less xs)[r.toNat]? = some x ∧ a ∈ block x := by
  have hmem : ∀ x, x ∈ S.sort less xs ↔ x ∈ xs := fun x ↦ (S.perm less xs).mem_iff
  rw [← mem_last_iff (fun x hx ↦ hblock x ((hmem x).mp hx))
    (fun x hx y hy ↦ hdisj x ((hmem x).mp hx) y ((hmem y).mp hy)) (S.sorted_of_key hless xs) hbelow
    (hr ▸ isLast_lookup hless hbelow)]
  simp only [hmem]

end Table

end Order

/-! ## Masks of high bits -/

theorem mul_add_and {k a b x y : ℕ} (hx : x < 2 ^ k) (hy : y < 2 ^ k) :
    (a * 2 ^ k + x) &&& (b * 2 ^ k + y) = (a &&& b) * 2 ^ k + (x &&& y) := by
  have hdiv : ∀ {c z : ℕ}, z < 2 ^ k → (c * 2 ^ k + z) / 2 ^ k = c := fun hz ↦ by
    rw [Nat.mul_comm, Nat.mul_add_div (Nat.two_pow_pos k), Nat.div_eq_of_lt hz, Nat.add_zero]
  have hmod : ∀ {c z : ℕ}, z < 2 ^ k → (c * 2 ^ k + z) % 2 ^ k = z := fun hz ↦ by
    rw [Nat.mul_add_mod', Nat.mod_eq_of_lt hz]
  have hsplit := Nat.div_add_mod' ((a * 2 ^ k + x) &&& (b * 2 ^ k + y)) (2 ^ k)
  rw [Nat.and_div_two_pow, Nat.and_mod_two_pow, hdiv hx, hdiv hy, hmod hx, hmod hy] at hsplit
  exact hsplit.symm

theorem and_highMask {w k x : ℕ} (hk : k ≤ w) (hx : x < 2 ^ w) :
    x &&& (2 ^ w - 2 ^ k) = x / 2 ^ k * 2 ^ k := by
  have hmask : 2 ^ w - 2 ^ k = (2 ^ (w - k) - 1) * 2 ^ k := by
    rw [Nat.sub_mul, ← Nat.pow_add, Nat.sub_add_cancel hk, Nat.one_mul]
  have hdiv : (x &&& (2 ^ w - 2 ^ k)) / 2 ^ k = x / 2 ^ k := by
    rw [Nat.and_div_two_pow, hmask, Nat.mul_div_cancel _ (Nat.two_pow_pos k),
      Nat.and_two_pow_sub_one_eq_mod, Nat.mod_eq_of_lt]
    rw [Nat.div_lt_iff_lt_mul (Nat.two_pow_pos k), ← Nat.pow_add, Nat.sub_add_cancel hk]
    exact hx
  have hmod : (x &&& (2 ^ w - 2 ^ k)) % 2 ^ k = 0 := by
    rw [Nat.and_mod_two_pow, hmask, Nat.mul_mod_left, Nat.and_zero]
  have hsplit := Nat.div_add_mod' (x &&& (2 ^ w - 2 ^ k)) (2 ^ k)
  rw [hdiv, hmod, Nat.add_zero] at hsplit
  exact hsplit.symm

/-- The numbers of `w` bits that a mask leaves `start` of. -/
def maskBlock (w start mask : ℕ) : Set ℕ := {x | x < 2 ^ w ∧ x &&& mask = start}

/-- What a mask of high bits leaves is a block. -/
theorem isBlock_maskBlock {w k start : ℕ} (hk : k ≤ w) (hstart : start < 2 ^ w)
    (hmasked : start &&& (2 ^ w - 2 ^ k) = start) :
    IsBlock start (maskBlock w start (2 ^ w - 2 ^ k)) where
  start_mem := ⟨hstart, hmasked⟩
  le_of_mem {a} ha := by
    rw [← ha.2]
    exact Nat.and_le_left
  mem_of_le {a b} hb hle hab := by
    have ha : a < 2 ^ w := hab.trans_lt hb.1
    refine ⟨ha, Nat.le_antisymm ?_ ?_⟩
    · rw [and_highMask hk ha, ← hb.2, and_highMask hk hb.1]
      exact Nat.mul_le_mul_right _ (Nat.div_le_div_right hab)
    · rw [and_highMask hk ha, ← hmasked, and_highMask hk hstart]
      exact Nat.mul_le_mul_right _ (Nat.div_le_div_right hle)

end Blocks
