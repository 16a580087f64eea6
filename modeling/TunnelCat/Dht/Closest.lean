import TunnelCat.Dht.RoutingTable
import TunnelCat.Lib.Outcome
import TunnelCat.Lib.Selection

/-!
# The nearest contacts

`RoutingTable.Closest` collects the contacts that are not suspect, sorts them by the first eight
bytes of their distance to the target and keeps the first `n`.  The sort is `sort.Slice`, which is
not stable, so it enters as a parameter that keeps the promise of `SortSlice`.

What the result is for is said by `IsClosest`, in terms of `ID.Closer`, which compares all
thirty-two bytes.  The two comparisons agree on any two distances that differ in their first eight
bytes and on no others.  The tables, targets and `n` for which that is enough are those that are
`Separated`.
-/

set_option autoImplicit false

namespace TunnelCat.Dht.RoutingTable

/-- The contacts `Closest` chooses from. -/
def nonSuspects (rt : RoutingTable) : List Contact := rt.all.filter fun c ↦ !c.suspect

/-- The key `Closest` sorts by. -/
def sortKey (target : ID) (c : Contact) : ℕ := c.id.key64 target

/-- `RoutingTable.Closest`; `n` is an `int`, and slicing with a negative one panics. -/
def closest (S : SortSlice Contact) (rt : RoutingTable) (target : ID) (n : ℤ) :
    Outcome (List Contact) :=
  let sorted := S.byKey (sortKey target) rt.nonSuspects
  if n < sorted.length then
    if 0 ≤ n then Outcome.slice sorted 0 n.toNat else .panic
  else .ok sorted

/-- What `Closest` returns when `n` is not negative. -/
def nearest (S : SortSlice Contact) (rt : RoutingTable) (target : ID) (n : ℕ) : List Contact :=
  (S.byKey (sortKey target) rt.nonSuspects).take n

theorem closest_ofNat (S : SortSlice Contact) (rt : RoutingTable) (target : ID) (n : ℕ) :
    closest S rt target n = .ok (nearest S rt target n) := by
  rw [closest, nearest]
  split
  · rename_i h
    rw [if_pos (Int.natCast_nonneg n), Outcome.slice, Int.toNat_natCast,
      if_pos ⟨Nat.zero_le n, by omega⟩, List.drop_zero]
  · rename_i h
    rw [List.take_of_length_le (by omega)]

theorem closest_of_neg {n : ℤ} (h : n < 0) (S : SortSlice Contact) (rt : RoutingTable)
    (target : ID) : closest S rt target n = .panic := by
  rw [closest, if_pos (by omega), if_neg (by omega)]

variable {rt : RoutingTable}

theorem mem_nonSuspects {c : Contact} :
    c ∈ rt.nonSuspects ↔ c ∈ rt.all ∧ c.suspect = false := by
  rw [nonSuspects, List.mem_filter, Bool.not_eq_eq_eq_not, Bool.not_true]

theorem mem_nearest {S : SortSlice Contact} {target : ID} {n : ℕ} {c : Contact}
    (h : c ∈ nearest S rt target n) : c ∈ rt.all ∧ c.suspect = false :=
  mem_nonSuspects.mp (S.mem_byKey.mp (List.mem_of_mem_take h))

theorem nodup_nonSuspects (h : rt.Valid) : rt.nonSuspects.Nodup :=
  (List.Nodup.of_map _ (nodup_all h)).sublist List.filter_sublist

/-! ## What the result should be -/

/-- The `n` contacts nearest to the target. -/
structure IsClosest (rt : RoutingTable) (target : ID) (n : ℤ) (r : List Contact) : Prop where
  /-- As many as there are, up to `n`. -/
  length_eq : (r.length : ℤ) = min n rt.nonSuspects.length
  /-- They are different. -/
  nodup : r.Nodup
  /-- They are contacts of the table that are not suspect. -/
  mem : ∀ c ∈ r, c ∈ rt.all ∧ c.suspect = false
  /-- What is left out is no closer than what is returned. -/
  left_out : ∀ c ∈ rt.all, c.suspect = false → c ∉ r →
    ∀ x ∈ r, c.id.closer x.id target = false
  /-- The closest comes first. -/
  ordered : r.Pairwise fun x y ↦ y.id.closer x.id target = false

/-- The contacts whose distances agree on the first eight bytes come after `n` others. -/
def Separated (rt : RoutingTable) (target : ID) (n : ℤ) : Prop :=
  0 ≤ n ∧ ∀ a ∈ rt.nonSuspects, ∀ b ∈ rt.nonSuspects, a ≠ b →
    a.id.key64 target = b.id.key64 target →
      n ≤ rt.nonSuspects.countP fun c ↦ c.id.key64 target < a.id.key64 target

theorem closer_eq_false {a b target : ID} :
    a.closer b target = false ↔ ¬ a.dist target < b.dist target := by
  rw [← ID.closer_iff, Bool.not_eq_true]

theorem dist_lt_of_key64_lt {a b target : ID} (h : a.key64 target < b.key64 target) :
    a.dist target < b.dist target := by
  rw [ID.key64_eq, ID.key64_eq] at h
  by_contra hle
  exact absurd (Nat.div_le_div_right (Nat.not_lt.mp hle)) (Nat.not_le.mpr h)

theorem isClosest_iff {target : ID} {n : ℕ} {r : List Contact} :
    rt.IsClosest target n r ↔
      Selection.IsNearest (fun c ↦ c.id.dist target) n rt.nonSuspects r := by
  constructor
  · intro h
    refine ⟨by have := h.length_eq; omega, h.nodup, fun c hc ↦ mem_nonSuspects.mpr (h.mem c hc),
      fun x hx hxr y hy ↦ ?_, h.ordered.imp closer_eq_false.mp⟩
    obtain ⟨hx, hs⟩ := mem_nonSuspects.mp hx
    exact closer_eq_false.mp (h.left_out x hx hs hxr y hy)
  · intro h
    refine ⟨by have := h.length_eq; omega, h.nodup, fun c hc ↦ mem_nonSuspects.mp (h.subset hc),
      fun x hx hs hxr y hy ↦ ?_, h.ordered.imp closer_eq_false.mpr⟩
    exact closer_eq_false.mpr (h.left_out x (mem_nonSuspects.mpr ⟨hx, hs⟩) hxr y hy)

theorem dist_injOn (hv : rt.Valid) (target : ID) {a b : Contact} (ha : a ∈ rt.nonSuspects)
    (hb : b ∈ rt.nonSuspects) (h : a.id.dist target = b.id.dist target) : a = b :=
  eq_of_id_eq hv (mem_nonSuspects.mp ha).1 (mem_nonSuspects.mp hb).1 (ID.dist_injective target h)

theorem separated_iff {target : ID} {n : ℕ} :
    rt.Separated target n ↔ Selection.Settled (sortKey target) n rt.nonSuspects := by
  rw [Separated, and_iff_right (Int.natCast_nonneg n)]
  simp only [Nat.cast_le]
  exact Iff.rfl

/-- **When `Closest` is exact.**  On a table that any sequence of calls has produced, `Closest`
returns the `n` nearest contacts in order, whatever the sort does with equal keys, if and only if
the contacts it cannot tell apart come after `n` others. -/
theorem closest_exact_iff (self : ID) (ops : List Op) (target : ID) (n : ℤ) :
    (∀ S : SortSlice Contact, ∃ r, closest S ((new self).run ops) target n = .ok r ∧
      ((new self).run ops).IsClosest target n r) ↔ ((new self).run ops).Separated target n := by
  have hv := (valid_run (valid_new self) ops).1
  generalize (new self).run ops = rt at hv
  rcases Int.lt_or_le n 0 with hn | hn
  · constructor
    · intro h
      obtain ⟨r, hr, -⟩ := h SortSlice.insertion
      rw [closest_of_neg hn] at hr
      exact absurd hr (by simp)
    · exact fun h ↦ absurd h.1 (by omega)
  · obtain ⟨m, rfl⟩ := Int.eq_ofNat_of_zero_le hn
    rw [separated_iff, ← Selection.forall_isNearest_iff (k := sortKey target)
      (d := fun c ↦ c.id.dist target) (nodup_nonSuspects hv) dist_lt_of_key64_lt
      fun a ha b hb ↦ dist_injOn hv target ha hb]
    refine forall_congr' fun S ↦ ?_
    rw [closest_ofNat]
    simp only [Outcome.ok.injEq, exists_eq_left', isClosest_iff, nearest]

/-- The contact whose identifier is `0x80`, thirty zero bytes and `last`. -/
def farContact (last : UInt8) : Contact :=
  ⟨⟨128 :: (List.replicate 30 0 ++ [last]), by simp [idBytes, idBits]⟩, "192.0.2.1:4000", 0, 0,
    false⟩

/-- The identifier of thirty-two zero bytes. -/
def zeroID : ID := ⟨List.replicate 32 0, by simp [idBytes, idBits]⟩

/-- Two contacts whose distances differ in the last byte, the farther one added first: asked for
one, `Closest` returns the farther one even with a stable sort. -/
theorem closest_returns_farther :
    ¬ ∃ r, closest SortSlice.insertion
        ((new zeroID).run [.add (farContact 2), .add (farContact 1)]) zeroID 1 = .ok r ∧
      ((new zeroID).run [.add (farContact 2), .add (farContact 1)]).IsClosest zeroID 1 r := by
  rintro ⟨r, hr, h⟩
  have hall : ((new zeroID).run [.add (farContact 2), .add (farContact 1)]).all =
      [farContact 2, farContact 1] := by decide +kernel
  have hres : closest SortSlice.insertion
      ((new zeroID).run [.add (farContact 2), .add (farContact 1)]) zeroID 1 =
      .ok [farContact 2] := by decide +kernel
  rw [hres, Outcome.ok.injEq] at hr
  subst hr
  have hcloser := h.left_out (farContact 1) (by rw [hall]; simp) rfl (by decide +kernel)
    (farContact 2) (by simp)
  exact absurd hcloser (by decide +kernel)

end TunnelCat.Dht.RoutingTable
