import Mathlib.Data.List.Sort

/-!
# Sorting, and taking the first

A program that wants the `n` best of a list of things sorts the list and keeps the first `n`.

A library sort that need not be stable promises that the result is a permutation in which no element
is less than one before it, and promises nothing about elements of which neither is less;
`SortSlice` is that promise.  When the key it sorts by is only a prefix `k` of the distance `d` that
the result is judged by, the selection can go wrong, and `forall_isNearest_iff` says exactly when:
it is right for every sort that keeps the promise if and only if any two elements with the same key
already lie behind `n` others with a smaller one.  The sort that goes wrong otherwise is
`preferring a`, which puts `a` before everything else with its key.

A stable sort leaves no choice.  An element comes behind those before it that are not greater and
those after it that are less (`exists_stableSort_eq`), and it is among the first `n` if these are
less than `n`.
-/

set_option autoImplicit false

variable {α β : Type*} [LinearOrder β]

/-- A comparison that lists can be sorted by. -/
structure StrictWeak (less : α → α → Bool) : Prop where
  /-- Of two elements one at most is less. -/
  asymm : ∀ {a b}, less a b = true → less b a = false
  /-- Not being greater is transitive. -/
  trans : ∀ {a b c}, less b a = false → less c b = false → less c a = false

theorem StrictWeak.irrefl {less : α → α → Bool} (h : StrictWeak less) (a : α) :
    less a a = false := by
  by_contra hnot
  rw [Bool.not_eq_false] at hnot
  exact absurd (h.asymm hnot) (by simp [hnot])

theorem strictWeak_of_key {less : α → α → Bool} {k : α → β}
    (hless : ∀ a b, less a b = decide (k a < k b)) : StrictWeak less where
  asymm {a b} h := by
    rw [hless, decide_eq_true_iff] at h
    rw [hless, decide_eq_false_iff_not]
    exact h.asymm
  trans {a b c} hab hbc := by
    rw [hless, decide_eq_false_iff_not, not_lt] at hab hbc ⊢
    exact hab.trans hbc

/-- A stable sort. -/
def stableSort (less : α → α → Bool) (l : List α) : List α :=
  l.insertionSort fun a b ↦ less b a = false

theorem StrictWeak.pairwise_stableSort {less : α → α → Bool} (h : StrictWeak less) (l : List α) :
    (stableSort less l).Pairwise fun a b ↦ less b a = false := by
  have : IsTrans α fun a b ↦ less b a = false := ⟨fun _ _ _ ↦ h.trans⟩
  have : Std.Total fun a b : α ↦ less b a = false := ⟨fun a b ↦ by
    by_contra hnot
    rw [not_or, Bool.not_eq_false, Bool.not_eq_false] at hnot
    exact absurd (h.asymm hnot.1) (by simp [hnot.2])⟩
  exact List.pairwise_insertionSort _ l

/-- `sort.Slice`: a sort by a comparison, which need not be stable. -/
structure SortSlice (α : Type*) where
  /-- The sorted list. -/
  sort : (α → α → Bool) → List α → List α
  /-- Nothing is lost and nothing is added. -/
  perm : ∀ less l, (sort less l).Perm l
  /-- Nothing is less than what stands before it. -/
  sorted : ∀ {less}, StrictWeak less → ∀ l, (sort less l).Pairwise fun a b ↦ less b a = false

namespace SortSlice

variable (S : SortSlice α)

theorem mem_sort {less : α → α → Bool} {l : List α} {a : α} : a ∈ S.sort less l ↔ a ∈ l :=
  (S.perm less l).mem_iff

theorem sorted_of_key {less : α → α → Bool} {k : α → β}
    (hless : ∀ a b, less a b = decide (k a < k b)) (l : List α) :
    (S.sort less l).Pairwise fun a b ↦ k a ≤ k b :=
  (S.sorted (strictWeak_of_key hless) l).imp fun {a b} h ↦ by
    rwa [hless, decide_eq_false_iff_not, not_lt] at h

/-- The list sorted by a key. -/
def byKey (k : α → β) (l : List α) : List α := S.sort (fun a b ↦ decide (k a < k b)) l

theorem perm_byKey (k : α → β) (l : List α) : (S.byKey k l).Perm l := S.perm _ l

theorem mem_byKey {k : α → β} {l : List α} {a : α} : a ∈ S.byKey k l ↔ a ∈ l := S.mem_sort

theorem sorted_byKey (k : α → β) (l : List α) : (S.byKey k l).Pairwise fun a b ↦ k a ≤ k b :=
  S.sorted_of_key (fun _ _ ↦ rfl) l

/-- Insertion sort, which is stable. -/
def insertion : SortSlice α where
  sort := stableSort
  perm _ l := List.perm_insertionSort _ l
  sorted h l := h.pairwise_stableSort l

variable [DecidableEq α]

/-- One element comes first among those that it is not told apart from. -/
def prefers (a : α) (less : α → α → Bool) (x y : α) : Bool :=
  less x y || !less y x && decide (x = a ∧ y ≠ a)

theorem strictWeak_prefers (a : α) {less : α → α → Bool} (h : StrictWeak less) :
    StrictWeak (prefers a less) where
  asymm {x y} hxy := by
    simp only [prefers, Bool.or_eq_true, Bool.or_eq_false_iff, Bool.and_eq_true,
      Bool.and_eq_false_imp, Bool.not_eq_true', decide_eq_true_eq, decide_eq_false_iff_not] at hxy ⊢
    rcases hxy with hlt | ⟨hge, rfl, hy⟩
    · exact ⟨h.asymm hlt, fun hnot ↦ absurd (hnot.symm.trans hlt) Bool.false_ne_true⟩
    · exact ⟨hge, fun _ hyx ↦ hy hyx.1⟩
  trans {x y z} hyx hzy := by
    simp only [prefers, Bool.or_eq_false_iff, Bool.and_eq_false_imp, Bool.not_eq_true',
      decide_eq_false_iff_not] at hyx hzy ⊢
    refine ⟨h.trans hyx.1 hzy.1, fun hxz hza ↦ ?_⟩
    -- Then none of the three is less than another.
    have hxy : less x y = false := h.trans hzy.1 hxz
    have hyz : less y z = false := h.trans hxz hyx.1
    by_cases hy : y = a
    · exact hyx.2 hxy ⟨hy, hza.2⟩
    · exact hzy.2 hyz ⟨hza.1, hy⟩

/-- The sort that puts `a` first among the elements that have its key. -/
def preferring (a : α) : SortSlice α where
  sort less l := stableSort (prefers a less) l
  perm _ l := List.perm_insertionSort _ l
  sorted h l := ((strictWeak_prefers a h).pairwise_stableSort l).imp fun hba ↦
    (Bool.or_eq_false_iff.mp hba).1

end SortSlice

namespace Selection

/-- What a selection of the `n` nearest is: the right number of different elements of the list, in
ascending distance, none of them farther than an element that was left out. -/
structure IsNearest (d : α → ℕ) (n : ℕ) (l r : List α) : Prop where
  /-- As many as there are, up to `n`. -/
  length_eq : r.length = min n l.length
  /-- No element is returned twice. -/
  nodup : r.Nodup
  /-- Only elements of the list are returned. -/
  subset : r ⊆ l
  /-- What is left out is no nearer than what is returned. -/
  left_out : ∀ x ∈ l, x ∉ r → ∀ y ∈ r, ¬ d x < d y
  /-- The nearest comes first. -/
  ordered : r.Pairwise fun x y ↦ ¬ d y < d x

/-- Where the key does not tell two elements apart, the answer is settled before either of them. -/
def Settled (k : α → ℕ) (n : ℕ) (l : List α) : Prop :=
  ∀ a ∈ l, ∀ b ∈ l, a ≠ b → k a = k b → n ≤ l.countP fun c ↦ k c < k a

variable {k d : α → ℕ} {n : ℕ} {l s : List α}

/-- What is in a list but not among the first `n` is behind them. -/
theorem mem_drop_of_notMem_take {a : α} (ha : a ∈ s) (hnot : a ∉ s.take n) : a ∈ s.drop n := by
  rw [← List.take_append_drop n s] at ha
  exact (List.mem_append.mp ha).resolve_left hnot

/-- In a list that is ordered by a relation, the first `n` are related to those behind them. -/
theorem rel_of_mem_take_drop {R : α → α → Prop} (hs : s.Pairwise R) {a b : α} (ha : a ∈ s.take n)
    (hb : b ∈ s.drop n) : R a b := by
  rw [← List.take_append_drop n s, List.pairwise_append] at hs
  exact hs.2.2 a ha b hb

theorem eq_of_take_eq {p q : List α} {a : α} (h : s.take n = p ++ a :: q) :
    s = p ++ a :: (q ++ s.drop n) ∧ p.length < n := by
  constructor
  · rw [← List.cons_append, ← List.append_assoc, ← h, List.take_append_drop]
  · have hlen := congrArg List.length h
    rw [List.length_take, List.length_append, List.length_cons] at hlen
    omega

/-- In a sorted list, what has a smaller key than an element of the first `n` comes before it. -/
theorem countP_lt_of_mem_take {a : α} (hs : s.Pairwise fun x y ↦ k x ≤ k y) (ha : a ∈ s.take n) :
    s.countP (fun c ↦ k c < k a) < n := by
  obtain ⟨p, q, hpq⟩ := List.append_of_mem ha
  obtain ⟨hsplit, hlen⟩ := eq_of_take_eq hpq
  rw [hsplit, List.pairwise_append, List.pairwise_cons] at hs
  have hzero : (a :: (q ++ s.drop n)).countP (fun c ↦ k c < k a) = 0 := by
    rw [List.countP_eq_zero]
    intro c hc
    rcases List.mem_cons.mp hc with rfl | hc
    · simp
    · simpa using hs.2.1.1 c hc
  rw [hsplit, List.countP_append, hzero]
  exact lt_of_le_of_lt List.countP_le_length hlen

/-- In a settled list, an element of the first `n` has a smaller key than all that follow. -/
theorem key_lt_of_before (hnd : s.Nodup) (hset : Settled k n s)
    (hs : s.Pairwise fun x y ↦ k x ≤ k y) {p q : List α} {a b : α} (hpq : s.take n = p ++ a :: q)
    (hb : b ∈ q ++ s.drop n) : k a < k b := by
  obtain ⟨hsplit, -⟩ := eq_of_take_eq hpq
  have ha : a ∈ s.take n := by rw [hpq]; simp
  have hbs : b ∈ s := by rw [hsplit]; exact List.mem_append_right _ (List.mem_cons_of_mem _ hb)
  have hcount := countP_lt_of_mem_take hs ha
  rw [hsplit, List.nodup_append, List.nodup_cons] at hnd
  rw [hsplit, List.pairwise_append, List.pairwise_cons] at hs
  refine lt_of_le_of_ne (hs.2.1.1 b hb) fun he ↦ ?_
  have hn := hset a (List.mem_of_mem_take ha) b hbs (fun h ↦ hnd.2.1.1 (h ▸ hb)) he
  omega

theorem isNearest_take (hnd : l.Nodup) (hkd : ∀ {x y}, k x < k y → d x < d y)
    (hset : Settled k n l) (S : SortSlice α) : IsNearest d n l ((S.byKey k l).take n) := by
  have hperm := S.perm_byKey k l
  have hnd' := hperm.nodup_iff.mpr hnd
  have hset' : Settled k n (S.byKey k l) := by
    intro a ha b hb hab he
    rw [hperm.countP_eq]
    exact hset a (hperm.mem_iff.mp ha) b (hperm.mem_iff.mp hb) hab he
  have hbefore := fun {p q a b} ↦ key_lt_of_before (p := p) (q := q) (a := a) (b := b) hnd' hset'
    (S.sorted_byKey k l)
  refine ⟨?_, hnd'.sublist (List.take_sublist _ _), fun x hx ↦ ?_, fun x hx hxr y hy ↦ ?_, ?_⟩
  · rw [List.length_take, hperm.length_eq]
  · exact hperm.mem_iff.mp (List.mem_of_mem_take hx)
  · obtain ⟨p, q, hpq⟩ := List.append_of_mem hy
    have hdrop : x ∈ (S.byKey k l).drop n :=
      mem_drop_of_notMem_take (hperm.mem_iff.mpr hx) hxr
    exact Nat.not_lt.mpr (hkd (hbefore hpq (List.mem_append_right q hdrop))).le
  · rw [List.pairwise_iff_forall_sublist]
    intro a b hab
    obtain ⟨u, v, huv, ha, hb⟩ := List.cons_sublist_iff.mp hab
    obtain ⟨p, q, rfl⟩ := List.append_of_mem ha
    rw [List.singleton_sublist] at hb
    rw [List.append_assoc, List.cons_append] at huv
    exact Nat.not_lt.mpr (hkd (hbefore huv (by simp [hb]))).le

section Preferring

variable [DecidableEq α]

/-- The sort that prefers `a` gets it into the first `n` unless `n` elements have smaller keys, and
puts only those before it. -/
theorem preferring_take {a : α} (hnd : l.Nodup) (ha : a ∈ l)
    (hn : l.countP (fun c ↦ k c < k a) < n) :
    ∃ p q, ((SortSlice.preferring a).byKey k l).take n = p ++ a :: q ∧ ∀ c ∈ p, k c < k a := by
  have hperm := (SortSlice.preferring a).perm_byKey k l
  have hs : ((SortSlice.preferring a).byKey k l).Pairwise _ :=
    (SortSlice.strictWeak_prefers a (strictWeak_of_key fun _ _ ↦ rfl)).pairwise_stableSort l
  have hnd' := hperm.nodup_iff.mpr hnd
  obtain ⟨p, q, hpq⟩ := List.append_of_mem (hperm.mem_iff.mpr ha)
  rw [hpq] at hs hnd'
  have hp : ∀ c ∈ p, k c < k a := by
    intro c hc
    have hne : c ≠ a := (List.nodup_append.mp hnd').2.2 c hc a List.mem_cons_self
    have hle := (List.pairwise_append.mp hs).2.2 c hc a List.mem_cons_self
    simp only [SortSlice.prefers, Bool.or_eq_false_iff, Bool.and_eq_false_imp, Bool.not_eq_true',
      decide_eq_false_iff_not, not_lt] at hle
    by_contra hnot
    exact hle.2 (not_lt.mp hnot) ⟨trivial, hne⟩
  have hlen : p.length < n := by
    refine lt_of_le_of_lt ?_ hn
    rw [← hperm.countP_eq, hpq, List.countP_append,
      List.countP_eq_length.mpr fun c hc ↦ by simpa using hp c hc]
    exact Nat.le_add_right _ _
  refine ⟨p, q.take (n - p.length - 1), ?_, hp⟩
  rw [hpq, List.take_append, List.take_of_length_le hlen.le,
    show n - p.length = n - p.length - 1 + 1 by omega, List.take_succ_cons, Nat.add_sub_cancel]

theorem not_isNearest_preferring {a b : α} (hnd : l.Nodup) (ha : a ∈ l) (hb : b ∈ l)
    (hk : k a = k b) (hd : d b < d a) (hn : l.countP (fun c ↦ k c < k a) < n) :
    ¬ IsNearest d n l (((SortSlice.preferring a).byKey k l).take n) := by
  intro h
  obtain ⟨p, q, hpq, hp⟩ := preferring_take hnd ha hn
  by_cases hbr : b ∈ p ++ a :: q
  · have hord := h.ordered
    rw [hpq, List.pairwise_append, List.pairwise_cons] at hord
    rcases List.mem_append.mp hbr with hbp | hbq
    · exact absurd (hp b hbp) (by omega)
    · rcases List.mem_cons.mp hbq with rfl | hbq
      · exact absurd hd (lt_irrefl _)
      · exact hord.2.1.1 b hbq hd
  · exact h.left_out b hb (hpq ▸ hbr) a (by rw [hpq]; simp) hd

/-- **When selecting by a coarse key is exact**: for every sort that keeps its promise, if and only
if any two elements the key does not tell apart lie behind `n` others. -/
theorem forall_isNearest_iff (hnd : l.Nodup) (hkd : ∀ {x y}, k x < k y → d x < d y)
    (hinj : ∀ a ∈ l, ∀ b ∈ l, d a = d b → a = b) :
    (∀ S : SortSlice α, IsNearest d n l ((S.byKey k l).take n)) ↔ Settled k n l := by
  refine ⟨fun h a ha b hb hab hk ↦ ?_, fun h S ↦ isNearest_take hnd hkd h S⟩
  by_contra hn
  rw [Nat.not_le] at hn
  rcases Nat.lt_or_gt_of_ne fun he ↦ hab (hinj a ha b hb he) with hlt | hgt
  · exact not_isNearest_preferring hnd hb ha hk.symm hlt (hk ▸ hn) (h _)
  · exact not_isNearest_preferring hnd ha hb hk hgt hn (h _)

end Preferring

/-! ## Where a stable sort puts an element -/

section Stable

variable {less : α → α → Bool} {x p : α} {u v l₁ l₂ : List α}

/-- What is put into a sorted list comes behind an element that is less. -/
theorem orderedInsert_append_of_less (h : StrictWeak less) (hu : ∀ b ∈ u, less p b = false)
    (hx : less p x = true) :
    (u ++ p :: v).orderedInsert (fun a b ↦ less b a = false) x =
      u ++ p :: v.orderedInsert (fun a b ↦ less b a = false) x := by
  have hbehind : ∀ b, less p b = false → less b x = true := fun b hb ↦ by
    by_contra hnot
    exact absurd (h.trans ((Bool.not_eq_true _).mp hnot) hb) (by simp [hx])
  induction u with
  | nil => rw [List.nil_append, List.orderedInsert, if_neg (by simp [hx]), List.nil_append]
  | cons b u ih =>
    have hb := hbehind b (hu b List.mem_cons_self)
    rw [List.cons_append, List.orderedInsert, if_neg (by simp [hb]),
      ih fun c hc ↦ hu c (List.mem_cons_of_mem b hc), List.cons_append]

/-- What is put into a list comes before an element that is not less. -/
theorem orderedInsert_append_of_not_less (hx : less p x = false) :
    (u ++ p :: v).orderedInsert (fun a b ↦ less b a = false) x =
      u.orderedInsert (fun a b ↦ less b a = false) x ++ p :: v := by
  induction u with
  | nil => exact List.orderedInsert_cons_of_le (r := fun a b ↦ less b a = false) v hx
  | cons b u ih =>
    rw [List.cons_append, List.orderedInsert, List.orderedInsert, ih]
    split <;> rfl

theorem takeWhile_eq_filter {s : List α} (hs : s.Pairwise fun a b ↦ less b a = false)
    (h : StrictWeak less) (p : α) :
    s.takeWhile (fun b ↦ less b p) = s.filter fun b ↦ less b p := by
  induction s with
  | nil => rfl
  | cons b s ih =>
    rw [List.pairwise_cons] at hs
    rw [List.takeWhile_cons, List.filter_cons, ih hs.2]
    split
    · rfl
    · rename_i hb
      refine (List.filter_eq_nil_iff.mpr fun c hc hcp ↦ hb ?_).symm
      by_contra hbp
      exact absurd (h.trans ((Bool.not_eq_true _).mp hbp) (hs.1 c hc)) (by simp [hcp])

/-- **Where a stable sort puts an element**: behind those before it that are not greater, and those
after it that are less. -/
theorem exists_stableSort_eq (h : StrictWeak less) (l₁ l₂ : List α) (p : α) :
    ∃ u v, stableSort less (l₁ ++ p :: l₂) = u ++ p :: v ∧
      u.Perm (l₁.filter (fun b ↦ !less p b) ++ l₂.filter fun b ↦ less b p) := by
  induction l₁ with
  | nil =>
    have hinsert := List.orderedInsert_eq_take_drop (fun a b ↦ less b a = false) p
      (stableSort less l₂)
    simp only [Bool.not_eq_false, Bool.decide_eq_true,
      takeWhile_eq_filter (h.pairwise_stableSort l₂) h] at hinsert
    exact ⟨_, _, hinsert, (List.perm_insertionSort _ l₂).filter _⟩
  | cons x l₁ ih =>
    obtain ⟨u, v, huv, hu⟩ := ih
    have hsort : stableSort less (x :: l₁ ++ p :: l₂) =
        (u ++ p :: v).orderedInsert (fun a b ↦ less b a = false) x := huv ▸ rfl
    by_cases hx : less p x = true
    · have hbefore : ∀ b ∈ u, less p b = false := by
        have hs := h.pairwise_stableSort (l₁ ++ p :: l₂)
        rw [huv, List.pairwise_append] at hs
        exact fun b hb ↦ hs.2.2 b hb p List.mem_cons_self
      refine ⟨_, _, hsort.trans (orderedInsert_append_of_less h hbefore hx), ?_⟩
      rwa [List.filter_cons, if_neg (by simp [hx])]
    · rw [Bool.not_eq_true] at hx
      refine ⟨_, _, hsort.trans (orderedInsert_append_of_not_less hx), ?_⟩
      rw [List.filter_cons, if_pos (by simp [hx]), List.cons_append]
      exact (List.perm_orderedInsert _ x u).trans (hu.cons x)

/-- How many elements a stable sort puts before one. -/
def before (less : α → α → Bool) (p : α) (l₁ l₂ : List α) : ℕ :=
  l₁.countP (fun b ↦ !less p b) + l₂.countP fun b ↦ less b p

theorem mem_take_of_before_lt (h : StrictWeak less) (hn : before less p l₁ l₂ < n) :
    p ∈ (stableSort less (l₁ ++ p :: l₂)).take n := by
  obtain ⟨u, v, huv, hu⟩ := exists_stableSort_eq h l₁ l₂ p
  have hlen := hu.length_eq
  rw [List.length_append, ← List.countP_eq_length_filter, ← List.countP_eq_length_filter] at hlen
  rw [huv, List.take_append, List.mem_append]
  right
  rw [show n - u.length = n - u.length - 1 + 1 by rw [before] at hn; omega, List.take_succ_cons]
  exact List.mem_cons_self

/-- The first of some equal elements is among the first `n` only if less than `n` are before it. -/
theorem before_lt_of_mem_take (h : StrictWeak less) (hfirst : p ∉ l₁)
    (hp : p ∈ (stableSort less (l₁ ++ p :: l₂)).take n) : before less p l₁ l₂ < n := by
  obtain ⟨u, v, huv, hu⟩ := exists_stableSort_eq h l₁ l₂ p
  have hlen := hu.length_eq
  rw [List.length_append, ← List.countP_eq_length_filter, ← List.countP_eq_length_filter] at hlen
  have hpu : p ∉ u := fun hmem ↦ by
    rcases List.mem_append.mp (hu.mem_iff.mp hmem) with h₁ | h₂
    · exact hfirst (List.mem_filter.mp h₁).1
    · exact absurd (List.mem_filter.mp h₂).2 (by simp [h.irrefl p])
  by_contra hge
  rw [huv, List.take_append_of_le_length (by rw [before] at hge; omega)] at hp
  exact hpu (List.mem_of_mem_take hp)

/-- Of a list with something in it, one element comes first. -/
theorem exists_before_eq_zero {l : List α} (h : StrictWeak less) (hl : l ≠ []) :
    ∃ p l₁ l₂, l = l₁ ++ p :: l₂ ∧ before less p l₁ l₂ = 0 := by
  obtain ⟨p, s, hs⟩ := List.exists_cons_of_ne_nil
    (show stableSort less l ≠ [] from fun hnil ↦
      hl ((hnil ▸ List.perm_insertionSort _ l : [].Perm l).nil_eq.symm))
  have hp : p ∈ l := (List.perm_insertionSort _ l).mem_iff.mp (hs ▸ List.mem_cons_self : p ∈ _)
  obtain ⟨l₁, l₂, rfl, hfirst⟩ := List.eq_append_cons_of_mem hp
  refine ⟨p, l₁, l₂, rfl, Nat.lt_one_iff.mp (before_lt_of_mem_take h hfirst ?_)⟩
  rw [hs, List.take_succ_cons]
  exact List.mem_cons_self

theorem not_less_of_before_eq_zero (h : StrictWeak less) (hzero : before less p l₁ l₂ = 0) {q : α}
    (hq : q ∈ l₁ ++ p :: l₂) : less q p = false := by
  rw [before, Nat.add_eq_zero_iff, List.countP_eq_zero, List.countP_eq_zero] at hzero
  rcases List.mem_append.mp hq with hq | hq
  · exact h.asymm (by simpa using hzero.1 q hq)
  · rcases List.mem_cons.mp hq with rfl | hq
    · exact h.irrefl q
    · simpa using hzero.2 q hq

end Stable

end Selection
