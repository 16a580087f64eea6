import Mathlib.Data.List.Nodup

/-!
# Lists searched by key

The idiom of a small table kept in a slice: a loop looks for the entry with a given key and edits
that entry in place — overwrites it, changes a field, or cuts it out — and stops there.
`Keyed.updateFirst` is that loop, with the edit as a parameter: `some` for the new entry, `none` to
cut it out.  As long as no key occurs twice, `mem_updateFirst` says exactly which entries there are
afterwards, and `keys_updateFirst` that the edit creates no duplicate.
-/

set_option autoImplicit false

namespace Keyed

variable {α κ : Type*} [DecidableEq κ]

/-- Edit the first entry with key `k`. -/
def updateFirst (key : α → κ) (k : κ) (f : α → Option α) : List α → List α
  | [] => []
  | a :: as =>
    if key a = k then
      match f a with
      | some b => b :: as
      | none => as
    else a :: updateFirst key k f as

variable {key : α → κ} {k : κ} {f : α → Option α}

theorem length_updateFirst_le (l : List α) : (updateFirst key k f l).length ≤ l.length := by
  induction l with
  | nil => exact Nat.le_refl 0
  | cons a as ih =>
    rw [updateFirst]
    split
    · split
      · exact Nat.le_refl _
      · exact Nat.le_succ _
    · exact Nat.succ_le_succ ih

variable {l : List α}

theorem mem_of_mem_updateFirst {x : α} (h : x ∈ updateFirst key k f l) :
    x ∈ l ∨ ∃ a ∈ l, f a = some x := by
  induction l with
  | nil => exact Or.inl h
  | cons a as ih =>
    rw [updateFirst] at h
    split at h
    · split at h
      · rename_i b hb
        rcases List.mem_cons.mp h with rfl | h
        · exact Or.inr ⟨a, by simp, hb⟩
        · exact Or.inl (by simp [h])
      · exact Or.inl (by simp [h])
    · rcases List.mem_cons.mp h with rfl | h
      · exact Or.inl (by simp)
      · rcases ih h with hx | ⟨c, hc, hcx⟩
        · exact Or.inl (by simp [hx])
        · exact Or.inr ⟨c, by simp [hc], hcx⟩

/-- An entry with the key is edited, if there is one. -/
theorem exists_mem_updateFirst {a : α} (ha : a ∈ l) (hk : key a = k) :
    ∃ b ∈ l, key b = k ∧ ∀ x, f b = some x → x ∈ updateFirst key k f l := by
  induction l with
  | nil => exact absurd ha List.not_mem_nil
  | cons c cs ih =>
    rw [updateFirst]
    by_cases hc : key c = k
    · refine ⟨c, List.mem_cons_self, hc, fun x hx ↦ ?_⟩
      rw [if_pos hc, hx]
      exact List.mem_cons_self
    · rcases List.mem_cons.mp ha with rfl | ha
      · exact absurd hk hc
      · obtain ⟨b, hb, hbk, hx⟩ := ih ha
        refine ⟨b, List.mem_cons_of_mem _ hb, hbk, fun x hbx ↦ ?_⟩
        rw [if_neg hc]
        exact List.mem_cons_of_mem _ (hx x hbx)

/-- Looking up a key that is there finds an entry with it. -/
theorem exists_find? (h : ∃ a ∈ l, key a = k) :
    ∃ a ∈ l, key a = k ∧ l.find? (fun a ↦ key a = k) = some a := by
  obtain ⟨b, hb, hk⟩ := h
  cases hfind : l.find? fun a ↦ key a = k with
  | none => exact absurd (decide_eq_true hk) (List.find?_eq_none.mp hfind b hb)
  | some a =>
    have hsome := List.find?_some hfind
    exact ⟨a, List.mem_of_find?_eq_some hfind, of_decide_eq_true hsome, rfl⟩

/-- An edit that keeps the key of the entry leaves at most the keys there were, in order. -/
theorem keys_updateFirst (hf : ∀ {a b}, key a = k → f a = some b → key b = k) (l : List α) :
    ((updateFirst key k f l).map key).Sublist (l.map key) := by
  induction l with
  | nil => exact List.Sublist.refl _
  | cons a as ih =>
    rw [updateFirst]
    split
    · rename_i hk
      split
      · rename_i b hb
        rw [List.map_cons, List.map_cons, hf hk hb, hk]
      · exact List.sublist_cons_self _ _
    · exact ih.cons_cons _

theorem nodup_updateFirst (hf : ∀ {a b}, key a = k → f a = some b → key b = k)
    (h : (l.map key).Nodup) : ((updateFirst key k f l).map key).Nodup :=
  h.sublist (keys_updateFirst hf l)

/-- **What the edit does**: the entries with another key stay, and the one with this key is
replaced by what the edit makes of it. -/
theorem mem_updateFirst (h : (l.map key).Nodup) (x : α) :
    x ∈ updateFirst key k f l ↔ (x ∈ l ∧ key x ≠ k) ∨ ∃ a ∈ l, key a = k ∧ f a = some x := by
  induction l with
  | nil => simp [updateFirst]
  | cons a as ih =>
    rw [List.map_cons, List.nodup_cons] at h
    rw [updateFirst]
    split
    · rename_i hk
      have hother : ∀ b ∈ as, key b ≠ k := fun b hb hbk ↦
        h.1 (List.mem_map.mpr ⟨b, hb, hbk.trans hk.symm⟩)
      have hstay : (x ∈ a :: as ∧ key x ≠ k) ↔ x ∈ as := by
        refine ⟨fun hx ↦ ?_, fun hx ↦ ⟨List.mem_cons_of_mem _ hx, hother x hx⟩⟩
        exact (List.mem_cons.mp hx.1).resolve_left fun he ↦ hx.2 (he ▸ hk)
      have hedit : (∃ c ∈ a :: as, key c = k ∧ f c = some x) ↔ f a = some x := by
        refine ⟨fun ⟨c, hc, hck, hcx⟩ ↦ ?_, fun hx ↦ ⟨a, List.mem_cons_self .., hk, hx⟩⟩
        rcases List.mem_cons.mp hc with rfl | hc
        · exact hcx
        · exact absurd hck (hother c hc)
      rw [hstay, hedit]
      cases f a with
      | none => simp
      | some b => rw [List.mem_cons, Option.some_inj, or_comm, eq_comm]
    · rename_i hk
      rw [List.mem_cons, ih h.2, List.exists_mem_cons_iff, List.mem_cons, or_and_right, or_assoc]
      refine or_congr ⟨fun hx ↦ ⟨hx, hx ▸ hk⟩, fun hx ↦ hx.1⟩ (or_congr_right ?_)
      exact ⟨Or.inr, fun hx ↦ hx.resolve_left fun ha ↦ hk ha.1⟩

end Keyed
