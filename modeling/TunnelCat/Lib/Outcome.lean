import Mathlib.Data.List.Basic

/-!
# How a call can end

A Go function that returns a value and an error can end in a third way: an index or a slice
expression out of range panics.  `Outcome` keeps the three apart, so that "reports an error" and
"crashes" are different statements.
-/

set_option autoImplicit false

universe u

/-- What a call comes back with. -/
inductive Outcome (α : Type u) where
  /-- The call returned a value and a `nil` error. -/
  | ok (a : α)
  /-- The call returned an error with this text. -/
  | err (msg : String)
  /-- The call panicked. -/
  | panic
  deriving DecidableEq, Repr

namespace Outcome

variable {α : Type u}

theorem ok_ne_panic (a : α) : ok a ≠ panic := by
  intro h
  cases h

theorem err_ne_panic (msg : String) : (err msg : Outcome α) ≠ panic := by
  intro h
  cases h

/-- The slice expression `xs[lo:hi]`: a panic unless `lo ≤ hi` and `hi` is in range. -/
def slice (xs : List α) (lo hi : ℕ) : Outcome (List α) :=
  if lo ≤ hi ∧ hi ≤ xs.length then .ok ((xs.take hi).drop lo) else .panic

/-- What follows a call, if it returned a value. -/
def bind {β : Type u} (x : Outcome α) (f : α → Outcome β) : Outcome β :=
  match x with
  | .ok a => f a
  | .err msg => .err msg
  | .panic => .panic

@[simp] theorem ok_bind {β : Type u} (a : α) (f : α → Outcome β) : (ok a).bind f = f a := rfl

@[simp] theorem panic_bind {β : Type u} (f : α → Outcome β) : (panic : Outcome α).bind f = panic :=
  rfl

/-- Only the call itself can panic, if what follows returns. -/
theorem bind_ok_eq_panic {β : Type u} {x : Outcome α} {f : α → β} :
    (x.bind fun a ↦ .ok (f a)) = .panic ↔ x = .panic := by
  cases x <;> simp [bind]

/-- The index expression `xs[i]`. -/
def index (xs : List α) (i : ℕ) : Outcome α :=
  match xs[i]? with
  | some a => .ok a
  | none => .panic

variable {xs : List α} {lo hi : ℕ}

theorem index_of_lt {i : ℕ} (h : i < xs.length) (d : α) :
    index xs i = .ok (xs.getD i d) := by
  rw [index, List.getD_eq_getElem?_getD, List.getElem?_eq_getElem h]
  rfl

theorem slice_of_le (hle : lo ≤ hi) (hhi : hi ≤ xs.length) :
    slice xs lo hi = .ok ((xs.drop lo).take (hi - lo)) := by
  rw [slice, if_pos ⟨hle, hhi⟩, List.drop_take]

theorem slice_middle {pre mid post : List α} (hlo : pre.length = lo) (hhi : hi = lo + mid.length) :
    slice (pre ++ mid ++ post) lo hi = .ok mid := by
  subst hlo hhi
  rw [slice, if_pos ⟨Nat.le_add_right _ _, by simp⟩]
  congr 1
  rw [List.take_left' (by simp), List.drop_left' rfl]

theorem slice_panic (h : hi < lo) : slice xs lo hi = .panic :=
  if_neg fun hc ↦ absurd hc.1 (by omega)

end Outcome
