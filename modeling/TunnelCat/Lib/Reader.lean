import Mathlib.Data.List.Basic

/-!
# A stream that arrives in pieces

What one side of a connection writes reaches the other in pieces that neither side chooses.  A
stream is the list of its pieces.  A `read` returns as much of the first piece as its buffer holds
and leaves the rest for the next one, and a `copy` reads until the stream ends.

A read takes a beginning off the stream (`flatten_of_read`), whatever the pieces are, so a copy that
goes on for long enough gets all of it (`copy_eq_flatten`).  A `readFull` reads until its buffer is
full or the stream ends, and what it gets does not depend on the pieces at all.
-/

set_option autoImplicit false

namespace Reader

universe u

variable {α : Type u} {k n : ℕ} {b : List α} {ps qs : List (List α)}

/-- A read into a buffer for `k` items: what it returns and what is left, or `none` at the end. -/
def read (k : ℕ) : List (List α) → Option (List α × List (List α))
  | [] => none
  | p :: ps => some (p.take k, if p.length ≤ k then ps else p.drop k :: ps)

/-- What `n` reads get, or as many of them as there are before the end. -/
def copy (k : ℕ) : ℕ → List (List α) → List α
  | 0, _ => []
  | n + 1, ps =>
    match read k ps with
    | none => []
    | some (b, qs) => b ++ copy k n qs

/-- A bound on the number of reads. -/
def weight (ps : List (List α)) : ℕ := ps.length + ps.flatten.length

/-- **A read takes a beginning off the stream.** -/
theorem flatten_of_read (h : read k ps = some (b, qs)) : ps.flatten = b ++ qs.flatten := by
  cases ps with
  | nil => exact absurd h (Option.some_ne_none _).symm
  | cons p ps =>
    rw [read, Option.some_inj, Prod.mk.injEq] at h
    obtain ⟨rfl, rfl⟩ := h
    split
    · rename_i hle
      rw [List.take_of_length_le hle, List.flatten_cons]
    · rw [List.flatten_cons, List.flatten_cons, ← List.append_assoc, List.take_append_drop]

theorem weight_of_read (hk : 0 < k) (h : read k ps = some (b, qs)) : weight qs < weight ps := by
  cases ps with
  | nil => exact absurd h (Option.some_ne_none _).symm
  | cons p ps =>
    rw [read, Option.some_inj, Prod.mk.injEq] at h
    obtain ⟨-, rfl⟩ := h
    split
    · simp only [weight, List.length_cons, List.flatten_cons, List.length_append]
      omega
    · simp only [weight, List.length_cons, List.flatten_cons, List.length_append, List.length_drop]
      omega

/-- **A copy gets everything**, if it goes on until the end. -/
theorem copy_eq_flatten (hk : 0 < k) (hn : weight ps ≤ n) : copy k n ps = ps.flatten := by
  induction n generalizing ps with
  | zero =>
    have hnil : ps = [] := List.length_eq_zero_iff.mp (by rw [weight] at hn; omega)
    rw [hnil, copy, List.flatten_nil]
  | succ n ih =>
    rw [copy]
    cases h : read k ps with
    | none =>
      cases ps with
      | nil => rfl
      | cons p ps => exact absurd h (Option.some_ne_none _)
    | some r =>
      have hlt := weight_of_read hk h
      have hrest : copy k n r.2 = r.2.flatten := ih (by omega)
      rw [flatten_of_read h, ← hrest]

/-- Reads into one buffer for `k` items until it is full or the stream ends: what the buffer holds
then, and what is left. -/
def readFull : ℕ → List (List α) → List α × List (List α)
  | 0, ps => ([], ps)
  | _ + 1, [] => ([], [])
  | k + 1, p :: ps =>
    if p.length ≤ k + 1 then
      let r := readFull (k + 1 - p.length) ps
      (p ++ r.1, r.2)
    else (p.take (k + 1), p.drop (k + 1) :: ps)

/-- **What fills the buffer** is the beginning of the stream, however it arrives. -/
theorem readFull_eq (k : ℕ) (ps : List (List α)) :
    (readFull k ps).1 = ps.flatten.take k ∧ (readFull k ps).2.flatten = ps.flatten.drop k := by
  induction ps generalizing k with
  | nil =>
    cases k with
    | zero => exact ⟨rfl, rfl⟩
    | succ k => exact ⟨rfl, rfl⟩
  | cons p ps ih =>
    cases k with
    | zero => exact ⟨rfl, rfl⟩
    | succ k =>
      rw [readFull, List.flatten_cons, List.take_append, List.drop_append]
      split
      · rename_i hle
        obtain ⟨hfst, hsnd⟩ := ih (k + 1 - p.length)
        rw [List.take_of_length_le hle, List.drop_of_length_le hle, List.nil_append]
        exact ⟨congrArg (p ++ ·) hfst, hsnd⟩
      · rename_i hlt
        rw [Nat.sub_eq_zero_of_le (by omega), List.take_zero, List.drop_zero, List.append_nil,
          List.flatten_cons]
        exact ⟨rfl, rfl⟩

end Reader
