import Mathlib.Data.List.Nodup
import Mathlib.Logic.Function.Basic

/-!
# Queues that are made when they are needed

A family of queues, one for each key, of which at first none is there.  A queue is made by
`create`, something is put at its end by `push`, and taken from its beginning by `pop`.  A program
need not do any of these in a step, so `Does` relates the queues before and after a step and the
operation that was done, if there was one.

`Ledger` is what is known of a whole history: for every key, what was put in is what was taken out,
followed by what is still in the queue, in this order; and every queue that is there was made once.
-/

set_option autoImplicit false

open Function

namespace Fifo

variable {κ α : Type*}

/-- What can be done to a queue. -/
inductive Op (κ α : Type*) where
  /-- Make an empty queue. -/
  | create (k : κ)
  /-- Put something at the end. -/
  | push (k : κ) (a : α)
  /-- Take something from the beginning. -/
  | pop (k : κ) (a : α)
  deriving DecidableEq

variable [DecidableEq κ]

/-- What an operation puts into a queue. -/
def Op.pushed (k : κ) : Op κ α → Option α
  | .push j a => if j = k then some a else none
  | .create _ | .pop _ _ => none

/-- What an operation takes out of a queue. -/
def Op.popped (k : κ) : Op κ α → Option α
  | .pop j a => if j = k then some a else none
  | .create _ | .push _ _ => none

/-- The queue an operation makes. -/
def Op.created : Op κ α → Option κ
  | .create k => some k
  | .push _ _ | .pop _ _ => none

/-- What was put into a queue. -/
def pushed (k : κ) (ops : List (Op κ α)) : List α := ops.filterMap (Op.pushed k)

/-- What was taken out of a queue. -/
def popped (k : κ) (ops : List (Op κ α)) : List α := ops.filterMap (Op.popped k)

/-- The queues that were made. -/
def created (ops : List (Op κ α)) : List κ := ops.filterMap Op.created

/-- **One step**, with the operation that is done. -/
inductive Does (q : κ → Option (List α)) : Option (Op κ α) → (κ → Option (List α)) → Prop where
  /-- None is done. -/
  | nothing : Does q none q
  /-- There was no such queue. -/
  | create {k : κ} : q k = none → Does q (some (.create k)) (update q k (some []))
  | push {k : κ} {a : α} {l : List α} :
      q k = some l → Does q (some (.push k a)) (update q k (some (l ++ [a])))
  | pop {k : κ} {a : α} {l : List α} :
      q k = some (a :: l) → Does q (some (.pop k a)) (update q k (some l))

/-- **What is known of a history.** -/
structure Ledger (ops : List (Op κ α)) (q : κ → Option (List α)) : Prop where
  /-- First in, first out. -/
  order : ∀ k, pushed k ops = popped k ops ++ (q k).getD []
  /-- The queues that are there were made. -/
  mem_created : ∀ k, k ∈ created ops ↔ (q k).isSome = true
  /-- None of them was made twice. -/
  once : (created ops).Nodup

variable {ops : List (Op κ α)} {q q' : κ → Option (List α)} {op : Option (Op κ α)}

theorem ledger_nil : Ledger (α := α) [] fun _ : κ ↦ none where
  order _ := rfl
  mem_created _ := by simp [created]
  once := List.nodup_nil

/-- What was put in begins with what was taken out. -/
theorem Ledger.popped_prefix (h : Ledger ops q) (k : κ) : popped k ops <+: pushed k ops := by
  rw [h.order k]
  exact List.prefix_append ..

/-- One more operation. -/
theorem filterMap_concat {β γ : Type*} (f : β → Option γ) (l : List β) (b : β) :
    (l ++ [b]).filterMap f = l.filterMap f ++ (f b).toList := by
  cases h : f b <;> simp [h]

theorem popped_append_toList (k : κ) (ops : List (Op κ α)) (op : Option (Op κ α)) :
    popped k (ops ++ op.toList) = popped k ops ++ (op.bind (Op.popped k)).toList := by
  cases op with
  | none => simp
  | some op => exact filterMap_concat ..

omit [DecidableEq κ] in
theorem created_append_toList (ops : List (Op κ α)) (op : Option (Op κ α)) :
    created (ops ++ op.toList) = created ops ++ (op.bind Op.created).toList := by
  cases op with
  | none => simp
  | some op => exact filterMap_concat ..

theorem Ledger.create (h : Ledger ops q) {k : κ} (hk : q k = none) :
    Ledger (ops ++ [.create k]) (update q k (some [])) := by
  have hnew : k ∉ created ops := by
    rw [h.mem_created, hk]
    nofun
  have hcreated : created (ops ++ [.create k]) = created ops ++ [k] := filterMap_concat ..
  refine ⟨fun j ↦ ?_, fun j ↦ ?_, ?_⟩
  · have hj := h.order j
    rw [pushed, popped, filterMap_concat, filterMap_concat, Op.pushed, Op.popped,
      Option.toList_none, List.append_nil, List.append_nil]
    by_cases hjk : j = k
    · subst hjk
      rw [hk] at hj
      rwa [update_self]
    · rwa [update_of_ne hjk]
  · rw [hcreated, List.mem_append, List.mem_singleton, h.mem_created]
    by_cases hjk : j = k
    · simp [hjk]
    · simp [hjk]
  · rw [hcreated, ← List.concat_eq_append]
    exact h.once.concat hnew

/-- An operation on a queue that is there, after which `l` is in it. -/
theorem Ledger.use (h : Ledger ops q) {op : Op κ α} {k : κ} (hop : op.created = none)
    (hk : (q k).isSome = true) {l : List α}
    (hself : pushed k ops ++ (op.pushed k).toList = popped k ops ++ (op.popped k).toList ++ l)
    (hother : ∀ j, j ≠ k → op.pushed j = none ∧ op.popped j = none) :
    Ledger (ops ++ [op]) (update q k (some l)) := by
  have hcreated : created (ops ++ [op]) = created ops := by
    rw [created, filterMap_concat, hop, Option.toList_none, List.append_nil, created]
  refine ⟨fun j ↦ ?_, fun j ↦ ?_, hcreated ▸ h.once⟩
  · rw [pushed, popped, filterMap_concat, filterMap_concat]
    by_cases hjk : j = k
    · subst hjk
      rw [update_self]
      exact hself
    · obtain ⟨hpush, hpop⟩ := hother j hjk
      rw [hpush, hpop, update_of_ne hjk, Option.toList_none, List.append_nil,
        List.append_nil]
      exact h.order j
  · rw [hcreated, h.mem_created]
    by_cases hjk : j = k
    · rw [hjk, hk, update_self]
      rfl
    · rw [update_of_ne hjk]

/-- **Every step keeps the ledger.** -/
theorem Ledger.step (h : Ledger ops q) (hdoes : Does q op q') : Ledger (ops ++ op.toList) q' := by
  cases hdoes with
  | nothing => rwa [Option.toList_none, List.append_nil]
  | create hk => exact h.create hk
  | @push k a l hk =>
    have hl := h.order k
    rw [hk, Option.getD_some] at hl
    refine h.use rfl (by rw [hk]; rfl) ?_ fun j hj ↦ ⟨if_neg (Ne.symm hj), rfl⟩
    rw [Op.pushed, if_pos rfl, Op.popped, hl]
    simp
  | @pop k a l hk =>
    have hl := h.order k
    rw [hk, Option.getD_some] at hl
    refine h.use rfl (by rw [hk]; rfl) ?_ fun j hj ↦ ⟨rfl, if_neg (Ne.symm hj)⟩
    rw [Op.popped, if_pos rfl, Op.pushed, hl]
    simp

end Fifo
