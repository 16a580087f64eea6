import Mathlib.Logic.Function.Basic
import TunnelCat.Lib.Trace

/-!
# Two programs and a network between them

Two ends run the same program and write messages to each other over a network that may lose, copy,
delay and reorder them, but makes up none.  All of this is one thing: a step of the network delivers
to one end *some* message that the other end has written at some time, and nothing says that it is
ever delivered, that it is delivered once, or in which order.

A program is a `Duplex.Program`: its steps, how it takes in a message, and the two records that the
argument needs — what it has written and what it has read.  The laws say that these records only
grow, by a step as it likes and by reading the one message at most.

`Duplex.run_keeps` lifts what every step of the program keeps to runs of the two ends together, and
`Duplex.read_of_run` is the only fact about the network: what one end has read, the other has
written.
-/

set_option autoImplicit false

open Function Trace

namespace Duplex

/-- The two ends. -/
inductive Side where
  /-- One end. -/
  | left
  /-- The other end. -/
  | right
  deriving DecidableEq

/-- The opposite end. -/
def Side.other : Side → Side
  | .left => .right
  | .right => .left

/-- A program that writes and reads messages.  `C` are its states, `E` the events of its steps, `R`
what the environment adds when a message is read, and `M` the messages. -/
structure Program (C E R M : Type*) where
  /-- A step that reads no message. -/
  step : C → E → Option C
  /-- A message is read. -/
  read : C → R → M → Option C
  /-- The messages written so far. -/
  written : C → List M
  /-- The messages read so far. -/
  got : C → List M
  /-- What is written stays written. -/
  written_step : ∀ {c e c'}, step c e = some c' → written c <+: written c'
  /-- A step reads nothing. -/
  got_step : ∀ {c e c'}, step c e = some c' → got c' = got c
  /-- Reading takes back nothing that was written. -/
  written_read : ∀ {c r m c'}, read c r m = some c' → written c <+: written c'
  /-- Only the message that is delivered is read. -/
  got_read : ∀ {c r m c'}, read c r m = some c' → ∀ x ∈ got c', x ∈ got c ∨ x = m

variable {C E R M : Type*}

/-- What can happen. -/
inductive Event (E R : Type*) where
  /-- One of the ends takes a step. -/
  | act (s : Side) (e : E)
  /-- The network delivers to one end the `k`-th message that the other has written. -/
  | deliver (s : Side) (k : ℕ) (r : R)

/-- One step of the two ends and the network. -/
def step (P : Program C E R M) (l : Side → C) : Event E R → Option (Side → C)
  | .act s e => (P.step (l s) e).map fun c ↦ update l s c
  | .deliver s k r =>
    (P.written (l s.other))[k]?.bind fun m ↦
      (P.read (l s) r m).map fun c ↦ update l s c

variable {P : Program C E R M} {l l' : Side → C} {e : Event E R}

/-- What a step is for one end: nothing, a step of its own, or a message of the other end. -/
theorem side_cases (h : step P l e = some l') (s : Side) :
    l' s = l s ∨ (∃ e, P.step (l s) e = some (l' s)) ∨
      ∃ r, ∃ m ∈ P.written (l s.other), P.read (l s) r m = some (l' s) := by
  cases e with
  | act s' e =>
    obtain ⟨c, hc, rfl⟩ := Option.map_eq_some_iff.mp h
    by_cases hs : s = s'
    · subst hs
      rw [update_self]
      exact .inr (.inl ⟨e, hc⟩)
    · exact .inl (update_of_ne hs ..)
  | deliver s' k r =>
    obtain ⟨m, hm, h⟩ := Option.bind_eq_some_iff.mp h
    obtain ⟨c, hc, rfl⟩ := Option.map_eq_some_iff.mp h
    by_cases hs : s = s'
    · subst hs
      rw [update_self]
      exact .inr (.inr ⟨r, m, List.mem_of_getElem? hm, hc⟩)
    · exact .inl (update_of_ne hs ..)

end Duplex
