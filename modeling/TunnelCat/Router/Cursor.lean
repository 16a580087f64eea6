import Mathlib.Data.List.Rotate
import TunnelCat.Lib.Trace
import TunnelCat.Router.Controls
import TunnelCat.Router.Switching

/-!
# Going through the paths

A client that cannot connect over the primary path calls `Advance`, which moves an index over the
paths that `BuildPaths` has kept, and `Reset` moves it back.  Paths can be built again at any time,
and be none, in which case the index stays as it is.

`index_exact` is about every run of these calls, whatever else changes in the router meanwhile: the
index is that of a path unless there is none, so that `Primary`, `PickRandom` and `PrimaryIsBetter`
never panic.  `sweep_exact` says what a client sees that advances as often as there are paths: all
of them, each as often as it is in the list, in the order of the list and around its end; and
`Advance` returns false exactly when it goes back to the first one, which is once.
-/

set_option autoImplicit false

open Trace

namespace TunnelCat.Router

/-- `Primary`. -/
def primary (r : Router) : Outcome (Option RouterPath) :=
  if r.paths.length = 0 then .ok none
  else (Outcome.index r.paths r.pathIdx).bind fun p ↦ .ok (some p)

/-- `Advance`. -/
def advance (r : Router) : Router × Bool :=
  if r.pathIdx + 1 < r.paths.length then ({ r with pathIdx := r.pathIdx + 1 }, true)
  else ({ r with pathIdx := 0 }, false)

/-- `Reset`. -/
def reset (r : Router) : Router := { r with pathIdx := 0 }

/-- `PickRandom`, with what `rand.Intn` draws. -/
def pickRandom (r : Router) (draw : ℕ) : Outcome (Option RouterPath) :=
  if r.paths.length = 0 then .ok none
  else (Outcome.index r.paths (draw % r.paths.length)).bind fun p ↦ .ok (some p)

/-- A call. -/
inductive CursorCall where
  /-- `BuildPaths`. -/
  | build (E : Env) (now : ℤ)
  /-- `Advance`. -/
  | advance
  /-- `Reset`. -/
  | reset
  /-- Any other one: it may change everything but the paths and the index. -/
  | other (r : Router)

/-- What a call does. -/
def cursorStep (r : Router) : CursorCall → Option Router
  | .build E now => some (r.buildPaths E now)
  | .advance => some r.advance.1
  | .reset => some r.reset
  | .other s => some { s with paths := r.paths, pathIdx := r.pathIdx }

/-- The index is that of a path, unless there is none. -/
def InRange (r : Router) : Prop := r.paths = [] ∨ r.pathIdx < r.paths.length

variable {r s : Router}

theorem InRange.lt (h : r.InRange) (hne : r.paths.length ≠ 0) : r.pathIdx < r.paths.length :=
  h.resolve_left fun hnil ↦ hne (List.length_eq_zero_iff.mpr hnil)

theorem inRange_zero (h : r.pathIdx = 0) : r.InRange := by
  rcases List.eq_nil_or_concat r.paths with hnil | ⟨init, last, hcons⟩
  · exact .inl hnil
  · refine .inr ?_
    rw [h, hcons, List.length_concat]
    exact Nat.succ_pos _

theorem inRange_step {call : CursorCall} (h : r.InRange) (hs : r.cursorStep call = some s) :
    s.InRange := by
  rw [cursorStep.eq_def] at hs
  split at hs
  · rw [← Option.some_inj.mp hs, buildPaths]
    split
    · exact .inl rfl
    · exact inRange_zero rfl
  · rw [← Option.some_inj.mp hs, advance]
    split
    · rename_i hlt
      exact .inr hlt
    · exact inRange_zero rfl
  · exact Option.some_inj.mp hs ▸ inRange_zero rfl
  · exact Option.some_inj.mp hs ▸ h

theorem primary_eq (h : r.InRange) : r.primary = .ok r.paths[r.pathIdx]? := by
  rw [primary]
  by_cases hlen : r.paths.length = 0
  · rw [if_pos hlen, List.length_eq_zero_iff.mp hlen]
    rfl
  · rw [if_neg hlen, Outcome.index, List.getElem?_eq_getElem (h.lt hlen)]
    rfl

theorem inRange_of_exec {idle : Router} (hidle : idle.paths = []) {calls : List CursorCall}
    (h : exec cursorStep idle calls = some r) : r.InRange :=
  Trace.inv_of_exec (P := InRange) (fun hr hs ↦ inRange_step hr hs) (.inl hidle) h

/-- **The index never leaves the paths.**  In every run, whatever else happens to the router, none
of the functions that look at the index panics, and `Primary` returns a path unless there is
none. -/
theorem index_exact {idle : Router} (hidle : idle.paths = []) {calls : List CursorCall}
    (h : exec cursorStep idle calls = some r) :
    r.primary = .ok r.paths[r.pathIdx]? ∧ (r.paths ≠ [] → r.pathIdx < r.paths.length) ∧
    (∀ draw, r.pickRandom draw ≠ .panic) ∧
    ∀ currentAddr factor, r.primaryIsBetter currentAddr factor ≠ .panic := by
  have hin := inRange_of_exec hidle h
  refine ⟨primary_eq hin, hin.resolve_left, fun draw ↦ ?_, fun currentAddr factor ↦ ?_⟩
  · rw [pickRandom]
    split
    · exact Outcome.ok_ne_panic _
    · rename_i hlen
      rw [Outcome.index, List.getElem?_eq_getElem (Nat.mod_lt _ (Nat.pos_of_ne_zero hlen))]
      exact Outcome.ok_ne_panic _
  · rw [primaryIsBetter]
    split
    · exact Outcome.ok_ne_panic _
    · rename_i hlen
      rw [Outcome.index, List.getElem?_eq_getElem (hin.lt hlen), Outcome.ok_bind]
      dsimp only
      split
      · exact Outcome.ok_ne_panic _
      · split
        · exact Outcome.ok_ne_panic _
        · exact Outcome.ok_ne_panic _

/-- A router with one control and two relays. -/
def demoSweep : Router :=
  demoRouter "" [demoControl "a" "" 1 .tcp] [demoControl "b" "" 2 .tcp, demoControl "c" "" 3 .tcp]

/-- All controls are gone while the index is not zero: it stays, and there is no primary path. -/
theorem index_exact_unreachable :
    ∃ r, exec cursorStep demoSweep
        [.build .plain 0, .advance, .build .plain 30000000000] = some r ∧
      r.primary = .ok none ∧ r.pathIdx = 1 := by
  have hsum : (exec cursorStep demoSweep
      [.build .plain 0, .advance, .build .plain 30000000000]).map
      (fun r ↦ (r.paths.length, r.pathIdx)) = some (0, 1) := by
    decide +kernel
  obtain ⟨r, hr, hsum⟩ := Option.map_eq_some_iff.mp hsum
  obtain ⟨hlen, hidx⟩ := Prod.mk.inj hsum
  have hprimary := (index_exact rfl hr).1
  rw [List.length_eq_zero_iff.mp hlen] at hprimary
  exact ⟨r, hr, hprimary, hidx⟩

/-! ## A sweep -/

/-- After as many calls of `Advance`. -/
def advanced (r : Router) : ℕ → Router
  | 0 => r
  | k + 1 => (r.advanced k).advance.1

theorem advance_eq (h : r.pathIdx < r.paths.length) :
    r.advance = ({ r with pathIdx := (r.pathIdx + 1) % r.paths.length },
      decide ((r.pathIdx + 1) % r.paths.length ≠ 0)) := by
  rw [advance]
  split
  · rename_i hlt
    rw [Nat.mod_eq_of_lt hlt]
    rfl
  · rename_i hge
    rw [show r.pathIdx + 1 = r.paths.length by omega, Nat.mod_self]
    rfl

theorem advanced_eq (h : r.pathIdx < r.paths.length) (k : ℕ) :
    r.advanced k = { r with pathIdx := (r.pathIdx + k) % r.paths.length } := by
  induction k with
  | zero => rw [advanced, Nat.add_zero, Nat.mod_eq_of_lt h]
  | succ k ih =>
    have hlt : (r.advanced k).pathIdx < (r.advanced k).paths.length := by
      rw [ih]
      exact Nat.mod_lt _ (by omega)
    rw [advanced, advance_eq hlt, ih]
    dsimp only
    rw [Nat.mod_add_mod, Nat.add_assoc]

/-- **A sweep sees every path once.**  In every state of a run in which there are paths, the primary
paths that are seen by advancing as often as there are paths are the paths in their order, from the
current one on and around the end.  Of these calls of `Advance`, each returns false exactly if it
leads to the first path, and exactly one does. -/
theorem sweep_exact {idle : Router} (hidle : idle.paths = []) {calls : List CursorCall}
    (h : exec cursorStep idle calls = some r) (hne : r.paths ≠ []) :
    (List.range r.paths.length).map (fun k ↦ (r.advanced k).primary) =
      (r.paths.rotate r.pathIdx).map (fun p ↦ .ok (some p)) ∧
    (∀ k, (r.advanced k).advance.2 = false ↔ (r.advanced (k + 1)).pathIdx = 0) ∧
    (List.range r.paths.length).countP (fun k ↦ !(r.advanced k).advance.2) = 1 := by
  have hlt : r.pathIdx < r.paths.length := (inRange_of_exec hidle h).resolve_left hne
  have hback (k : ℕ) : (r.advanced k).advance.2 = false ↔ (r.advanced (k + 1)).pathIdx = 0 := by
    have hk : (r.advanced k).pathIdx < (r.advanced k).paths.length := by
      rw [advanced_eq hlt]
      exact Nat.mod_lt _ (by omega)
    rw [advanced, advance_eq hk]
    exact decide_eq_false_iff_not.trans not_not
  refine ⟨?_, hback, ?_⟩
  · refine List.ext_getElem (by simp) fun k hk hk' ↦ ?_
    rw [List.length_map, List.length_range] at hk
    rw [List.getElem_map, List.getElem_map, List.getElem_range, List.getElem_rotate,
      advanced_eq hlt, primary_eq (.inr (Nat.mod_lt _ (by omega)))]
    dsimp only
    rw [List.getElem?_eq_getElem (Nat.mod_lt _ (by omega))]
    congr 3
    exact congrArg (· % r.paths.length) (Nat.add_comm ..)
  · -- The only one is the last path before the end of the list.
    have hiff : ∀ k ∈ List.range r.paths.length,
        (!(r.advanced k).advance.2) = true ↔ (k == r.paths.length - 1 - r.pathIdx) = true := by
      intro k hk
      rw [Bool.not_eq_true', hback, beq_iff_eq, advanced_eq hlt]
      rw [List.mem_range] at hk
      dsimp only
      rcases Nat.lt_or_ge (r.pathIdx + (k + 1)) r.paths.length with hshort | hlong
      · rw [Nat.mod_eq_of_lt hshort]
        omega
      · rw [Nat.mod_eq_sub_mod hlong, Nat.mod_eq_of_lt (by omega)]
        omega
    rw [List.countP_congr hiff]
    exact List.count_eq_one_of_mem List.nodup_range (List.mem_range.mpr (by omega))

theorem sweep_exact_second :
    ∃ r, exec cursorStep demoSweep [.build .plain 0, .advance] = some r ∧
      r.paths.length = 5 ∧ r.pathIdx = 1 ∧
      (List.range 5).map (fun k ↦ (r.advanced k).primary) =
        (r.paths.rotate 1).map fun p ↦ .ok (some p) := by
  have hsum : (exec cursorStep demoSweep [.build .plain 0, .advance]).map
      (fun r ↦ (r.paths.length, r.pathIdx)) = some (5, 1) := by
    decide +kernel
  obtain ⟨r, hr, hsum⟩ := Option.map_eq_some_iff.mp hsum
  obtain ⟨hlen, hidx⟩ := Prod.mk.inj hsum
  have hne : r.paths ≠ [] := fun hnil ↦ absurd hlen (by simp [hnil])
  have hsweep := (sweep_exact rfl hr hne).1
  rw [hlen, hidx] at hsweep
  exact ⟨r, hr, hlen, hidx, hsweep⟩

end TunnelCat.Router
