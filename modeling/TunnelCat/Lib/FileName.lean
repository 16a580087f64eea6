import Mathlib.Data.List.Basic

/-!
# File names

A name is split at its slashes and kept *clean*: no empty component, no `.`, and `..` only at the
front of a name that does not start at the root.  This is `path/filepath` of Go on Unix, as far as
`Join` goes, and it is purely lexical: `a/../b` is `b`, whatever `a` may be.
-/

set_option autoImplicit false

/-- A clean file name. -/
structure FileName where
  /-- Whether it starts at the root. -/
  rooted : Bool
  /-- Its components. -/
  comps : List String
deriving DecidableEq, Repr

namespace FileName

/-- One more component. -/
def push (rooted : Bool) (acc : List String) (c : String) : List String :=
  if c = "" ∨ c = "." then acc
  else if c = ".." then
    match acc.getLast? with
    | some l => if l = ".." then acc ++ [c] else acc.dropLast
    | none => if rooted then [] else [c]
  else acc ++ [c]

/-- The components of a path. -/
def split (p : String) : List String := (p.toList.splitOn '/').map String.ofList

/-- `filepath.Join`, of a clean name and a path. -/
def join (d : FileName) (p : String) : FileName :=
  { d with comps := (split p).foldl (push d.rooted) d.comps }

/-- The name with something appended to it, as a string. -/
def withSuffix (n : FileName) (suffix : String) : FileName :=
  match n.comps.getLast? with
  | some l => { n with comps := n.comps.dropLast ++ [l ++ suffix] }
  | none => { n with comps := [(if n.rooted then "" else ".") ++ suffix] }

/-- The name is strictly below a directory. -/
def Inside (d n : FileName) : Prop := n.rooted = d.rooted ∧ d.comps <+: n.comps ∧ n.comps ≠ d.comps

instance (d n : FileName) : Decidable (Inside d n) := inferInstanceAs (Decidable (_ ∧ _))

/-- A suffix does not move a file out of its directory. -/
theorem Inside.withSuffix {d n : FileName} (h : Inside d n) (suffix : String) :
    Inside d (n.withSuffix suffix) := by
  obtain ⟨hr, ⟨rest, hrest⟩, hne⟩ := h
  rcases List.eq_nil_or_concat' rest with rfl | ⟨dirs, last, rfl⟩
  · exact absurd (by simpa using hrest.symm) hne
  · have hsuffix : n.withSuffix suffix =
        { n with comps := d.comps ++ (dirs ++ [last ++ suffix]) } := by
      rw [FileName.withSuffix, ← hrest, ← List.append_assoc, List.getLast?_concat,
        List.dropLast_concat]
      dsimp only
      rw [List.append_assoc]
    rw [hsuffix]
    exact ⟨hr, List.prefix_append _ _, by simp⟩

/-- A name with a suffix ends in it. -/
theorem getLast?_withSuffix (n : FileName) (suffix : String) :
    ∃ base, (n.withSuffix suffix).comps.getLast? = some (base ++ suffix) := by
  rw [FileName.withSuffix]
  split
  · rename_i l hl
    exact ⟨l, by simp⟩
  · exact ⟨_, rfl⟩

/-- A suffix makes another name. -/
theorem ne_withSuffix (n : FileName) {suffix : String} (h : suffix ≠ "") :
    n ≠ n.withSuffix suffix := by
  intro hn
  have hlast := congrArg (fun n : FileName ↦ n.comps.getLast?) hn
  rw [FileName.withSuffix] at hlast
  split at hlast
  · rename_i l hl
    rw [hl, List.getLast?_concat, Option.some_inj] at hlast
    have hchars := congrArg String.toList hlast
    rw [String.toList_append, List.self_eq_append_right] at hchars
    exact h (String.toList_inj.mp hchars)
  · rename_i hnone
    rw [hnone] at hlast
    cases hlast

/-- The data directory of an application, and a path that leaves it. -/
example : join ⟨true, ["var", "mirror"]⟩ "docs/./a/../b.txt" =
      ⟨true, ["var", "mirror", "docs", "b.txt"]⟩ ∧
    join ⟨true, ["var", "mirror"]⟩ "../../../etc/passwd" = ⟨true, ["etc", "passwd"]⟩ := by
  decide +kernel

end FileName
