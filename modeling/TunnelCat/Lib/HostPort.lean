import Mathlib.Data.List.Basic

/-!
# Addresses of a host and a port

`net.SplitHostPort` cuts an address at its last colon.  A host that has colons of its own stands in
brackets; anything else with a second colon, or with brackets elsewhere, is an error.

The function looks only for the three characters that mark something, so it is defined over lists of
any type with three such marks: of characters, or of bytes.  `splitHostPort_append` says what it
makes of a text that was put together from a host, a colon and a port: nothing is known of the host,
and it comes back if it has no mark in it, or stripped of its brackets if it has brackets around it
and none inside, and else there is an error.  `exists_splitHostPort_iff` is the grammar of what is
accepted.
-/

set_option autoImplicit false

universe u

variable {α : Type u}

/-- The three characters that mark something in an address. -/
structure Marks (α : Type u) where
  /-- A colon, before the port. -/
  colon : α
  /-- The bracket before a host. -/
  opening : α
  /-- The bracket after a host. -/
  closing : α
  /-- The colon is not the first bracket. -/
  colon_ne_opening : colon ≠ opening
  /-- The colon is not the second bracket. -/
  colon_ne_closing : colon ≠ closing
  /-- The brackets are different. -/
  opening_ne_closing : opening ≠ closing

namespace Marks

/-- The marks as characters. -/
def chars : Marks Char := ⟨':', '[', ']', by decide, by decide, by decide⟩

/-- The marks as bytes. -/
def bytes : Marks UInt8 := ⟨58, 91, 93, by decide, by decide, by decide⟩

variable (M : Marks α)

/-- A text without marks. -/
def Free (xs : List α) : Prop := M.colon ∉ xs ∧ M.opening ∉ xs ∧ M.closing ∉ xs

instance [DecidableEq α] (xs : List α) : Decidable (M.Free xs) :=
  inferInstanceAs (Decidable (_ ∧ _))

end Marks

namespace HostPort

/-- Why an address is not accepted. -/
inductive AddrError where
  /-- `missing port in address`. -/
  | missingPort
  /-- `too many colons in address`. -/
  | tooManyColons
  /-- `missing ']' in address`. -/
  | missingClosing
  /-- `unexpected '[' in address`. -/
  | unexpectedOpening
  /-- `unexpected ']' in address`. -/
  | unexpectedClosing
  deriving DecidableEq, Repr

variable [DecidableEq α]

/-! ## The position of a mark -/

/-- Where a mark stands first. -/
def index (c : α) : List α → Option ℕ
  | [] => none
  | x :: xs => if x = c then some 0 else (index c xs).map (· + 1)

/-- Where a mark stands last. -/
def lastIndex (c : α) : List α → Option ℕ
  | [] => none
  | x :: xs =>
    match lastIndex c xs with
    | some i => some (i + 1)
    | none => if x = c then some 0 else none

variable {c : α} {xs : List α}

theorem index_eq_none (h : c ∉ xs) : index c xs = none := by
  induction xs with
  | nil => rfl
  | cons x xs ih =>
    rw [List.mem_cons, not_or] at h
    rw [index, if_neg (Ne.symm h.1), ih h.2, Option.map_none]

theorem index_append (h : c ∉ xs) (ys : List α) :
    index c (xs ++ c :: ys) = some xs.length := by
  induction xs with
  | nil => rw [List.nil_append, index, if_pos rfl, List.length_nil]
  | cons x xs ih =>
    rw [List.mem_cons, not_or] at h
    rw [List.cons_append, index, if_neg (Ne.symm h.1), ih h.2, Option.map_some, List.length_cons]

theorem lastIndex_eq_none (h : c ∉ xs) : lastIndex c xs = none := by
  induction xs with
  | nil => rfl
  | cons x xs ih =>
    rw [List.mem_cons, not_or] at h
    simp only [lastIndex, ih h.2, if_neg (Ne.symm h.1)]

theorem lastIndex_append {ys : List α} (h : c ∉ ys) (xs : List α) :
    lastIndex c (xs ++ c :: ys) = some xs.length := by
  induction xs with
  | nil => simp only [List.nil_append, lastIndex, lastIndex_eq_none h, if_pos, List.length_nil]
  | cons x xs ih => simp only [List.cons_append, lastIndex, ih, List.length_cons]

/-! ## Splitting -/

variable (M : Marks α)

/-- The last part of `SplitHostPort`: no bracket may stand where none has been looked for, from `j`
and from `k` on. -/
def finish (hostport host : List α) (i j k : ℕ) : Except AddrError (List α × List α) :=
  if M.opening ∈ hostport.drop j then .error .unexpectedOpening
  else if M.closing ∈ hostport.drop k then .error .unexpectedClosing
  else .ok (host, hostport.drop (i + 1))

/-- `SplitHostPort`: the host and the port. -/
def splitHostPort (hostport : List α) : Except AddrError (List α × List α) :=
  match lastIndex M.colon hostport with
  | none => .error .missingPort
  | some i =>
    if hostport.head? = some M.opening then
      match index M.closing hostport with
      | none => .error .missingClosing
      | some stop =>
        if stop + 1 = hostport.length then .error .missingPort
        else if stop + 1 = i then
          finish M hostport ((hostport.take stop).drop 1) i 1 (stop + 1)
        else if hostport[stop + 1]? = some M.colon then .error .tooManyColons
        else .error .missingPort
    else
      let host := hostport.take i
      if M.colon ∈ host then .error .tooManyColons
      else finish M hostport host i 0 0

variable {M} {host port : List α} {r : List α × List α}

theorem finish_eq_ok {hostport : List α} {i j k : ℕ} :
    finish M hostport host i j k = .ok r ↔
      M.opening ∉ hostport.drop j ∧ M.closing ∉ hostport.drop k ∧
        r = (host, hostport.drop (i + 1)) := by
  rw [finish]
  split
  · rename_i hopen
    exact ⟨fun h ↦ (nomatch h), fun h ↦ absurd hopen h.1⟩
  split
  · rename_i hclose
    exact ⟨fun h ↦ (nomatch h), fun h ↦ absurd hclose h.2.1⟩
  · rename_i hopen hclose
    rw [Except.ok.injEq]
    exact ⟨fun h ↦ ⟨hopen, hclose, h.symm⟩, fun h ↦ h.2.2.symm⟩

omit [DecidableEq α] in
theorem drop_append_cons (c : α) (xs ys : List α) : (xs ++ c :: ys).drop (xs.length + 1) = ys := by
  rw [← List.drop_drop, List.drop_left, List.drop_one, List.tail_cons]

/-- What stands before a mark and what stands after it, if it has not stood before. -/
theorem append_cons_inj {xs xs' ys ys' : List α} (h : c ∉ xs) (h' : c ∉ xs')
    (heq : xs ++ c :: ys = xs' ++ c :: ys') : xs = xs' ∧ ys = ys' := by
  have hindex := index_append h' ys'
  rw [← heq, index_append h, Option.some_inj] at hindex
  obtain ⟨hxs, hys⟩ := List.append_inj heq hindex
  exact ⟨hxs, (List.cons_inj_right c).mp hys⟩

/-- A host that does not begin with a bracket comes back if it has no mark in it. -/
theorem splitHostPort_bare (hport : M.Free port) (hhead : host.head? ≠ some M.opening) :
    splitHostPort M (host ++ M.colon :: port) = .ok r ↔ M.Free host ∧ r = (host, port) := by
  have hhead' : (host ++ M.colon :: port).head? ≠ some M.opening := by
    cases host with
    | nil => simpa using M.colon_ne_opening
    | cons x xs => simpa using hhead
  have hmem : ∀ c, c ∉ port → c ≠ M.colon → (c ∉ host ++ M.colon :: port ↔ c ∉ host) := by
    intro c hc hne
    simp [hc, hne]
  rw [splitHostPort]
  simp only [lastIndex_append hport.1, if_neg hhead', List.take_left]
  by_cases hcolon : M.colon ∈ host
  · rw [if_pos hcolon]
    exact ⟨fun h ↦ (nomatch h), fun h ↦ absurd hcolon h.1.1⟩
  rw [if_neg hcolon, finish_eq_ok, List.drop_zero, drop_append_cons,
    hmem _ hport.2.1 M.colon_ne_opening.symm, hmem _ hport.2.2 M.colon_ne_closing.symm]
  exact ⟨fun ⟨hopen, hclose, hr⟩ ↦ ⟨⟨hcolon, hopen, hclose⟩, hr⟩,
    fun ⟨hfree, hr⟩ ↦ ⟨hfree.2.1, hfree.2.2, hr⟩⟩

/-- The other bracket has to be the last character of the host. -/
theorem splitHostPort_of_closing (hport : M.Free port) {inner rest : List α}
    (hinner : M.closing ∉ inner) :
    splitHostPort M (M.opening :: inner ++ M.closing :: (rest ++ M.colon :: port)) = .ok r ↔
      rest = [] ∧ M.opening ∉ inner ∧ r = (inner, port) := by
  have hnot : M.closing ∉ M.opening :: inner := by
    rw [List.mem_cons, not_or]
    exact ⟨M.opening_ne_closing.symm, hinner⟩
  have hindex := index_append hnot (rest ++ M.colon :: port)
  have hlast := lastIndex_append hport.1 (M.opening :: inner ++ M.closing :: rest)
  rw [List.append_assoc, List.cons_append (a := M.closing)] at hlast
  set text := M.opening :: inner ++ M.closing :: (rest ++ M.colon :: port) with htext
  have hhead : text.head? = some M.opening := rfl
  have hlen : (M.opening :: inner).length + 1 ≠ text.length := by
    rw [htext, List.length_append, List.length_cons (a := M.closing), List.length_append,
      List.length_cons (a := M.colon)]
    omega
  rw [splitHostPort]
  simp only [hlast, if_pos hhead, hindex, if_neg hlen]
  cases rest with
  | cons x rest =>
    rw [if_neg (by simp)]
    refine ⟨fun h ↦ ?_, fun h ↦ (nomatch h.1)⟩
    split at h
    all_goals cases h
  | nil =>
    rw [if_pos (by simp), finish_eq_ok]
    have hbefore : M.opening ∉ text.drop 1 ↔ M.opening ∉ inner := by
      simp [htext, hport.2.1, M.opening_ne_closing, M.colon_ne_opening.symm]
    have hafter : M.closing ∉ text.drop ((M.opening :: inner).length + 1) := by
      rw [htext, drop_append_cons]
      simp [hport.2.2, M.colon_ne_closing.symm]
    have hhost : (text.take (M.opening :: inner).length).drop 1 = inner := by
      rw [htext, List.take_left, List.drop_one, List.tail_cons]
    have hrest : text.drop ((M.opening :: inner ++ [M.closing]).length + 1) = port := by
      have happ := List.append_cons (M.opening :: inner) M.closing (M.colon :: port)
      rw [htext, List.nil_append, happ, drop_append_cons]
    rw [hbefore, hhost, hrest]
    exact ⟨fun h ↦ ⟨rfl, h.1, h.2.2⟩, fun h ↦ ⟨h.2.1, hafter, h.2.2⟩⟩

/-- A host that begins with a bracket comes back without its brackets, if the other bracket is its
last character and there is no bracket between. -/
theorem splitHostPort_bracket (hport : M.Free port) :
    splitHostPort M (M.opening :: host ++ M.colon :: port) = .ok r ↔
      ∃ inner, host = inner ++ [M.closing] ∧ M.opening ∉ inner ∧ M.closing ∉ inner ∧
        r = (inner, port) := by
  by_cases hclose : M.closing ∈ host
  · obtain ⟨inner, rest, rfl, hinner⟩ := List.eq_append_cons_of_mem hclose
    rw [← List.cons_append, List.append_assoc, List.cons_append (a := M.closing),
      splitHostPort_of_closing hport hinner]
    refine ⟨?_, ?_⟩
    · rintro ⟨rfl, hopen, hr⟩
      exact ⟨inner, rfl, hopen, hinner, hr⟩
    · rintro ⟨inner', heq, hopen, hinner', hr⟩
      obtain ⟨rfl, rfl⟩ := append_cons_inj hinner hinner' heq
      exact ⟨rfl, hopen, hr⟩
  · have hlast := lastIndex_append hport.1 (M.opening :: host)
    have hnone : index M.closing (M.opening :: host ++ M.colon :: port) = none := by
      apply index_eq_none
      simp [hclose, hport.2.2, M.opening_ne_closing.symm, M.colon_ne_closing.symm]
    have hhead : (M.opening :: host ++ M.colon :: port).head? = some M.opening := rfl
    rw [splitHostPort]
    simp only [hlast, if_pos hhead, hnone]
    refine ⟨fun h ↦ (nomatch h), ?_⟩
    rintro ⟨inner, rfl, -⟩
    exact absurd (List.mem_append_right _ (List.mem_singleton_self _)) hclose

/-- **What `SplitHostPort` makes of a host and a port.** -/
theorem splitHostPort_append (hport : M.Free port) :
    splitHostPort M (host ++ M.colon :: port) = .ok r ↔
      (M.Free host ∧ r = (host, port)) ∨
      ∃ inner, host = M.opening :: inner ++ [M.closing] ∧ M.opening ∉ inner ∧ M.closing ∉ inner ∧
        r = (inner, port) := by
  by_cases hhead : host.head? = some M.opening
  · obtain ⟨host, rfl⟩ := List.head?_eq_some_iff.mp hhead
    rw [splitHostPort_bracket hport]
    refine ⟨fun ⟨inner, h⟩ ↦ .inr ⟨inner, by rw [h.1, List.cons_append], h.2⟩, ?_⟩
    rintro (⟨hfree, -⟩ | ⟨inner, heq, h⟩)
    · exact absurd (List.mem_cons_self ..) hfree.2.1
    · exact ⟨inner, List.cons_injective heq, h⟩
  · rw [splitHostPort_bare hport hhead]
    refine ⟨.inl, ?_⟩
    rintro (h | ⟨inner, rfl, -⟩)
    · exact h
    · exact absurd rfl hhead

/-! ## What is accepted -/

variable (M) in
/-- A host: it has no mark in it, or it stands in brackets and has no bracket inside. -/
def IsHost (host : List α) : Prop :=
  M.Free host ∨
    ∃ inner, host = M.opening :: inner ++ [M.closing] ∧ M.opening ∉ inner ∧ M.closing ∉ inner

omit [DecidableEq α] in
/-- A mark that is in a text stands somewhere last. -/
theorem exists_last_of_mem (h : c ∈ xs) :
    ∃ ys zs, xs = ys ++ c :: zs ∧ c ∉ zs := by
  obtain ⟨zs, ys, heq, hzs⟩ := List.eq_append_cons_of_mem (List.mem_reverse.mpr h)
  refine ⟨ys.reverse, zs.reverse, ?_, fun hmem ↦ hzs (List.mem_reverse.mp hmem)⟩
  rw [← List.reverse_reverse xs, heq, List.reverse_append, List.reverse_cons, List.append_assoc,
    List.singleton_append]

/-- The port has no mark in it either. -/
theorem free_port (hcolon : M.colon ∉ port)
    (h : splitHostPort M (host ++ M.colon :: port) = .ok r) : M.Free port := by
  have hmem : ∀ {c j}, c ∈ port → j ≤ host.length → c ∈ (host ++ M.colon :: port).drop j := by
    intro c j hc hj
    rw [List.drop_append_of_le_length hj]
    exact List.mem_append_right _ (List.mem_cons_of_mem _ hc)
  rw [splitHostPort] at h
  simp only [lastIndex_append hcolon] at h
  split at h
  · split at h
    · cases h
    · rename_i stop _
      split at h
      · cases h
      split at h
      · rename_i hstop
        obtain ⟨hopen, hclose, -⟩ := finish_eq_ok.mp h
        exact ⟨hcolon, fun hc ↦ hopen (hmem hc (by omega)), fun hc ↦ hclose (hmem hc (by omega))⟩
      · split at h
        all_goals cases h
  · split at h
    · cases h
    · obtain ⟨hopen, hclose, -⟩ := finish_eq_ok.mp h
      exact ⟨hcolon, fun hc ↦ hopen (hmem hc (Nat.zero_le _)),
        fun hc ↦ hclose (hmem hc (Nat.zero_le _))⟩

/-- A host and a port are accepted exactly if the host is one. -/
theorem exists_splitHostPort_append (hport : M.Free port) :
    (∃ r, splitHostPort M (host ++ M.colon :: port) = .ok r) ↔ IsHost M host := by
  refine ⟨?_, ?_⟩
  · rintro ⟨r, h⟩
    rcases (splitHostPort_append hport).mp h with ⟨hfree, -⟩ | ⟨inner, heq, hopen, hclose, -⟩
    · exact .inl hfree
    · exact .inr ⟨inner, heq, hopen, hclose⟩
  · rintro (hfree | ⟨inner, heq, hopen, hclose⟩)
    · exact ⟨_, (splitHostPort_append hport).mpr (.inl ⟨hfree, rfl⟩)⟩
    · exact ⟨_, (splitHostPort_append hport).mpr (.inr ⟨inner, heq, hopen, hclose, rfl⟩)⟩

/-- **What `SplitHostPort` accepts**: a host, a colon, and a port without marks. -/
theorem exists_splitHostPort_iff {hostport : List α} :
    (∃ r, splitHostPort M hostport = .ok r) ↔
      ∃ host port, hostport = host ++ M.colon :: port ∧ IsHost M host ∧ M.Free port := by
  refine ⟨?_, ?_⟩
  · rintro ⟨r, h⟩
    by_cases hmem : M.colon ∈ hostport
    · obtain ⟨host, port, rfl, hcolon⟩ := exists_last_of_mem hmem
      have hport := free_port hcolon h
      exact ⟨host, port, rfl, (exists_splitHostPort_append hport).mp ⟨r, h⟩, hport⟩
    · rw [splitHostPort, lastIndex_eq_none hmem] at h
      cases h
  · rintro ⟨host, port, rfl, hhost, hport⟩
    exact (exists_splitHostPort_append hport).mpr hhost

end HostPort
