import TunnelCat.Lib.Bytes
import TunnelCat.Lib.JsonValue
import TunnelCat.Lib.Reader

/-!
# A stream of a para-exit

An exit sends traffic back through a client: it opens a stream, writes one line of JSON with the
target, and then whatever the target is to get.  `handleStream` takes the line from a single `Read`
into a buffer of 256 bytes, dials the target, and copies what it reads from then on.

Nothing says that this `Read` returns the line and nothing else.  What it returns after the newline
is thrown away; if it returns less, the line is not JSON yet, or the rest of the line goes to the
target.  `transparent_iff` makes this exact: a target that does not end the connection before gets
what follows the line if and only if the first read returns the line with its newline, and nothing
more.  `not_transparent` has one stream in three ways of cutting it, each of which goes wrong in its
own way.

`json.Unmarshal` is given by the parser of the text; what it makes of the value is
`Json.stringField`.  The stream from the target back to the exit is left out, but it can end the
connection before everything is copied: the number of reads that are copied is an argument.
-/

set_option autoImplicit false

open Bytes

namespace TunnelCat.ParaExit

/-- What reaches the client on a stream. -/
structure Stream where
  /-- The pieces in which it comes. -/
  pieces : List Bytes
  /-- The first of them comes before the deadline of the first `Read`. -/
  inTime : Bool
  deriving DecidableEq, Repr

/-- What `handleStream` has done when it returns. -/
inductive Handled where
  /-- The first `Read` failed or returned nothing. -/
  | readFails
  /-- `bad stream header`. -/
  | badHeader
  /-- The target was dialled and not reached. -/
  | dialFails (target : String)
  /-- The target was dialled, and these bytes were written to it. -/
  | proxied (target : String) (up : Bytes)
  deriving DecidableEq, Repr

/-- The newline. -/
def newline : UInt8 := 10

/-- The length of `hdrBuf`. -/
def hdrLen : ℕ := 256

/-- The length of the buffer of `io.Copy`. -/
def copyLen : ℕ := 32768

variable (parse : Bytes → Option Json.Value) (dial : String → Bool)

/-- `parseFirstJSON` for a structure with the field `Target`; `none` is an error. -/
def parseFirstJSON (buf : Bytes) : Option String :=
  match parse (buf.takeWhile (· ≠ newline)) with
  | some (.obj fields) => Json.stringField "target" fields
  | some .null => some ""
  | _ => none

/-- `handleStream`, which copies `n` reads to the target if there are so many. -/
def handleStream (n : ℕ) (s : Stream) : Handled :=
  match (if s.inTime then Reader.read hdrLen s.pieces else none) with
  | none | some ([], _) => .readFails
  | some (buf, rest) =>
    match parseFirstJSON parse buf with
    | none | some "" => .badHeader
    | some target =>
      if dial target then .proxied target (Reader.copy copyLen n rest) else .dialFails target

/-- The target does not end the connection before `n` reads, and these copy all that the first read
has left. -/
def Stream.Copied (n : ℕ) (s : Stream) : Prop :=
  ∀ buf rest, Reader.read hdrLen s.pieces = some (buf, rest) →
    Reader.copy copyLen n rest = rest.flatten

/-- A dispatch header: an object with a target, on one line that fits into the buffer. -/
structure IsHeader (header : Bytes) (target : String) : Prop where
  /-- It is an object with this target. -/
  parsed : ∃ fields, parse header = some (.obj fields) ∧
    Json.stringField "target" fields = some target
  /-- The target is not empty. -/
  target_ne : target ≠ ""
  /-- It is one line. -/
  oneLine : newline ∉ header
  /-- It fits with its newline. -/
  length_lt : header.length < hdrLen

variable {parse dial} {header payload : Bytes} {target : String}

theorem takeWhile_line (h : newline ∉ header) (rest : Bytes) :
    (header ++ newline :: rest).takeWhile (· ≠ newline) = header := by
  rw [List.takeWhile_append_of_pos, List.takeWhile_cons_of_neg, List.append_nil]
  · simp
  · intro b hb
    exact decide_eq_true fun heq : b = newline ↦ h (heq ▸ hb)

theorem parseFirstJSON_line (h : IsHeader parse header target) (rest : Bytes) :
    parseFirstJSON parse (header ++ newline :: rest) = some target := by
  obtain ⟨fields, hparse, htarget⟩ := h.parsed
  rw [parseFirstJSON, takeWhile_line h.oneLine, hparse]
  exact htarget

variable {s : Stream} {n : ℕ}

/-- A first read with the whole line in it. -/
theorem handleStream_line (h : IsHeader parse header target) (hdial : dial target = true)
    (hin : s.inTime = true) {rest : Bytes} {pieces : List Bytes}
    (hread : Reader.read hdrLen s.pieces = some (header ++ newline :: rest, pieces)) :
    handleStream parse dial n s = .proxied target (Reader.copy copyLen n pieces) := by
  obtain ⟨b, buf, hbuf⟩ : ∃ b buf, header ++ newline :: rest = b :: buf :=
    List.exists_cons_of_ne_nil (List.append_ne_nil_of_right_ne_nil _ (List.cons_ne_nil _ _))
  have hparse := parseFirstJSON_line h rest
  rw [hbuf] at hparse hread
  rw [handleStream, if_pos hin, hread]
  simp only [hparse]
  split
  · rename_i heq
    exact absurd heq (Option.some_ne_none target)
  · rename_i heq
    exact absurd (Option.some_inj.mp heq) h.target_ne
  · rename_i heq
    rw [Option.some_inj] at heq
    rw [← heq, if_pos hdial]

/-- What is written to a target is copied from what the first read has left. -/
theorem of_handleStream_eq_proxied {up : Bytes}
    (h : handleStream parse dial n s = .proxied target up) :
    s.inTime = true ∧ ∃ buf pieces, Reader.read hdrLen s.pieces = some (buf, pieces) ∧
      up = Reader.copy copyLen n pieces := by
  rw [handleStream] at h
  split at h
  · exact absurd h (by simp)
  · exact absurd h (by simp)
  · rename_i buf pieces _ hread
    split at hread
    · rename_i hin
      refine ⟨hin, buf, pieces, hread, ?_⟩
      split at h
      · exact absurd h (by simp)
      · exact absurd h (by simp)
      · split at h
        · rw [Handled.proxied.injEq] at h
          exact h.2.symm
        · exact absurd h (by simp)
    · exact absurd hread (Option.some_ne_none _).symm

/-- What a read of the line leaves is the payload. -/
theorem flatten_of_read_line (hs : s.pieces.flatten = header ++ newline :: payload)
    {pieces : List Bytes}
    (hread : Reader.read hdrLen s.pieces = some (header ++ [newline], pieces)) :
    pieces.flatten = payload := by
  have hsplit := hs.symm.trans (Reader.flatten_of_read hread)
  rw [List.append_assoc, List.singleton_append] at hsplit
  exact (List.cons.inj (List.append_cancel_left hsplit)).2.symm

/-- If the payload is what was copied in the end, the line was what was read. -/
theorem read_eq_line_of_handleStream (hs : s.pieces.flatten = header ++ newline :: payload)
    (hn : s.Copied n) (h : handleStream parse dial n s = .proxied target payload) :
    s.inTime = true ∧ (Reader.read hdrLen s.pieces).map Prod.fst = some (header ++ [newline]) := by
  obtain ⟨hin, buf, pieces, hread, hup⟩ := of_handleStream_eq_proxied h
  rw [hn buf pieces hread] at hup
  -- What was read and the payload are the stream, and so are the line and the payload.
  have hsplit : buf ++ payload = (header ++ [newline]) ++ payload := by
    rw [hup, ← Reader.flatten_of_read hread, hs, ← hup, List.append_assoc, List.singleton_append]
  exact ⟨hin, by rw [hread, Option.map_some, List.append_cancel_right hsplit]⟩

/-- **The target gets what follows the line**, if it does not end the connection before all is
copied, exactly if the first read returns the line with its newline and nothing more.  After some
number of reads all is copied. -/
theorem transparent_iff (h : IsHeader parse header target) (hdial : dial target = true)
    (hs : s.pieces.flatten = header ++ newline :: payload) :
    (∀ n, s.Copied n → (handleStream parse dial n s = .proxied target payload ↔
      s.inTime = true ∧
        (Reader.read hdrLen s.pieces).map Prod.fst = some (header ++ [newline]))) ∧
    ∃ N, ∀ n ≥ N, s.Copied n := by
  refine ⟨fun n hn ↦ ⟨read_eq_line_of_handleStream hs hn, fun ⟨hin, hfirst⟩ ↦ ?_⟩,
    Reader.weight s.pieces, fun n hn buf rest hread ↦ ?_⟩
  · obtain ⟨⟨buf, pieces⟩, hread, rfl⟩ := Option.map_eq_some_iff.mp hfirst
    rw [handleStream_line h hdial hin hread, hn _ _ hread, flatten_of_read_line hs hread]
  · exact Reader.copy_eq_flatten (by decide)
      ((Reader.weight_of_read (by decide) hread).le.trans hn)

/-! ## One stream, cut in several ways -/

/-- The text `{"target":"a:1"}`. -/
def demoHeader : Bytes :=
  [0x7b, 0x22, 0x74, 0x61, 0x72, 0x67, 0x65, 0x74, 0x22, 0x3a, 0x22, 0x61, 0x3a, 0x31, 0x22, 0x7d]

/-- A parser that knows this text. -/
def demoParse (text : Bytes) : Option Json.Value :=
  if text = demoHeader then some (.obj [("target", .str "a:1")]) else none

theorem isHeader_demo : IsHeader demoParse demoHeader "a:1" :=
  ⟨⟨_, rfl, rfl⟩, by decide, by decide, by decide⟩

/-- The line in a piece of its own: the target gets the two bytes that follow, unless it ends the
connection before they are read. -/
theorem transparent_iff_demo :
    (∀ n ≥ 1, handleStream demoParse (fun _ ↦ true) n
      ⟨[demoHeader ++ [newline], [1, 2]], true⟩ = .proxied "a:1" [1, 2]) ∧
    handleStream demoParse (fun _ ↦ true) 0
      ⟨[demoHeader ++ [newline], [1, 2]], true⟩ = .proxied "a:1" [] := by
  refine ⟨fun n hn ↦ ((transparent_iff isHeader_demo rfl rfl).1 n ?_).mpr ⟨rfl, rfl⟩, rfl⟩
  obtain ⟨m, rfl⟩ := Nat.exists_eq_add_of_le' hn
  intro buf rest hread
  have hrest : rest = [[1, 2]] := (Prod.mk.inj (Option.some_inj.mp hread)).2.symm
  rw [hrest]
  cases m with
  | _ => rfl

/-- **The same stream in other pieces**: what comes with the line is lost, a newline that comes
after it goes to the target, and a line that is cut is refused. -/
theorem not_transparent :
    (∀ n, handleStream demoParse (fun _ ↦ true) n ⟨[demoHeader ++ [newline, 1, 2]], true⟩ =
        .proxied "a:1" []) ∧
      (∀ n ≥ 1, handleStream demoParse (fun _ ↦ true) n ⟨[demoHeader, [newline, 1, 2]], true⟩ =
        .proxied "a:1" [newline, 1, 2]) ∧
      ∀ n, handleStream demoParse (fun _ ↦ true) n
        ⟨[demoHeader.take 8, demoHeader.drop 8 ++ [newline, 1, 2]], true⟩ = .badHeader := by
  refine ⟨fun n ↦ ?_, fun n hn ↦ ?_, fun n ↦ rfl⟩
  · cases n with
    | _ => rfl
  · obtain ⟨m, rfl⟩ := Nat.exists_eq_add_of_le' hn
    cases m with
    | _ => rfl

end TunnelCat.ParaExit
