import TunnelCat.Lib.Bytes

/-!
# JSON text

The text that `json.Marshal` of Go's `encoding/json` produces for the values programs put on the
wire: strings, integers, arrays, structures, and JSON text that is already there
(`json.RawMessage`).  It is as short as JSON gets, so it is a matter of concatenation, with two
peculiarities.  The characters `<`, `>` and `&` and the two Unicode line separators are escaped
wherever they stand, and a `json.RawMessage` is not copied but compacted: blanks outside of its
strings are dropped.

Nothing is parsed here.  Whether bytes are JSON text at all is for the caller to say.
-/

set_option autoImplicit false

namespace Json

/-- The UTF-8 bytes of a text. -/
def utf8 (s : String) : Bytes := s.toList.flatMap String.utf8EncodeChar

/-- A lower-case hexadecimal digit. -/
def hexDigit (n : ℕ) : UInt8 := UInt8.ofNat (if n < 10 then 48 + n else 87 + n)

/-- The escape `\u00xx` of a byte. -/
def hexEscape (b : UInt8) : Bytes :=
  utf8 "\\u00" ++ [hexDigit (b.toNat / 16), hexDigit (b.toNat % 16)]

/-- The bytes `json.Marshal` writes for a character of a string. -/
def escape (c : Char) : Bytes :=
  if c = '"' ∨ c = '\\' then 92 :: String.utf8EncodeChar c
  else if c = '\x08' then utf8 "\\b"
  else if c = '\x0c' then utf8 "\\f"
  else if c = '\n' then utf8 "\\n"
  else if c = '\r' then utf8 "\\r"
  else if c = '\t' then utf8 "\\t"
  else if c.toNat < 32 ∨ c = '<' ∨ c = '>' ∨ c = '&' then hexEscape (UInt8.ofNat c.toNat)
  else if c.toNat = 0x2028 then utf8 "\\u2028"
  else if c.toNat = 0x2029 then utf8 "\\u2029"
  else String.utf8EncodeChar c

/-- A string. -/
def str (s : String) : Bytes := 34 :: (s.toList.flatMap escape ++ [34])

/-- An integer. -/
def int (i : ℤ) : Bytes := utf8 (toString i)

/-- Texts with commas between them. -/
def commaSep : List Bytes → Bytes
  | [] => []
  | [t] => t
  | t :: ts => t ++ 44 :: commaSep ts

/-- An array. -/
def array (ts : List Bytes) : Bytes := 91 :: (commaSep ts ++ [93])

/-- A structure, given by the names and the texts of its fields. -/
def object (fields : List (String × Bytes)) : Bytes :=
  123 :: (commaSep (fields.map fun f ↦ str f.1 ++ 58 :: f.2) ++ [125])

/-! ## Compacting -/

/-- Where a scanner of JSON text is. -/
inductive Scan where
  /-- Outside of a string. -/
  | outside
  /-- In a string. -/
  | inside
  /-- In a string, after a backslash. -/
  | escaped
deriving DecidableEq, Repr

/-- The scanner after one more byte. -/
def Scan.next : Scan → UInt8 → Scan
  | .outside, b => if b = 34 then .inside else .outside
  | .inside, b => if b = 34 then .outside else if b = 92 then .escaped else .inside
  | .escaped, _ => .inside

/-- A blank between the tokens of JSON text. -/
def isSpace (b : UInt8) : Bool := b = 32 ∨ b = 9 ∨ b = 13 ∨ b = 10

/-- What `json.Marshal` makes of JSON text in a `json.RawMessage`.  `skip` counts the bytes of a
line separator that are still to come. -/
def compact : ℕ → Scan → Bytes → Bytes
  | _, _, [] => []
  | skip + 1, st, b :: bs => compact skip (st.next b) bs
  | 0, st, b :: bs =>
    if b = 60 ∨ b = 62 ∨ b = 38 then hexEscape b ++ compact 0 (st.next b) bs
    else if b = 0xE2 ∧ bs[0]? = some 0x80 ∧ (bs[1]? = some 0xA8 ∨ bs[1]? = some 0xA9) then
      utf8 (if bs[1]? = some 0xA8 then "\\u2028" else "\\u2029") ++ compact 2 (st.next b) bs
    else if st = .outside ∧ isSpace b = true then compact 0 (st.next b) bs
    else b :: compact 0 (st.next b) bs

/-- A `json.RawMessage`. -/
def raw (text : Bytes) : Bytes := compact 0 .outside text

example : raw (utf8 "[ \"a b\" , [1, \"<\\\" \"] ]") = utf8 "[\"a b\",[1,\"\\u003c\\\" \"]]" := by
  decide +kernel

/-! ## Lengths -/

/-- How many bytes an array has apart from its brackets. -/
theorem length_commaSep (ts : List Bytes) :
    (commaSep ts).length = (ts.map List.length).sum + (ts.length - 1) := by
  induction ts with
  | nil => rfl
  | cons t ts ih =>
    cases ts with
    | nil => simp [commaSep]
    | cons u us =>
      rw [commaSep, List.length_append, List.length_cons, ih]
      · simp only [List.map_cons, List.sum_cons, List.length_cons]
        omega
      · simp

theorem length_array (ts : List Bytes) :
    (array ts).length = (ts.map List.length).sum + (ts.length - 1) + 2 := by
  rw [array, List.length_cons, List.length_append, length_commaSep, List.length_singleton]

/-- Compacting drops nothing but blanks. -/
theorem countP_le_length_compact (skip : ℕ) (st : Scan) (bs : Bytes) :
    bs.countP (fun b ↦ !isSpace b) ≤ (compact skip st bs).length + skip := by
  induction bs generalizing skip st with
  | nil => exact Nat.zero_le _
  | cons b bs ih =>
    have hle : (b :: bs).countP (fun b ↦ !isSpace b) ≤ bs.countP (fun b ↦ !isSpace b) + 1 := by
      rw [List.countP_cons]
      split <;> omega
    cases skip with
    | succ skip =>
      have := ih skip (st.next b)
      rw [compact]
      omega
    | zero =>
      have := ih 0 (st.next b)
      rw [compact]
      split
      · rw [List.length_append, hexEscape, List.length_append]
        simp only [List.length_cons]
        omega
      · split
        · have := ih 2 (st.next b)
          have hlen : (utf8 (if bs[1]? = some 0xA8 then "\\u2028" else "\\u2029")).length = 6 := by
            split <;> decide
          rw [List.length_append, hlen]
          omega
        · split
          · rename_i hblank
            rw [List.countP_cons_of_neg (by simp [hblank.2])]
            exact this
          · rw [List.length_cons]
            omega

theorem countP_le_length_raw (text : Bytes) :
    text.countP (fun b ↦ !isSpace b) ≤ (raw text).length :=
  countP_le_length_compact 0 .outside text

end Json
