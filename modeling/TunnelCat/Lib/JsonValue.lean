import Mathlib.Algebra.Order.Ring.Rat
import TunnelCat.Lib.Json

/-!
# What `json.Unmarshal` makes of a JSON text

Whether bytes are JSON text, and which, is a matter of syntax that is left to the caller; the value
they denote is a `Json.Value`.  Here is what Go's `encoding/json` does with such a value when it is
asked to store it in a variable of a given type.

* A map takes an object, and of several entries with one key the last one.  It also takes `null`,
  which leaves it empty.
* With `json.RawMessage` as the type of the entries these are not looked at.  With `interface{}`
  they are converted, and that fails if there is a number in them, however deep, which is too large
  for a `float64`.
* The field of a structure is found by its name regardless of case.  An entry of the wrong type is
  an error, `null` leaves the field alone.
-/

set_option autoImplicit false

namespace Json

/-- A JSON value.  The entries of an object are in the order of the text, and keys can be
repeated. -/
inductive Value where
  /-- The literal `null`. -/
  | null
  /-- A truth value. -/
  | bool (b : Bool)
  /-- A number, as the literal has it. -/
  | num (q : ℚ)
  /-- A string, with its escapes resolved. -/
  | str (s : String)
  /-- An array. -/
  | arr (vs : List Value)
  /-- An object. -/
  | obj (fields : List (String × Value))

/-- Rounded to the nearest `float64`, the number is finite. -/
def fitsFloat64 (q : ℚ) : Bool := |q| < 2 ^ 1024 - 2 ^ 970

namespace Value

mutual

/-- No number in the value is too large for a `float64`. -/
def representable : Value → Bool
  | null => true
  | bool _ => true
  | num q => fitsFloat64 q
  | str _ => true
  | arr vs => representableAll vs
  | obj fields => representableFields fields

/-- No number in one of the values is too large. -/
def representableAll : List Value → Bool
  | [] => true
  | v :: vs => v.representable && representableAll vs

/-- No number in one of the entries is too large. -/
def representableFields : List (String × Value) → Bool
  | [] => true
  | (_, v) :: fields => v.representable && representableFields fields

end

/-- The value as a `map[string]json.RawMessage`. -/
def rawMap : Value → Option (List (String × Value))
  | null => some []
  | obj fields => some fields
  | _ => none

/-- The value as a `map[string]interface{}`. -/
def anyMap (v : Value) : Option (List (String × Value)) :=
  if v.representable then v.rawMap else none

/-- The value as a string. -/
def string? : Value → Option String
  | str s => some s
  | _ => none

end Value

/-- The entry of a map. -/
def entry (fields : List (String × Value)) (key : String) : Option Value :=
  fields.reverse.lookup key

/-- A character up to case.  Two characters beyond ASCII fold to letters of ASCII. -/
def foldRune (c : Char) : Char :=
  if c.toNat = 0x17F then 'S' else if c.toNat = 0x212A then 'K' else c.toUpper

/-- The names are equal up to case. -/
def equalFold (s t : String) : Bool := s.toList.map foldRune = t.toList.map foldRune

/-- The field of type `bool` of a structure, which is `false` before; `none` is an error. -/
def boolField (name : String) (fields : List (String × Value)) : Option Bool :=
  fields.foldl (fun b f ↦
    if equalFold f.1 name then
      match f.2 with
      | .bool b' => b.map fun _ ↦ b'
      | .null => b
      | _ => none
    else b) (some false)

/-- The field of type `string` of a structure, which is empty before; `none` is an error. -/
def stringField (name : String) (fields : List (String × Value)) : Option String :=
  fields.foldl (fun s f ↦
    if equalFold f.1 name then
      match f.2 with
      | .str s' => s.map fun _ ↦ s'
      | .null => s
      | _ => none
    else s) (some "")

end Json
