import Playback.Decimal.Shortest

/-!
# JSON values

A value keeps what its text says and no more: a number is kept as its digits, so that each reader decides
what it makes of them, and the entries of an object are kept in order with repetitions. A string may
contain an unpaired surrogate escape: such a text is legal where nobody reads it, but it denotes no
string, hence `none` for its content.
-/

namespace Playback

/-- A number as it is written: an optional sign, whole digits, fraction digits (none if there is no
point) and an exponent. -/
structure Json.Number where
  negative : Bool
  whole : List Nat
  fraction : List Nat
  exponent : Option Int
deriving Repr, DecidableEq, Inhabited

/-- A JSON value. -/
inductive Json where
  | null
  | bool (value : Bool)
  | number (value : Json.Number)
  | string (content : Option String)
  | array (items : List Json)
  | object (entries : List (Option String × Json))
deriving Repr, Inhabited

namespace Json

open Decimal (digitsOf ofDigits)

/-- An integer as a JSON number. -/
def Number.ofInt (i : Int) : Number :=
  ⟨i < 0, digitsOf i.natAbs, [], none⟩

/-- The text as a JSON string. -/
def text (s : String) : Json :=
  .string (some s)

/-- An integer value. -/
def int (i : Int) : Json :=
  .number (.ofInt i)

/-- An object from its entries. -/
def record (entries : List (String × Json)) : Json :=
  .object (entries.map fun (name, value) => (some name, value))

/-- The value of the first entry with this name. -/
def lookup (name : String) (entries : List (Option String × Json)) : Option Json :=
  (entries.find? fun entry => entry.1 == some name).map (·.2)

/-- The entry of an object with this name. -/
def get? (name : String) : Json → Option Json
  | object entries => lookup name entries
  | _ => none

/-- The elements of an array; other values have none. -/
def items : Json → List Json
  | array items => items
  | _ => []

/-- Whether the value is an integer without point and exponent, and which one. A written `-0` is no
integer. -/
def Number.toInt? (n : Number) : Option Int :=
  if n.fraction ≠ [] ∨ n.exponent.isSome then none
  else
    let magnitude := ofDigits n.whole
    if n.negative then (if magnitude = 0 then none else some (-magnitude)) else some magnitude

end Json
end Playback
