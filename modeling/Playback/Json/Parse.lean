import Playback.Json.Value
import Playback.Text.Hex

/-!
# Reading JSON texts

`parse?` accepts exactly the texts of one JSON value with blanks around it. Each scanner takes the
remaining characters and returns what it read together with what is left; values inside values are
bounded by the length of the text, since every nested value is at least one character shorter.
-/

namespace Playback.Json

/-- The four characters that may stand between tokens. -/
def isBlank (c : Char) : Bool :=
  c = ' ' || c = '\n' || c = '\t' || c = '\r'

def skipBlank (cs : List Char) : List Char :=
  cs.dropWhile isBlank

/-- Four hexadecimal digits as a number. -/
def hexUnit? (a b c d : Char) : Option Nat := do
  return 4096 * (← Text.Hex.digit? a) + 256 * (← Text.Hex.digit? b) + 16 * (← Text.Hex.digit? c) + (← Text.Hex.digit? d)

/-- The character of a backslash escape of one letter. -/
def shortEscape? : Char → Option Char
  | '"' => some '"'
  | '\\' => some '\\'
  | '/' => some '/'
  | 'b' => some (Char.ofNat 8)
  | 'f' => some (Char.ofNat 12)
  | 'n' => some '\n'
  | 'r' => some '\r'
  | 't' => some '\t'
  | _ => none

/-- One element of a string: a character, or one 16-bit unit that was escaped. -/
inductive StringUnit where
  | char (c : Char)
  | unit (n : Nat)
deriving Repr

/-- The elements of a string up to the closing quote, and what follows it. Control characters must be
escaped. -/
def stringUnits? : List Char → Option (List StringUnit × List Char)
  | [] => none
  | '"' :: rest => some ([], rest)
  | '\\' :: 'u' :: a :: b :: c :: d :: rest => do
    let n ← hexUnit? a b c d
    let (units, left) ← stringUnits? rest
    return (.unit n :: units, left)
  | '\\' :: e :: rest => do
    let c ← shortEscape? e
    let (units, left) ← stringUnits? rest
    return (.char c :: units, left)
  | c :: rest =>
    if c.toNat < 32 ∨ c = '\\' then none
    else do
      let (units, left) ← stringUnits? rest
      return (.char c :: units, left)

/-- The characters that the elements stand for; a surrogate must be half of a pair. -/
def joinUnits? : List StringUnit → Option (List Char)
  | [] => some []
  | .char c :: rest => do return c :: (← joinUnits? rest)
  | .unit n :: rest =>
    if n < 0xD800 ∨ 0xDFFF < n then do return Char.ofNat n :: (← joinUnits? rest)
    else
      match rest with
      | .unit m :: rest =>
        if n ≤ 0xDBFF ∧ 0xDC00 ≤ m ∧ m ≤ 0xDFFF then do
          return Char.ofNat (0x10000 + (n - 0xD800) * 0x400 + (m - 0xDC00)) :: (← joinUnits? rest)
        else none
      | _ => none

/-- A string after its opening quote. -/
def string? (cs : List Char) : Option (Option String × List Char) := do
  let (units, rest) ← stringUnits? cs
  return ((joinUnits? units).map String.ofList, rest)

/-- The digits at the front. -/
def spanDigits : List Char → List Nat × List Char
  | [] => ([], [])
  | c :: rest =>
    if '0' ≤ c ∧ c ≤ '9' then
      let (ds, left) := spanDigits rest
      ((c.toNat - '0'.toNat) :: ds, left)
    else ([], c :: rest)

/-- The fraction of a number, if there is a point; at least one digit must follow it. -/
def fraction? : List Char → Option (List Nat × List Char)
  | '.' :: rest =>
    match spanDigits rest with
    | ([], _) => none
    | (ds, left) => some (ds, left)
  | rest => some ([], rest)

/-- An unsigned or signed exponent after its letter. -/
def signedDigits? (cs : List Char) : Option (Int × List Char) :=
  let (sign, rest) : Int × List Char :=
    match cs with
    | '+' :: rest => (1, rest)
    | '-' :: rest => (-1, rest)
    | rest => (1, rest)
  match spanDigits rest with
  | ([], _) => none
  | (ds, left) => some (sign * Decimal.ofDigits ds, left)

/-- The exponent of a number, if there is one. -/
def exponent? (cs : List Char) : Option (Option Int × List Char) :=
  match cs with
  | 'e' :: rest | 'E' :: rest => do
    let (e, left) ← signedDigits? rest
    return (some e, left)
  | rest => some (none, rest)

/-- A number: whole digits without a leading zero, then fraction and exponent. -/
def number? (cs : List Char) : Option (Number × List Char) := do
  let (negative, cs) :=
    match cs with
    | '-' :: rest => (true, rest)
    | rest => (false, rest)
  let (whole, rest) := spanDigits cs
  if whole = [] ∨ (whole.length > 1 ∧ whole.head? = some 0) then none
  else
    let (fraction, rest) ← fraction? rest
    let (exponent, rest) ← exponent? rest
    return (⟨negative, whole, fraction, exponent⟩, rest)

mutual

/-- A value after blanks, nested at most `depth` levels. -/
def value? (depth : Nat) (cs : List Char) : Option (Json × List Char) :=
  match depth with
  | 0 => none
  | depth + 1 =>
    match skipBlank cs with
    | 'n' :: 'u' :: 'l' :: 'l' :: rest => some (.null, rest)
    | 't' :: 'r' :: 'u' :: 'e' :: rest => some (.bool true, rest)
    | 'f' :: 'a' :: 'l' :: 's' :: 'e' :: rest => some (.bool false, rest)
    | '"' :: rest => do
      let (content, left) ← string? rest
      return (.string content, left)
    | '[' :: rest =>
      match skipBlank rest with
      | ']' :: left => some (.array [], left)
      | rest => do
        let (items, left) ← items? depth rest
        return (.array items, left)
    | '\x7b' :: rest =>
      match skipBlank rest with
      | '\x7d' :: left => some (.object [], left)
      | rest => do
        let (entries, left) ← entries? depth rest
        return (.object entries, left)
    | rest => do
      let (n, left) ← number? rest
      return (.number n, left)

/-- One or more items with commas between them and a closing bracket. -/
def items? (depth : Nat) (cs : List Char) : Option (List Json × List Char) :=
  match depth with
  | 0 => none
  | depth + 1 => do
    let (item, rest) ← value? depth cs
    match skipBlank rest with
    | ']' :: left => return ([item], left)
    | ',' :: rest =>
      let (items, left) ← items? depth rest
      return (item :: items, left)
    | _ => none

/-- One or more entries with commas between them and a closing brace. -/
def entries? (depth : Nat) (cs : List Char) : Option (List (Option String × Json) × List Char) :=
  match depth with
  | 0 => none
  | depth + 1 =>
    match skipBlank cs with
    | '"' :: rest => do
      let (name, rest) ← string? rest
      match skipBlank rest with
      | ':' :: rest =>
        let (value, rest) ← value? depth rest
        match skipBlank rest with
        | '\x7d' :: left => return ([(name, value)], left)
        | ',' :: rest =>
          let (entries, left) ← entries? depth rest
          return ((name, value) :: entries, left)
        | _ => none
      | _ => none
    | _ => none

end

/-- The value of a text, if the text is one JSON value and nothing else. -/
def parse? (text : String) : Option Json := do
  let cs := text.toList
  let (value, rest) ← value? (2 * cs.length + 2) cs
  if skipBlank rest = [] then some value else none

end Playback.Json
