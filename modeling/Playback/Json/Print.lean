import Playback.Decimal.Layout
import Playback.Json.Value

/-!
# Writing JSON texts

Two layouts are written: `compact` without blanks and `pretty` with one entry a line, two blanks per
level. Both write the entries of an object in their order and escape in strings only quotes, backslashes
and control characters.
-/

namespace Playback.Json

open Decimal (digitChars digitsOf)

/-- A lower-case hexadecimal digit. -/
def hexChar (n : Nat) : Char :=
  Nat.digitChar n

/-- How a character is written inside a string. -/
def escapeChar (c : Char) : List Char :=
  if c = '"' then ['\\', '"']
  else if c = '\\' then ['\\', '\\']
  else if c = '\n' then ['\\', 'n']
  else if c = '\r' then ['\\', 'r']
  else if c = '\t' then ['\\', 't']
  else if c.toNat = 8 then ['\\', 'b']
  else if c.toNat = 12 then ['\\', 'f']
  else if c.toNat < 32 then ['\\', 'u', '0', '0', hexChar (c.toNat / 16), hexChar (c.toNat % 16)]
  else [c]

/-- A string between quotes. -/
def quote (s : String) : List Char :=
  '"' :: s.toList.flatMap escapeChar ++ ['"']

/-- The text of a number, digit for digit; an exponent always has a sign. -/
def Number.write (n : Number) : List Char :=
  (if n.negative then ['-'] else []) ++ digitChars n.whole
    ++ (if n.fraction = [] then [] else '.' :: digitChars n.fraction)
    ++ (match n.exponent with
        | none => []
        | some e => 'e' :: (if e < 0 then '-' else '+') :: digitChars (digitsOf e.natAbs))

/-- A line break followed by the blanks of a level. -/
def newline (level : Nat) : List Char :=
  '\n' :: List.replicate (2 * level) ' '

/-- A string value or an entry's name; one without content is written as an empty string. -/
def quoteContent (s : Option String) : List Char :=
  quote (s.getD "")

mutual

/-- The text without blanks. -/
def compactChars : Json → List Char
  | .null => ['n', 'u', 'l', 'l']
  | .bool true => ['t', 'r', 'u', 'e']
  | .bool false => ['f', 'a', 'l', 's', 'e']
  | .number n => n.write
  | .string s => quoteContent s
  | .array items => '[' :: compactItems items ++ [']']
  | .object entries => '\x7b' :: compactEntries entries ++ ['\x7d']

/-- Items with commas between them. -/
def compactItems : List Json → List Char
  | [] => []
  | [item] => compactChars item
  | item :: items => compactChars item ++ ',' :: compactItems items

/-- Entries with commas between them. -/
def compactEntries : List (Option String × Json) → List Char
  | [] => []
  | [(name, value)] => quoteContent name ++ ':' :: compactChars value
  | (name, value) :: entries =>
    quoteContent name ++ ':' :: compactChars value ++ ',' :: compactEntries entries

end

mutual

/-- The text with one item or entry a line, at a level of indentation. -/
def prettyChars (level : Nat) : Json → List Char
  | .null => ['n', 'u', 'l', 'l']
  | .bool true => ['t', 'r', 'u', 'e']
  | .bool false => ['f', 'a', 'l', 's', 'e']
  | .number n => n.write
  | .string s => quoteContent s
  | .array [] => ['[', ']']
  | .array items => '[' :: prettyItems (level + 1) items ++ newline level ++ [']']
  | .object [] => ['\x7b', '\x7d']
  | .object entries => '\x7b' :: prettyEntries (level + 1) entries ++ newline level ++ ['\x7d']

/-- Items on lines of their own. -/
def prettyItems (level : Nat) : List Json → List Char
  | [] => []
  | [item] => newline level ++ prettyChars level item
  | item :: items => newline level ++ prettyChars level item ++ ',' :: prettyItems level items

/-- Entries on lines of their own. -/
def prettyEntries (level : Nat) : List (Option String × Json) → List Char
  | [] => []
  | [(name, value)] => newline level ++ quoteContent name ++ ':' :: ' ' :: prettyChars level value
  | (name, value) :: entries =>
    newline level ++ quoteContent name ++ ':' :: ' ' :: prettyChars level value
      ++ ',' :: prettyEntries level entries

end

/-- The value in one line. -/
def compact (value : Json) : String :=
  String.ofList (compactChars value)

/-- The value over several lines. -/
def pretty (value : Json) : String :=
  String.ofList (prettyChars 0 value)

end Playback.Json
