/-!
# Hexadecimal text

Bytes as two digits each, most significant first, and numbers as a fixed number of digits. Digits are written
in lower case and read in either.
-/

namespace Playback.Text.Hex

/-- The value of a digit; `none` for other characters. -/
def digit? (c : Char) : Option Nat :=
  if '0' ≤ c ∧ c ≤ '9' then some (c.toNat - '0'.toNat)
  else if 'a' ≤ c ∧ c ≤ 'f' then some (c.toNat - 'a'.toNat + 10)
  else if 'A' ≤ c ∧ c ≤ 'F' then some (c.toNat - 'A'.toNat + 10)
  else none

/-- The number with these digits; other characters count as zero. -/
def toNat (digits : List Char) : Nat :=
  digits.foldl (fun n c => 16 * n + (digit? c).getD 0) 0

/-- The digits of a number, at least so many. -/
def ofNat (width n : Nat) : String :=
  let digits := Nat.toDigits 16 n
  String.ofList (List.replicate (width - digits.length) '0' ++ digits)

/-- The bytes that a text gives; an odd last digit is left out. -/
def toBytes : List Char → List UInt8
  | a :: b :: rest => UInt8.ofNat (toNat [a, b]) :: toBytes rest
  | _ => []

/-- The text of bytes. -/
def ofBytes (bytes : List UInt8) : String :=
  String.ofList (bytes.flatMap fun b => [Nat.digitChar (b.toNat / 16), Nat.digitChar (b.toNat % 16)])

end Playback.Text.Hex
