import Playback.Decimal.Shortest

/-!
# Decimal texts of doubles

A `Layout` fixes how the shortest digits of a number are written: for which decimal exponents the
positional form is used, whether whole numbers keep a `.0`, and which of two equally near decimals is
taken. Two layouts occur: `plain` in error messages and `debug` in the descriptions of clocks.
-/

namespace Playback.Decimal

/-- The rules for writing a finite number. -/
structure Layout where
  /-- Whether a number with this exponent of its first digit is written without an exponent. -/
  positional : Int → Bool
  /-- Whether whole numbers in positional form end in `.0`. -/
  pointZero : Bool
  tie : Tie

namespace Layout

/-- Always positional; whole numbers have no point. -/
def plain : Layout := ⟨fun _ => true, false, .up⟩

/-- Positional from 0.0001 up to 10^16, and whole numbers end in `.0`. -/
def debug : Layout := ⟨fun e => -4 ≤ e && e < 16, true, .up⟩

end Layout

/-- Digits as characters. -/
def digitChars (ds : List Nat) : List Char :=
  ds.map Nat.digitChar

/-- One digit, the others after a point, and the exponent. -/
def Scientific.exponential (x : Scientific) : List Char :=
  let ds := digitsOf x.coefficient
  digitChars (ds.take 1) ++ (if ds.length ≤ 1 then [] else '.' :: digitChars (ds.drop 1))
    ++ 'e' :: (if x.leading < 0 then ['-'] else []) ++ digitChars (digitsOf x.leading.natAbs)

/-- The text of a decimal without a sign. -/
def Layout.write (layout : Layout) (x : Scientific) : List Char :=
  if layout.positional x.leading then
    match x.places with
    | (whole, []) => digitChars whole ++ (if layout.pointZero then ['.', '0'] else [])
    | (whole, fraction) => digitChars whole ++ '.' :: digitChars fraction
  else x.exponential

/-- The text of a double: `NaN`, `inf` and `-inf` where there are no digits, and a sign also on a
negative zero. -/
def Layout.writeDouble (layout : Layout) (x : Float) : String :=
  match Reading.ofDouble layout.tie x with
  | .undefined => "NaN"
  | .infinite negative => if negative then "-inf" else "inf"
  | .finite negative value =>
    String.ofList ((if negative then ['-'] else []) ++ layout.write value)

end Playback.Decimal
