import Playback.Json.Value

/-!
# Numbers and doubles

Writing takes the shortest digits that read back, in positional form from 0.00001 up to 10^16 and with an
exponent elsewhere; undefined and infinite values have no number. Reading collects the leading digits that fit into 64 bits into a significand, converts it, and scales it
once by a power of ten. The result is therefore the double nearest to the text for short numbers, and may
be one unit off in the last place for long ones; a number too large for a double is refused.
-/

namespace Playback.Json

/-- The number that is written for a decimal; a whole number keeps one zero after its point. -/
def Number.ofScientific (negative : Bool) (x : Decimal.Scientific) : Number :=
  if -5 ≤ x.leading ∧ x.leading < 16 then
    match x.places with
    | (whole, []) => ⟨negative, whole, [0], none⟩
    | (whole, fraction) => ⟨negative, whole, fraction, none⟩
  else
    let ds := Decimal.digitsOf x.coefficient
    ⟨negative, ds.take 1, ds.drop 1, some x.leading⟩

/-- The number that is written for a double, if it is finite. -/
def Number.ofDouble? (x : Float) : Option Number :=
  match Decimal.Reading.ofDouble .toEven x with
  | .finite negative value => some (.ofScientific negative value)
  | _ => none

/-- A significand of at most 64 bits extended by one digit, if that still fits. -/
def extend? (significand digit : Nat) : Option Nat :=
  let next := significand * 10 + digit
  if next < 0x10000000000000000 then some next else none

/-- The significand that the whole digits give, and how many of them did not fit. -/
def wholeSignificand : Nat → List Nat → Nat × Nat
  | significand, [] => (significand, 0)
  | significand, d :: ds =>
    match extend? significand d with
    | some next => wholeSignificand next ds
    | none => (significand, ds.length + 1)

/-- The significand with the fraction digits that fit appended, and their number. -/
def fractionSignificand : Nat → List Nat → Nat × Nat
  | significand, [] => (significand, 0)
  | significand, d :: ds =>
    match extend? significand d with
    | some next =>
      let (last, count) := fractionSignificand next ds
      (last, count + 1)
    | none => (significand, 0)

/-- The double nearest to a power of ten. -/
def powerOfTen (n : Nat) : Float :=
  Float.ofScientific 1 false n

/-- The value times a power of ten; `none` if it grows beyond all doubles. Small numbers are scaled down
in steps of 10^308, of which two are always enough. -/
def scale? (value : Float) (exponent : Int) : Option Float :=
  if exponent ≥ 0 then
    if exponent ≤ 308 then
      let scaled := value * powerOfTen exponent.toNat
      if scaled.isInf then none else some scaled
    else if value == 0.0 then some value
    else none
  else if exponent ≥ -308 then some (value / powerOfTen (-exponent).toNat)
  else
    let once := value / powerOfTen 308
    if exponent ≥ -616 then some (once / powerOfTen (-exponent - 308).toNat)
    else some (once / powerOfTen 308)

/-- The double that a JSON number denotes. -/
def Number.toDouble? (n : Number) : Option Float :=
  let (whole, skipped) := wholeSignificand 0 n.whole
  let (significand, places) := fractionSignificand whole n.fraction
  let signed (x : Float) : Float := if n.negative then -x else x
  let shift := (skipped : Int) - places
  let exponent := n.exponent.getD 0
  if exponent.natAbs ≥ 0x80000000 then
    if significand ≠ 0 ∧ exponent > 0 then none else some (signed 0.0)
  else
    (scale? (Float.ofNat significand) (shift + exponent)).map signed

end Playback.Json
