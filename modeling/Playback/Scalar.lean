/-!
# Scalars: the numbers that times, speeds and volumes are made of

Everything that computes with seconds is written over a type `R` with the operations of `Scalar`, and
uses nothing else of `R`. Two readings matter: `Float`, on which a player runs, and exact arithmetic,
in which the laws of clocks and of pacing are stated without rounding. A scalar may be undefined
(`Scalar.nan`): comparisons with an undefined scalar are false, as for IEEE numbers.

Rounding to whole numbers goes through `fraction?`, the exact value, so that truncation, rounding
to nearest and the conversion between seconds and nanoseconds are integer arithmetic for every `R`.
-/

namespace Playback

/-- A numeric type with an undefined value, decimal literals and an exact reading of its finite values. -/
class Scalar (R : Type) extends
    Add R, Sub R, Mul R, Div R, Neg R, LT R, LE R, BEq R, OfScientific R where
  decLt : DecidableLT R
  decLe : DecidableLE R
  /-- The undefined value. -/
  nan : R
  isNaN : R → Bool
  /-- The nearest scalar to an integer. -/
  ofInt : Int → R
  /-- The value as a fraction; `none` for undefined and infinite values. -/
  fraction? : R → Option Rat
  /-- The factor by which a value fades per step so that a hundredth of it is left after so many steps. -/
  fade : Nat → R
  /-- The value of a single-precision number given by its bits. -/
  ofSingle : UInt32 → R
  /-- The bits of the nearest single-precision number. -/
  toSingle : R → UInt32

namespace Scalar

variable {R : Type} [Scalar R]

instance (a b : R) : Decidable (a < b) := Scalar.decLt a b

instance (a b : R) : Decidable (a ≤ b) := Scalar.decLe a b

/-- Neither undefined nor infinite. -/
def isFinite (x : R) : Bool :=
  (fraction? x).isSome

/-- The absolute value. -/
def abs (x : R) : R :=
  if x < 0.0 then -x else x

/-- The larger of two values; an undefined one gives way to the other. -/
def max (a b : R) : R :=
  if isNaN a then b else if isNaN b then a else if a < b then b else a

/-- The smaller of two values; an undefined one gives way to the other. -/
def min (a b : R) : R :=
  if isNaN a then b else if isNaN b then a else if b < a then b else a

/-- The nearest value between `lo` and `hi`; an undefined value stays undefined. -/
def clamp (x lo hi : R) : R :=
  if x < lo then lo else if hi < x then hi else x

/-! ## Whole numbers -/

/-- The nearest integer to a fraction, halves away from zero. -/
def nearestAway (q : Rat) : Int :=
  let n := (2 * q.num.natAbs + q.den) / (2 * q.den)
  if q.num < 0 then -n else n

/-- The nearest integer to a fraction, halves to the even neighbour. -/
def nearestEven (q : Rat) : Int :=
  let n := q.floor
  let twice := 2 * (q - n)
  if twice < 1 then n else if 1 < twice then n + 1 else if n % 2 = 0 then n else n + 1

/-- The integer part of a fraction, cut off toward zero. -/
def truncated (q : Rat) : Int :=
  Int.tdiv q.num q.den

/-- An integer rule applied to a scalar and kept within bounds: infinities go to the bounds and an
undefined value to zero. -/
def toBounded (rule : Rat → Int) (lo hi : Int) (x : R) : Int :=
  match fraction? x with
  | some q => Max.max lo (Min.min hi (rule q))
  | none => if isNaN x then 0 else if x < 0.0 then lo else hi

/-- The integer part as a 64-bit signed number, out-of-range values at the bounds. -/
def toInt64 (x : R) : Int :=
  toBounded truncated (-0x8000000000000000) 0x7fffffffffffffff x

/-- The floor as a natural number; what lies below zero is zero. -/
def floorNat (x : R) : Nat :=
  (toBounded Rat.floor 0 0xffffffffffffffff x).toNat

/-- The nearest 16-bit signed number, halves away from zero. -/
def toInt16 (x : R) : Int :=
  toBounded nearestAway (-32768) 32767 x

/-! ## Nanoseconds -/

/-- Seconds from nanoseconds: whole seconds and the rest are converted apart and added. -/
def ofNanos (n : Nat) : R :=
  ofInt (n / 1000000000 : Nat) + ofInt (n % 1000000000 : Nat) / 1000000000.0

/-- Seconds to the nearest nanosecond, halves to even. Negative and undefined values are no time at all;
`none` is a time of 2^64 seconds or more. -/
def toNanos? (x : R) : Option Nat :=
  if isNaN x then some 0
  else if x ≤ 0.0 then some 0
  else
    match fraction? x with
    | none => none
    | some q =>
      let n := (nearestEven (q * 1000000000)).toNat
      if n < 0x10000000000000000 * 1000000000 then some n else none

end Scalar

/-! ## Double precision -/

/-- The exact value of the finite double with these bits. -/
def doubleValue? (bits : UInt64) : Option Rat :=
  let word := bits.toNat
  let exponent := word / 0x10000000000000 % 2048
  let fraction := word % 0x10000000000000
  let signed (magnitude : Nat) : Int := if word / 0x8000000000000000 = 0 then magnitude else -magnitude
  if exponent = 2047 then none
  else if exponent = 0 then some (mkRat (signed fraction) (Nat.pow 2 1074))
  else if exponent < 1075 then
    some (mkRat (signed (fraction + 0x10000000000000)) (Nat.pow 2 (1075 - exponent)))
  else some (mkRat (signed ((fraction + 0x10000000000000) * Nat.pow 2 (exponent - 1075))) 1)

instance : Scalar Float where
  decLt := inferInstance
  decLe := inferInstance
  nan := 0.0 / 0.0
  isNaN := Float.isNaN
  ofInt := Float.ofInt
  fraction? x := doubleValue? x.toBits
  fade n := Float.exp (Float.log 0.01 / Float.ofNat n)
  ofSingle bits := (Float32.ofBits bits).toFloat
  toSingle x := x.toFloat32.toBits

end Playback
