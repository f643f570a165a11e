import Playback.TextScalar

/-!
# Exact arithmetic

The reading of scalars without rounding: a finite value is a fraction, and every operation on fractions
gives the fraction it should. Beside them stand the two infinities and an undefined value, which follow the
rules of IEEE numbers. There is one zero; where its sign would matter it counts as positive.

A value in single precision is rounded all the same, and the fading factor, which is no fraction, is taken as
the double that stands for it.
-/

namespace Playback

/-- A number that is never rounded. -/
inductive Exact where
  | undefined
  | negInf
  | finite (value : Rat)
  | posInf
deriving Repr, DecidableEq

namespace Exact

/-! ## Operations -/

/-- The infinity with this sign; undefined without a sign. -/
def infinite (sign : Int) : Exact :=
  if sign < 0 then negInf else if 0 < sign then posInf else undefined

/-- The sign of a value, as -1, 0 or 1. -/
def sign : Exact → Int
  | undefined => 0
  | negInf => -1
  | finite q => q.num.sign
  | posInf => 1

def neg : Exact → Exact
  | undefined => undefined
  | negInf => posInf
  | finite q => finite (-q)
  | posInf => negInf

def add : Exact → Exact → Exact
  | undefined, _ | _, undefined => undefined
  | finite a, finite b => finite (a + b)
  | posInf, negInf | negInf, posInf => undefined
  | posInf, _ | _, posInf => posInf
  | negInf, _ | _, negInf => negInf

def mul : Exact → Exact → Exact
  | undefined, _ | _, undefined => undefined
  | finite a, finite b => finite (a * b)
  | a, b => infinite (a.sign * b.sign)

def div : Exact → Exact → Exact
  | undefined, _ | _, undefined => undefined
  | finite a, finite b => if b = 0 then infinite a.num.sign else finite (a / b)
  | finite _, _ => finite 0
  | a, finite b => infinite (if b < 0 then -a.sign else a.sign)
  | _, _ => undefined

def lt : Exact → Exact → Bool
  | undefined, _ | _, undefined => false
  | finite a, finite b => a < b
  | negInf, negInf | posInf, posInf => false
  | negInf, _ | _, posInf => true
  | _, _ => false

def le : Exact → Exact → Bool
  | undefined, _ | _, undefined => false
  | finite a, finite b => a ≤ b
  | negInf, _ | _, posInf => true
  | _, _ => false

def beq (a b : Exact) : Bool :=
  a ≠ undefined ∧ a = b

def fraction? : Exact → Option Rat
  | finite q => some q
  | _ => none

/-! ## Binary numbers -/

/-- The value of a double. -/
def ofDouble (x : Float) : Exact :=
  match doubleValue? x.toBits with
  | some q => finite q
  | none => if x.isNaN then undefined else if x < 0.0 then negInf else posInf

/-- The magnitude of the single-precision number nearest to a fraction that is not negative, as its bits.
Successive magnitudes have successive bits, so that a significand which is rounded up to the next power of two
needs no care. -/
def singleMagnitude (q : Rat) : Nat :=
  let scale (e : Int) : Rat := mkRat (Nat.pow 2 e.toNat : Nat) (Nat.pow 2 (-e).toNat)
  let leading : Int := (q.num.natAbs.log2 : Int) - q.den.log2
  let unit : Int := Max.max (-149) (leading - if q < scale leading then 24 else 23)
  let bits : Int := (unit + 149) * 0x800000 + Scalar.nearestEven (q / scale unit)
  if q = 0 then 0 else (Min.min 0x7f800000 bits).toNat

/-- The bits of the nearest single-precision number. -/
def toSingle : Exact → UInt32
  | undefined => 0x7fc00000
  | negInf => 0xff800000
  | finite q => .ofNat (if q < 0 then 0x80000000 + singleMagnitude (-q) else singleMagnitude q)
  | posInf => 0x7f800000

instance : Scalar Exact where
  add := add
  sub a b := a.add b.neg
  mul := mul
  div := div
  neg := neg
  lt a b := a.lt b = true
  le a b := a.le b = true
  beq := beq
  ofScientific mantissa negative exponent := finite (Rat.ofScientific mantissa negative exponent)
  decLt a b := inferInstanceAs (Decidable (a.lt b = true))
  decLe a b := inferInstanceAs (Decidable (a.le b = true))
  nan := undefined
  isNaN a := a = undefined
  ofInt i := finite i
  fraction? := fraction?
  fade n := ofDouble (Scalar.fade n)
  ofSingle bits := ofDouble (Scalar.ofSingle bits)
  toSingle := toSingle

/-! ## Texts -/

/-- The magnitude of a fraction as a decimal with as few places as it needs; none if it has no end. -/
def decimal? (q : Rat) : Option Decimal.Scientific :=
  ((List.range (q.den.log2 + 1)).find? fun places => Nat.pow 10 places % q.den = 0).map fun places =>
    ⟨q.num.natAbs * (Nat.pow 10 places / q.den), -(places : Int)⟩

/-- The decimal of a value, and otherwise the two parts of the fraction. -/
def text (layout : Decimal.Layout) : Exact → String
  | undefined => "NaN"
  | negInf => "-inf"
  | posInf => "inf"
  | finite q =>
    match decimal? q with
    | some x => String.ofList ((if q < 0 then ['-'] else []) ++ layout.write x)
    | none => toString q.num ++ "/" ++ toString q.den

/-- The JSON number with the same value, if there is one. -/
def toNumber? : Exact → Option Json.Number
  | finite q => (decimal? q).map (Json.Number.ofScientific (q < 0))
  | _ => none

/-- The value of a JSON number. -/
def ofNumber (n : Json.Number) : Exact :=
  let power := n.exponent.getD 0 - n.fraction.length
  let magnitude : Rat :=
    mkRat (Decimal.ofDigits (n.whole ++ n.fraction) * Nat.pow 10 power.toNat : Nat) (Nat.pow 10 (-power).toNat)
  finite (if n.negative then -magnitude else magnitude)

instance : TextScalar Exact where
  plain := text .plain
  debug := text .debug
  toNumber? := toNumber?
  ofNumber? n := some (ofNumber n)

end Exact
end Playback
