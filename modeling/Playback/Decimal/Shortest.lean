/-!
# The shortest decimal that reads back as a binary number

A positive binary number stands for every real that rounds to it: an interval that reaches half way to
each neighbour and includes its ends exactly when the significand is even. `Span` is that interval in
whole multiples of a power of two. `Span.shortest` tries the decimal grids `10^p` from coarse to fine
and takes the first on which one of the value's two neighbours lies in the interval; if both do, the
nearer one wins. All of it is exact arithmetic on natural numbers.
-/

namespace Playback.Decimal

/-- The number `coefficient * 10 ^ power`. -/
structure Scientific where
  coefficient : Nat
  power : Int
deriving Repr, DecidableEq, Inhabited

/-- The decimal digits of a natural number, most significant first. -/
def digitsOf (n : Nat) : List Nat :=
  (Nat.toDigits 10 n).map fun c => c.toNat - '0'.toNat

/-- The number that a list of decimal digits denotes. -/
def ofDigits (ds : List Nat) : Nat :=
  ds.foldl (fun n d => 10 * n + d) 0

/-- The decimal exponent of the first digit. -/
def Scientific.leading (x : Scientific) : Int :=
  x.power + (digitsOf x.coefficient).length - 1

/-- The digits before and after the decimal point; zeros fill the places that the coefficient does not
reach, and at least one digit stands before the point. -/
def Scientific.places (x : Scientific) : List Nat × List Nat :=
  let ds := digitsOf x.coefficient
  if 0 ≤ x.power then (ds ++ List.replicate x.power.toNat 0, [])
  else
    let count := (-x.power).toNat
    let padded := List.replicate (count + 1 - ds.length) 0 ++ ds
    padded.splitAt (padded.length - count)

/-- What decides between two equally near decimals. -/
inductive Tie where
  | toEven
  | up
deriving Repr, DecidableEq

/-- A positive value and the ends of its interval, as multiples of `2 ^ unit`. -/
structure Span where
  low : Nat
  value : Nat
  high : Nat
  unit : Int
  /-- Whether the ends themselves read back as the value. -/
  closed : Bool

/-- The interval of `significand * 2 ^ exponent`; `atBinade` says that the number below is only half as
far away as the number above. -/
def Span.ofBinary (significand : Nat) (exponent : Int) (atBinade : Bool) : Span where
  low := 4 * significand - (if atBinade then 1 else 2)
  value := 4 * significand
  high := 4 * significand + 2
  unit := exponent - 2
  closed := significand % 2 == 0

/-- The interval of a positive finite double, from its bits. -/
def Span.ofDoubleBits (bits : UInt64) : Span :=
  let exponent : Nat := bits.toNat / 0x10000000000000 % 2048
  let fraction := bits.toNat % 0x10000000000000
  if exponent = 0 then Span.ofBinary fraction (-1074) false
  else Span.ofBinary (fraction + 0x10000000000000) ((exponent : Int) - 1075) (fraction = 0 && 1 < exponent)

/-- `(a, b)` with `a / b = 2 ^ unit / 10 ^ power`. -/
def Span.ratio (unit power : Int) : Nat × Nat :=
  (Nat.pow 2 unit.toNat * Nat.pow 10 (-power).toNat, Nat.pow 2 (-unit).toNat * Nat.pow 10 power.toNat)

/-- The decimal on the grid `10 ^ power` that lies in the interval and nearest to the value, if any. -/
def Span.onGrid? (s : Span) (tie : Tie) (power : Int) : Option Scientific :=
  let (a, b) := Span.ratio s.unit power
  let inside (c : Nat) : Bool :=
    if s.closed then s.low * a ≤ c * b && c * b ≤ s.high * a
    else s.low * a < c * b && c * b < s.high * a
  let below := s.value * a / b
  let toBelow := s.value * a - below * b
  let toAbove := (below + 1) * b - s.value * a
  if inside below && inside (below + 1) then
    let down := toBelow < toAbove || (toBelow = toAbove && tie = .toEven && below % 2 = 0)
    some ⟨if down then below else below + 1, power⟩
  else if inside below then some ⟨below, power⟩
  else if inside (below + 1) then some ⟨below + 1, power⟩
  else none

/-- The first hit on the grids `10 ^ power`, `10 ^ (power - 1)` and so on, `steps` of them. -/
def Span.search (s : Span) (tie : Tie) (power : Int) : Nat → Scientific
  | 0 => ⟨(Span.ratio s.unit power).1 * s.value / (Span.ratio s.unit power).2, power⟩
  | steps + 1 => (s.onGrid? tie power).getD (s.search tie (power - 1) steps)

/-- The decimal with the fewest digits in the interval, and of those the nearest to the value. -/
def Span.shortest (s : Span) (tie : Tie) : Scientific :=
  let bitsAbove := (s.value.log2 : Int) + s.unit
  s.search tie (bitsAbove * 30103 / 100000 + 2) 24

/-- What a double is: undefined, infinite, or a decimal that reads back as it, with a sign. -/
inductive Reading where
  | undefined
  | infinite (negative : Bool)
  | finite (negative : Bool) (value : Scientific)
deriving Repr, DecidableEq

/-- The reading of a double by its shortest decimal. -/
def Reading.ofDouble (tie : Tie) (x : Float) : Reading :=
  let bits := x.toBits
  let exponent : Nat := bits.toNat / 0x10000000000000 % 2048
  let fraction := bits.toNat % 0x10000000000000
  let negative := bits.toNat / 0x8000000000000000 ≠ 0
  if x.isNaN then .undefined
  else if exponent = 2047 then .infinite negative
  else if exponent = 0 ∧ fraction = 0 then .finite negative ⟨0, 0⟩
  else .finite negative ((Span.ofDoubleBits bits).shortest tie)

end Playback.Decimal
