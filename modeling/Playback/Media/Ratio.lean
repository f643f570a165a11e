import Playback.Scalar

/-!
# Ratios: time bases and frame rates

A timestamp counts ticks of a time base, the length of a tick in seconds as a ratio of two integers.
`Ratio.rescale` carries a timestamp from one time base to another and rounds to the nearest tick, halves
away from zero. Timestamps are 64-bit numbers: a result that does not fit wraps around.
-/

namespace Playback

/-- A ratio of two integers; either may be zero or negative. -/
structure Ratio where
  num : Int
  den : Int
deriving Repr, DecidableEq, Inhabited

/-- The 64-bit signed number that an integer wraps around to. -/
def wrap64 (i : Int) : Int :=
  Int.bmod i 0x10000000000000000

namespace Ratio

/-- Milliseconds. -/
def millis : Ratio := ⟨1, 1000⟩

/-- The value in seconds; a ratio without a denominator counts as zero. -/
def toScalar {R : Type} [Scalar R] (r : Ratio) : R :=
  if r.den = 0 then 0.0 else Scalar.ofInt r.num / Scalar.ofInt r.den

/-- The numerator of a timestamp expressed in another time base, before rounding. -/
def scaledNum (source : Ratio) (ts : Int) (target : Ratio) : Int :=
  ts * source.num * target.den

/-- The denominator of a timestamp expressed in another time base. -/
def scaledDen (source target : Ratio) : Int :=
  source.den * target.num

/-- The integer nearest to `num / den`, halves away from zero; `den` is not zero. -/
def roundDiv (num den : Int) : Int :=
  let magnitude : Nat := (num.natAbs + den.natAbs / 2) / den.natAbs
  if (0 ≤ num) ↔ (0 ≤ den) then magnitude else -magnitude

/-- The timestamp `ts` of the time base `source` in ticks of `target`; zero if either tick is
meaningless. -/
def rescale (source : Ratio) (ts : Int) (target : Ratio) : Int :=
  if target.num = 0 ∨ source.den = 0 then 0
  else wrap64 (roundDiv (scaledNum source ts target) (scaledDen source target))

end Ratio
end Playback
