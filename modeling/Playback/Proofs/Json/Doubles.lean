import Playback.Proofs.Json.Tokens
import Playback.Proofs.Scalar
import Playback.TextScalar

/-!
# The numbers of doubles

JSON has a number for a double exactly if it is finite (`ofDouble?_some`, `ofDouble?_none`), and it is
always one that JSON can spell (`ofDouble?_legal`). A superfluous zero could only come from a coefficient of
zero on a coarse grid. The search for the shortest decimal gives none: what it finds lies in the interval of
the double, which does not reach down to zero, and where it finds nothing the grid has become too fine
(`Span.shortest_tidy`).
-/

namespace Playback

namespace Decimal

/-! ## The shortest decimal -/

/-- Written out in full the decimal has no superfluous zero, or it is too large to be written so. -/
def Scientific.Tidy (x : Scientific) : Prop :=
  x.coefficient = 0 → x.power ≤ 0 ∨ 16 ≤ x.power

theorem Span.ofBinary_low {significand : Nat} (h : 0 < significand) (exponent : Int) (atBinade : Bool) :
    0 < (Span.ofBinary significand exponent atBinade).low := by
  show 0 < 4 * significand - (if atBinade = true then 1 else 2)
  split <;> omega

theorem Span.ofBinary_value {significand : Nat} (h : 0 < significand) (exponent : Int) (atBinade : Bool) :
    0 < (Span.ofBinary significand exponent atBinade).value := by
  show 0 < 4 * significand
  omega

theorem Span.ratio_pos (unit power : Int) : 0 < (Span.ratio unit power).1 :=
  Nat.mul_pos (Nat.pow_pos (by decide)) (Nat.pow_pos (by decide))

variable {s : Span} {tie : Tie}

/-- Zero does not lie in the interval. -/
theorem Span.onGrid?_coefficient (hlow : 0 < s.low) {power : Int} {x : Scientific}
    (hx : s.onGrid? tie power = some x) : x.coefficient ≠ 0 := by
  have hpos : 0 < s.low * (Span.ratio s.unit power).1 := Nat.mul_pos hlow (Span.ratio_pos ..)
  unfold Span.onGrid? at hx
  revert hx
  dsimp only
  generalize (Span.ratio s.unit power).1 = a at hpos ⊢
  generalize (Span.ratio s.unit power).2 = b
  grind

/-- A coefficient of zero comes from the last grid, which is coarser than the value. -/
theorem Span.search_zero (hlow : 0 < s.low) (steps : Nat) (power : Int)
    (hzero : (s.search tie power steps).coefficient = 0) :
    (s.search tie power steps).power = power - steps ∧
      s.value * (Span.ratio s.unit (power - steps)).1 < (Span.ratio s.unit (power - steps)).2 := by
  induction steps generalizing power with
  | zero =>
    have hdiv : (Span.ratio s.unit power).1 * s.value / (Span.ratio s.unit power).2 = 0 := hzero
    have hpos : 0 < (Span.ratio s.unit power).2 := Nat.mul_pos (Nat.pow_pos (by decide)) (Nat.pow_pos (by decide))
    have hlt := (Nat.div_eq_zero_iff_lt hpos).mp hdiv
    have hpower : power - ((0 : Nat) : Int) = power := by omega
    rw [hpower, Nat.mul_comm]
    exact ⟨rfl, hlt⟩
  | succ steps ih =>
    have hpower : power - ((steps + 1 : Nat) : Int) = power - 1 - (steps : Int) := by omega
    cases hgrid : s.onGrid? tie power with
    | some x =>
      have hx : s.search tie power (steps + 1) = x := by rw [Span.search, hgrid]; rfl
      rw [hx] at hzero
      exact absurd hzero (Span.onGrid?_coefficient hlow hgrid)
    | none =>
      have hx : s.search tie power (steps + 1) = s.search tie (power - 1) steps := by
        rw [Span.search, hgrid]; rfl
      rw [hx] at hzero ⊢
      rw [hpower]
      exact ih (power - 1) hzero

/-- A value below one step of a grid `10 ^ p` is below `2 ^ (4 p)`. -/
theorem Span.bits_of_coarse (hvalue : 0 < s.value) {power : Nat}
    (hcoarse : s.value * (Span.ratio s.unit power).1 < (Span.ratio s.unit power).2) :
    (s.value.log2 : Int) + s.unit < 4 * power := by
  have hlog : 2 ^ s.value.log2 ≤ s.value := Nat.log2_self_le (by omega)
  have hten : 10 ^ power ≤ 2 ^ (4 * power) := by
    rw [Nat.pow_mul]
    exact Nat.pow_le_pow_left (by decide) power
  have hup : (Span.ratio s.unit power).1 = 2 ^ s.unit.toNat := by
    have hnone : (-(power : Int)).toNat = 0 := by omega
    simp [Span.ratio, hnone]
  have hdown : (Span.ratio s.unit power).2 = 2 ^ (-s.unit).toNat * 10 ^ power := by
    simp [Span.ratio]
  rw [hup, hdown] at hcoarse
  have hpow : 2 ^ (s.value.log2 + s.unit.toNat) < 2 ^ ((-s.unit).toNat + 4 * power) := by
    calc 2 ^ (s.value.log2 + s.unit.toNat)
        = 2 ^ s.value.log2 * 2 ^ s.unit.toNat := Nat.pow_add ..
      _ ≤ s.value * 2 ^ s.unit.toNat := Nat.mul_le_mul_right _ hlog
      _ < 2 ^ (-s.unit).toNat * 10 ^ power := hcoarse
      _ ≤ 2 ^ (-s.unit).toNat * 2 ^ (4 * power) := Nat.mul_le_mul_left _ hten
      _ = 2 ^ ((-s.unit).toNat + 4 * power) := (Nat.pow_add ..).symm
  have hexp := (Nat.pow_lt_pow_iff_right (by decide)).mp hpow
  omega

/-- The last grid is finer than the value wherever a zero could be seen. -/
theorem Span.shortest_tidy (hlow : 0 < s.low) (hvalue : 0 < s.value) : (s.shortest tie).Tidy := by
  intro hzero
  obtain ⟨hpower, hcoarse⟩ := Span.search_zero hlow 24 _ hzero
  have hshortest : (s.shortest tie).power
      = ((s.value.log2 : Int) + s.unit) * 30103 / 100000 + 2 - (24 : Nat) := hpower
  rw [← hshortest] at hcoarse
  by_cases hpositive : (s.shortest tie).power ≤ 0
  · exact .inl hpositive
  · refine .inr ?_
    obtain ⟨p, hp⟩ : ∃ p : Nat, (s.shortest tie).power = p := ⟨_, (Int.toNat_of_nonneg (by omega)).symm⟩
    rw [hp] at hcoarse hshortest ⊢
    have hbits := Span.bits_of_coarse hvalue hcoarse
    omega

theorem Span.ofDoubleBits_positive {bits : UInt64}
    (h : ¬ (bits.toNat / 0x10000000000000 % 2048 = 0 ∧ bits.toNat % 0x10000000000000 = 0)) :
    0 < (Span.ofDoubleBits bits).low ∧ 0 < (Span.ofDoubleBits bits).value := by
  unfold Span.ofDoubleBits
  dsimp only
  split
  next hexp =>
    have hfraction : 0 < bits.toNat % 0x10000000000000 := by omega
    exact ⟨Span.ofBinary_low hfraction .., Span.ofBinary_value hfraction ..⟩
  next =>
    have hpositive : 0 < bits.toNat % 0x10000000000000 + 0x10000000000000 := Nat.add_pos_right _ (by decide)
    exact ⟨Span.ofBinary_low hpositive .., Span.ofBinary_value hpositive ..⟩

/-- A finite reading is tidy. -/
theorem Reading.ofDouble_tidy {x : Float} {negative : Bool} {value : Scientific}
    (h : Reading.ofDouble tie x = .finite negative value) : value.Tidy := by
  unfold Reading.ofDouble at h
  dsimp only at h
  split at h
  next => cases h
  next =>
    split at h
    next => cases h
    next =>
      split at h
      next =>
        cases h
        exact fun _ => .inl (Int.le_refl 0)
      next hnonzero =>
        cases h
        obtain ⟨hlow, hvalue⟩ := Span.ofDoubleBits_positive hnonzero
        exact Span.shortest_tidy hlow hvalue

end Decimal

/-! ## Their numbers -/

namespace Json

open Decimal (Scientific Reading digitsOf)

theorem head_digitsOf_append {n : Nat} (h : n ≠ 0) (ds : List Nat) : (digitsOf n ++ ds).head? ≠ some 0 := by
  have hhead := Decimal.digitsOf_head h
  cases hds : digitsOf n with
  | nil => exact absurd hds (Decimal.digitsOf_ne_nil n)
  | cons d ds =>
    rw [hds] at hhead
    exact hhead

/-- The digits of a whole number in positional form. -/
theorem places_whole (negative : Bool) {x : Scientific} (h : x.Tidy) (hsmall : x.leading < 16)
    (hpower : 0 ≤ x.power) :
    (⟨negative, x.places.1, [0], none⟩ : Number).Legal ∧ x.places.2 = [] := by
  have hplaces : x.places = (digitsOf x.coefficient ++ List.replicate x.power.toNat 0, []) := by
    simp [Scientific.places, hpower]
  rw [hplaces]
  refine ⟨⟨?_, ?_, ?_, by simp⟩, rfl⟩
  · simp [Decimal.digitsOf_ne_nil]
  · intro d hd
    rcases List.mem_append.mp hd with hdigit | hzero
    · exact Decimal.digitsOf_lt _ d hdigit
    · rw [(List.mem_replicate.mp hzero).2]
      decide
  · intro hhead
    by_cases hzero : x.coefficient = 0
    · have hleading : x.leading = x.power := by
        simp only [Scientific.leading, hzero, Decimal.digitsOf_small (show 0 < 10 by decide), List.length_singleton]
        omega
      have hpower : x.power.toNat = 0 := by
        have htidy := h hzero
        omega
      simp [hzero, hpower, Decimal.digitsOf_small]
    · exact absurd hhead (head_digitsOf_append hzero _)

/-- The digits of a decimal with zeros before them, so that one stands before the last `count`. -/
def padded (x : Scientific) (count : Nat) : List Nat :=
  List.replicate (count + 1 - (digitsOf x.coefficient).length) 0 ++ digitsOf x.coefficient

theorem padded_lt (x : Scientific) (count : Nat) : ∀ d ∈ padded x count, d < 10 := by
  intro d hd
  rcases List.mem_append.mp hd with hzero | hdigit
  · rw [(List.mem_replicate.mp hzero).2]
    decide
  · exact Decimal.digitsOf_lt _ d hdigit

theorem padded_length (x : Scientific) (count : Nat) : count < (padded x count).length := by
  simp only [padded, List.length_append, List.length_replicate]
  omega

/-- Before the last `count` digits there is no superfluous zero. -/
theorem padded_leading (x : Scientific) {count : Nat} (hcount : 0 < count)
    (hzero : ((padded x count).take ((padded x count).length - count)).head? = some 0) :
    (padded x count).length - count = 1 := by
  by_cases hshort : (digitsOf x.coefficient).length ≤ count
  · simp only [padded, List.length_append, List.length_replicate]
    omega
  · have hsame : padded x count = digitsOf x.coefficient := by
      have hnone : count + 1 - (digitsOf x.coefficient).length = 0 := by omega
      simp [padded, hnone]
    have hcoefficient : x.coefficient ≠ 0 := by
      intro heq
      rw [heq, Decimal.digitsOf_small (by decide)] at hshort
      exact hshort hcount
    rw [hsame, List.head?_take] at hzero
    split at hzero
    next => cases hzero
    next => exact absurd hzero (Decimal.digitsOf_head hcoefficient)

/-- The digits of any other number in positional form. -/
theorem places_fraction (negative : Bool) {x : Scientific} (hpower : ¬ 0 ≤ x.power) :
    (⟨negative, x.places.1, x.places.2, none⟩ : Number).Legal := by
  have hcount : 0 < (-x.power).toNat := by omega
  have hlong := padded_length x (-x.power).toNat
  have hplaces : x.places
      = (padded x (-x.power).toNat).splitAt ((padded x (-x.power).toNat).length - (-x.power).toNat) := by
    simp [Scientific.places, padded, hpower]
  rw [hplaces, List.splitAt_eq]
  refine ⟨?_, ?_, ?_, ?_⟩
  · intro hnil
    have hlength := congrArg List.length hnil
    simp only [List.length_take, List.length_nil] at hlength
    omega
  · exact fun d hd => padded_lt x _ d (List.mem_of_mem_take hd)
  · intro hzero
    have hone := padded_leading x hcount hzero
    simp only [List.length_take]
    omega
  · exact fun d hd => padded_lt x _ d (List.mem_of_mem_drop hd)

theorem ofScientific_legal (negative : Bool) {x : Scientific} (h : x.Tidy) :
    (Number.ofScientific negative x).Legal := by
  unfold Number.ofScientific
  split
  next hpositional =>
    by_cases hpower : 0 ≤ x.power
    · obtain ⟨hlegal, hnone⟩ := places_whole negative h hpositional.2 hpower
      split
      next whole heq =>
        rw [heq] at hlegal
        exact hlegal
      next whole fraction hfraction heq =>
        rw [heq] at hnone
        exact absurd hnone hfraction
    · have hlegal := places_fraction negative hpower
      split
      next whole heq =>
        rw [heq] at hlegal
        exact ⟨hlegal.nonempty, hlegal.whole, hlegal.leading, by simp⟩
      next whole fraction _ heq =>
        rw [heq] at hlegal
        exact hlegal
  next =>
    have hdigits := Decimal.digitsOf_lt x.coefficient
    have hne := Decimal.digitsOf_ne_nil x.coefficient
    refine ⟨?_, ?_, ?_, ?_⟩
    · simpa using hne
    · exact fun d hd => hdigits d (List.mem_of_mem_take hd)
    · intro _
      have hpos := List.length_pos_iff.mpr hne
      simp only [List.length_take]
      omega
    · exact fun d hd => hdigits d (List.mem_of_mem_drop hd)

theorem ofDouble?_legal {x : Float} {n : Number} (h : Number.ofDouble? x = some n) : n.Legal := by
  unfold Number.ofDouble? at h
  split at h
  next negative value hreading =>
    cases h
    exact ofScientific_legal negative (Reading.ofDouble_tidy hreading)
  next => cases h

/-- A float that is not finite is undefined or infinite. -/
theorem ofDouble?_none {x : Float} (h : x.isFinite = false) : Number.ofDouble? x = none := by
  have hones : x.toBits.toNat / 0x10000000000000 % 2048 = 2047 :=
    Decidable.byContradiction fun hother => by
      rw [(float_isFinite_iff x).mpr hother] at h
      cases h
  unfold Number.ofDouble? Reading.ofDouble
  dsimp only
  cases x.isNaN with
  | true => rfl
  | false =>
    simp only [Bool.false_eq_true, if_false]
    rw [if_pos hones]

theorem ofDouble?_some {x : Float} (h : x.isFinite = true) : ∃ n, Number.ofDouble? x = some n := by
  have hother := (float_isFinite_iff x).mp h
  have hdefined := float_defined_of_isFinite h
  unfold exponentBits at hother
  unfold Number.ofDouble? Reading.ofDouble
  dsimp only
  rw [hdefined]
  simp only [Bool.false_eq_true, if_false]
  rw [if_neg hother]
  split
  next negative value hreading => exact ⟨_, rfl⟩
  next hnone =>
    split at hnone
    next => exact absurd rfl (hnone _ _)
    next => exact absurd rfl (hnone _ _)

end Json
end Playback
