import Playback.Scalar

/-!
# Comparisons of floating-point numbers

Of two floats that are defined one is at most the other, and with one that is not every comparison fails. From this it
follows what the two ways to keep a value within bounds make of it: `clamp` lets an undefined value pass
(`isNaN_clamp`), `max` does not (`nonneg_max`). What lies between two finite values is finite
(`float_isFinite_of_between`).
-/

open Float.Model (UnpackedFloat)

namespace Playback

/-! ## The order -/

theorem compare_swap (a b : UnpackedFloat) : b.compare a = (a.compare b).map Ordering.swap := by
  have horder (e e' : Int) (m m' : Nat) :
      (compare e' e).then (compare m' m) = ((compare e e').then (compare m m')).swap := by
    rw [Ordering.swap_then, ← Std.OrientedCmp.eq_swap, ← Std.OrientedCmp.eq_swap]
  cases a with
  | notANumber => cases b <;> rfl
  | infinity s | zero s => cases b with
    | notANumber => cases s <;> rfl
    | infinity t | zero t | finite t => cases s <;> cases t <;> rfl
  | finite s m e => cases b with
    | notANumber => cases s <;> rfl
    | infinity t | zero t => cases s <;> cases t <;> rfl
    | finite t m' e' =>
      cases s <;> cases t
      · exact congrArg some (congrArg Ordering.swap (horder ..))
      · rfl
      · rfl
      · exact congrArg some (horder ..)

theorem compare_defined {a b : UnpackedFloat} (ha : a.isNaN = false) (hb : b.isNaN = false) :
    (a.compare b).isSome = true := by
  cases a with
  | notANumber => cases ha
  | infinity s | zero s | finite s => cases b with
    | notANumber => cases hb
    | infinity t | zero t | finite t => cases s <;> cases t <;> rfl

theorem compare_undefined {a b : UnpackedFloat} (h : a.isNaN = true ∨ b.isNaN = true) : a.compare b = none := by
  cases a with
  | notANumber => cases b <;> rfl
  | infinity s | zero s | finite s => cases b with
    | notANumber => cases s <;> rfl
    | infinity t | zero t | finite t => rcases h with h | h <;> cases h

variable {a b x : Float}

theorem float_lt_iff : a < b ↔ a.toModel.unpack.compare b.toModel.unpack = some .lt := by
  show decide (a.toModel.unpack.lt b.toModel.unpack = true) = true ↔ _
  simp [UnpackedFloat.lt]

theorem float_le_iff : a ≤ b ↔ (a.toModel.unpack.compare b.toModel.unpack).any (·.isLE) = true := by
  show decide (a.toModel.unpack.le b.toModel.unpack = true) = true ↔ _
  rw [decide_eq_true_eq]
  rfl

theorem float_le_of_lt (h : a < b) : a ≤ b := by
  rw [float_le_iff, float_lt_iff.mp h]
  rfl

theorem float_le_of_not_lt (ha : a.isNaN = false) (hb : b.isNaN = false) (h : ¬ a < b) : b ≤ a := by
  obtain ⟨order, horder⟩ := Option.isSome_iff_exists.mp (compare_defined (a := a.toModel.unpack) ha hb)
  rw [float_lt_iff, horder] at h
  rw [float_le_iff, compare_swap, horder]
  cases order with
  | lt => exact absurd rfl h
  | eq | gt => rfl

theorem float_not_lt_of_isNaN (h : a.isNaN = true ∨ b.isNaN = true) : ¬ a < b := by
  rw [float_lt_iff, compare_undefined h]
  exact nofun

theorem float_not_le_of_isNaN (h : a.isNaN = true ∨ b.isNaN = true) : ¬ a ≤ b := by
  rw [float_le_iff, compare_undefined h]
  exact nofun

theorem float_defined_of_le (h : a ≤ b) : a.isNaN = false ∧ b.isNaN = false := by
  constructor
  · exact Bool.eq_false_iff.mpr fun hnan => float_not_le_of_isNaN (.inl hnan) h
  · exact Bool.eq_false_iff.mpr fun hnan => float_not_le_of_isNaN (.inr hnan) h

theorem float_le_refl (h : a.isNaN = false) : a ≤ a := by
  by_cases hlt : a < a
  · exact float_le_of_lt hlt
  · exact float_le_of_not_lt h h hlt

/-! ## Bounds -/

/-- Defined, and between two bounds. -/
def Within (lo hi x : Float) : Prop :=
  lo ≤ x ∧ x ≤ hi

variable {lo hi : Float}

theorem within_clamp (bounds : lo ≤ hi) (hx : x.isNaN = false) : Within lo hi (Scalar.clamp x lo hi) := by
  obtain ⟨hlo, hhi⟩ := float_defined_of_le bounds
  unfold Scalar.clamp
  split
  next => exact ⟨float_le_refl hlo, bounds⟩
  next hlow =>
    split
    next => exact ⟨bounds, float_le_refl hhi⟩
    next hhigh => exact ⟨float_le_of_not_lt hx hlo hlow, float_le_of_not_lt hhi hx hhigh⟩

theorem clamp_of_isNaN (hx : x.isNaN = true) : Scalar.clamp x lo hi = x := by
  unfold Scalar.clamp
  rw [if_neg (float_not_lt_of_isNaN (.inl hx)), if_neg (float_not_lt_of_isNaN (.inr hx))]

/-- What is kept between two bounds is undefined only if it was before. -/
theorem isNaN_clamp (bounds : lo ≤ hi) : (Scalar.clamp x lo hi).isNaN = x.isNaN := by
  cases hx : x.isNaN with
  | true => rw [clamp_of_isNaN hx, hx]
  | false => exact (float_defined_of_le (within_clamp bounds hx).1).2

theorem nonneg_max (x : Float) : 0.0 ≤ Scalar.max x 0.0 := by
  have hzero : (0.0 : Float).isNaN = false := by decide +kernel
  unfold Scalar.max
  split
  next => exact float_le_refl hzero
  next hx =>
    split
    next hnan => exact absurd (hnan.symm.trans hzero) nofun
    next =>
      split
      next => exact float_le_refl hzero
      next hlow => exact float_le_of_not_lt (Bool.eq_false_iff.mpr hx) hzero hlow

/-! ## Finite values -/

/-- The exponent field of a float. -/
def exponentBits (x : Float) : Nat :=
  x.toBits.toNat / 0x10000000000000 % 2048

theorem unpackExponent_eq_ones (x : Float) :
    @UnpackedFloat.unpackExponent .binary64 x.toModel.toBits.toBitVec = -1#11 ↔ exponentBits x = 2047 := by
  have hbits : (@UnpackedFloat.unpackExponent .binary64 x.toModel.toBits.toBitVec).toNat
      = exponentBits x := by
    have htoBits : x.toBits.toNat = x.toModel.toBits.toBitVec.toNat := rfl
    simp [UnpackedFloat.unpackExponent, exponentBits, htoBits, Nat.shiftRight_eq_div_pow]
  rw [← hbits, ← BitVec.toNat_inj]
  rfl

/-- A float is finite unless its exponent field is all ones. -/
theorem float_isFinite_iff (x : Float) : x.isFinite = true ↔ exponentBits x ≠ 2047 := by
  have hones := unpackExponent_eq_ones x
  show x.toModel.unpack.isFinite = true ↔ _
  unfold Float.Model.unpack UnpackedFloat.unpack
  dsimp only
  by_cases h : @UnpackedFloat.unpackExponent .binary64 x.toModel.toBits.toBitVec = -1#11
  · have hones : ¬ exponentBits x ≠ 2047 := fun hx => hx (hones.mp h)
    rw [if_pos h]
    refine ⟨fun hfinite => ?_, fun hx => absurd hx hones⟩
    by_cases hmantissa : @UnpackedFloat.unpackMantissa .binary64 x.toModel.toBits.toBitVec = 0#52
    · rw [if_pos hmantissa] at hfinite
      cases hfinite
    · rw [if_neg hmantissa] at hfinite
      cases hfinite
  · have hother : exponentBits x ≠ 2047 := fun hx => h (hones.mpr hx)
    rw [if_neg h]
    refine ⟨fun _ => hother, fun _ => ?_⟩
    by_cases hsubnormal : @UnpackedFloat.unpackExponent .binary64 x.toModel.toBits.toBitVec = 0#11
    · rw [if_pos hsubnormal]
      by_cases hmantissa : @UnpackedFloat.unpackMantissa .binary64 x.toModel.toBits.toBitVec = 0#52
      · rw [dif_pos hmantissa]
        rfl
      · rw [dif_neg hmantissa]
        rfl
    · rw [if_neg hsubnormal]
      rfl

theorem scalar_isFinite_float (x : Float) : Scalar.isFinite x = x.isFinite := by
  rw [Bool.eq_iff_iff, float_isFinite_iff]
  show (doubleValue? x.toBits).isSome = true ↔ x.toBits.toNat / 0x10000000000000 % 2048 ≠ 2047
  unfold doubleValue?
  dsimp only
  by_cases h : x.toBits.toNat / 0x10000000000000 % 2048 = 2047
  · rw [if_pos h]
    exact ⟨nofun, fun hother => absurd h hother⟩
  · rw [if_neg h]
    refine ⟨fun _ => h, fun _ => ?_⟩
    split
    next => rfl
    next => split <;> rfl

theorem float_defined_of_isFinite (h : x.isFinite = true) : x.isNaN = false := by
  have hfinite : x.toModel.unpack.isFinite = true := h
  show x.toModel.unpack.isNaN = false
  cases hx : x.toModel.unpack with
  | notANumber =>
    rw [hx] at hfinite
    cases hfinite
  | infinity | zero | finite => rfl

theorem infinity_compare {u : UnpackedFloat} (hu : u.isFinite = true) :
    (UnpackedFloat.infinity .positive).compare u = some .gt := by
  cases u with
  | notANumber | infinity => cases hu
  | zero | finite => rfl

theorem compare_infinity {u : UnpackedFloat} (hu : u.isFinite = true) :
    u.compare (UnpackedFloat.infinity .negative) = some .gt := by
  cases u with
  | notANumber | infinity => cases hu
  | zero s | finite s => cases s <;> rfl

/-- What lies between finite values is finite. -/
theorem float_isFinite_of_between (hlo : lo.isFinite = true) (hhi : hi.isFinite = true) (h : Within lo hi x) :
    x.isFinite = true := by
  have hbelow := float_le_iff.mp h.1
  have habove := float_le_iff.mp h.2
  have hdefined : x.toModel.unpack.isNaN = false := (float_defined_of_le h.1).2
  show x.toModel.unpack.isFinite = true
  cases hx : x.toModel.unpack with
  | zero | finite => rfl
  | notANumber =>
    rw [hx] at hdefined
    cases hdefined
  | infinity s =>
    cases s with
    | positive =>
      rw [hx, infinity_compare hhi] at habove
      cases habove
    | negative =>
      rw [hx, compare_infinity hlo] at hbelow
      cases hbelow

end Playback
