import Mathlib.Data.Rat.Floor
import Mathlib.Tactic.FieldSimp
import Mathlib.Tactic.Linarith
import Mathlib.Tactic.Positivity
import Mathlib.Tactic.Ring
import Playback.Media.Ratio
import Playback.Proofs.PacketQueue.Accounts

/-!
# Timestamps in other time bases

`Ratio.rescale` works on magnitudes: it adds half of the denominator to the numerator before it divides, and puts the
sign back. Whatever the signs of the four parts are, that is the exact value rounded to the nearest integer, a half
away from zero (`roundDiv_nearest`).

Its steps are meant for registers of 128 bits. `rescaleInRegisters` carries them out one by one and gives up where one
of them does not fit; for parts of 32 bits and timestamps of 64 bits it never does (`rescaleInRegisters_eq`), since the
products stay below `2^126`.

A time base with shorter ticks keeps a timestamp apart from its neighbours: the error of half a short tick is less than
half a long one, so that the way back finds the timestamp again (`returns_nearest`).
-/

namespace Playback

/-! ## The nearest integer -/

/-- No integer is nearer to the value, and none that is as near is further from zero. -/
structure NearestAway (q : Rat) (n : Int) : Prop where
  nearest : ∀ k : Int, |q - n| ≤ |q - k|
  away : ∀ k : Int, |q - k| = |q - n| → |k| ≤ |n|

namespace NearestAway

variable {q : Rat} {n m : Int}

/-- Every other integer is at least half a unit away if one is no further than that. -/
theorem half_le_of_ne {k : Int} (hle : |q - n| ≤ 1 / 2) (hne : n ≠ k) : 1 / 2 ≤ |q - k| := by
  have hapart : (1 : Rat) ≤ |(n : Rat) - k| := by
    have hint : (1 : Int) ≤ |n - k| := Int.one_le_abs (sub_ne_zero.mpr hne)
    exact_mod_cast hint
  have htriangle := abs_sub_le (n : Rat) q k
  rw [abs_sub_comm (n : Rat) q] at htriangle
  linarith

/-- What is nearer than half a unit is the nearest, and so is the outer one of two that are just as near. -/
theorem of_half (h : |q - n| < 1 / 2 ∨ (|q - n| = 1 / 2 ∧ |q| < |(n : Rat)|)) : NearestAway q n := by
  have hle : |q - n| ≤ 1 / 2 := h.elim le_of_lt fun h => h.1.le
  refine ⟨fun k => ?_, fun k hsame => ?_⟩
  · by_cases hne : n = k
    · rw [hne]
    · exact hle.trans (half_le_of_ne hle hne)
  · by_cases hne : n = k
    · rw [hne]
    · have hfar := half_le_of_ne hle hne
      rcases h with h | ⟨hhalf, houter⟩
      · linarith
      · -- `k` is half a unit from the value, and the value is nearer to zero than `n`
        have htriangle := abs_sub_abs_le_abs_sub (k : Rat) q
        rw [abs_sub_comm (k : Rat) q, hsame, hhalf] at htriangle
        have hlt : |(k : Rat)| < |(n : Rat)| + 1 := by linarith
        exact Int.lt_add_one_iff.mp (by exact_mod_cast hlt)

theorem abs_sub_le_half (h : NearestAway q n) : |q - n| ≤ 1 / 2 :=
  (h.nearest (round q)).trans (abs_sub_round q)

theorem unique (hn : NearestAway q n) (hm : NearestAway q m) : n = m := by
  have hsame : |q - n| = |q - m| := le_antisymm (hn.nearest m) (hm.nearest n)
  rcases abs_eq_abs.mp (le_antisymm (hm.away n hsame) (hn.away m hsame.symm)) with heq | heq
  · exact heq
  · -- two opposite integers are as near to zero only, and zero itself is nearer
    rw [heq, Int.cast_neg] at hsame
    rcases abs_eq_abs.mp hsame with hq | hq
    · have hzero : (m : Rat) = 0 := by linarith
      rw [heq, Int.cast_eq_zero.mp hzero, neg_zero]
    · have hzero : q = 0 := by linarith
      have hm0 := hm.nearest 0
      rw [hzero, Int.cast_zero, sub_self, abs_zero, zero_sub, abs_neg] at hm0
      have hm' : m = 0 := Int.cast_eq_zero.mp (abs_nonpos_iff.mp hm0)
      rw [heq, hm', neg_zero]

theorem neg (h : NearestAway q n) : NearestAway (-q) (-n) := by
  have hmirror (k : Int) : |-q - k| = |q - (-k : Int)| := by
    rw [← abs_neg, Int.cast_neg]
    ring_nf
  refine ⟨fun k => ?_, fun k hsame => ?_⟩
  · rw [hmirror, hmirror, neg_neg]
    exact h.nearest (-k)
  · rw [hmirror, hmirror, neg_neg] at hsame
    have haway := h.away (-k) hsame
    rwa [abs_neg] at haway ⊢

end NearestAway

namespace Ratio

/-! ## One division -/

/-- A quotient of integers, by its magnitude and its sign. -/
theorem div_magnitudes (num den : Int) :
    (num : Rat) / den = if 0 ≤ num ↔ 0 ≤ den then (num.natAbs : Rat) / den.natAbs
      else -((num.natAbs : Rat) / den.natAbs) := by
  rw [Nat.cast_natAbs, Nat.cast_natAbs]
  rcases lt_or_ge num 0 with hnum | hnum <;> rcases lt_or_ge den 0 with hden | hden
  · rw [if_pos (by omega), abs_of_neg hnum, abs_of_neg hden, Int.cast_neg, Int.cast_neg, neg_div_neg_eq]
  · rw [if_neg (by omega), abs_of_neg hnum, abs_of_nonneg hden, Int.cast_neg, neg_div, neg_neg]
  · rw [if_neg (by omega), abs_of_nonneg hnum, abs_of_neg hden, Int.cast_neg, div_neg, neg_neg]
  · rw [if_pos (by omega), abs_of_nonneg hnum, abs_of_nonneg hden]

/-- Half of the denominator more, and the integer part is the nearest integer. -/
theorem magnitude_nearest (n : Nat) {d : Nat} (hd : 0 < d) :
    NearestAway ((n : Rat) / d) ((n + d / 2) / d : Nat) := by
  generalize hm : (n + d / 2) / d = m
  have hlow : d * m ≤ n + d / 2 := by
    rw [← hm]
    exact Nat.mul_div_le _ _
  have hhigh : n + d / 2 < d * m + d := by
    rw [← hm, ← Nat.mul_succ]
    exact Nat.lt_mul_div_succ _ hd
  have hlow' : ((2 * (d * m) : Nat) : Rat) ≤ (2 * n + d : Nat) := Nat.cast_le.mpr (by omega)
  have hhigh' : ((2 * n : Nat) : Rat) < (2 * (d * m) + d : Nat) := Nat.cast_lt.mpr (by omega)
  push_cast at hlow' hhigh'
  have hpos : (0 : Rat) < d := Nat.cast_pos.mpr hd
  have hvalue : (n : Rat) = d * (n / d) := by field_simp
  generalize (n : Rat) / d = q at hvalue ⊢
  rw [hvalue] at hlow' hhigh'
  have hbelow : (m : Rat) - q ≤ 1 / 2 := by
    have : d * (2 * (m : Rat)) ≤ d * (2 * q + 1) := by linarith
    linarith [le_of_mul_le_mul_left this hpos]
  have habove : q - m < 1 / 2 := by
    have : d * (2 * q) < d * (2 * (m : Rat) + 1) := by linarith
    linarith [lt_of_mul_lt_mul_left this hpos.le]
  have hq : 0 ≤ q := by
    have : 0 ≤ d * q := by
      rw [← hvalue]
      exact Nat.cast_nonneg n
    exact nonneg_of_mul_nonneg_right this hpos
  apply NearestAway.of_half
  rw [Int.cast_natCast]
  rcases hbelow.lt_or_eq with hlt | heq
  · exact .inl (abs_lt.mpr ⟨by linarith, habove⟩)
  · refine .inr ⟨?_, ?_⟩
    · rw [abs_sub_comm, heq, abs_of_pos one_half_pos]
    · rw [abs_of_nonneg hq, Nat.abs_cast]
      linarith

theorem roundDiv_nearest (num : Int) {den : Int} (hden : den ≠ 0) :
    NearestAway ((num : Rat) / den) (roundDiv num den) := by
  have hmagnitude := magnitude_nearest num.natAbs (Int.natAbs_pos.mpr hden)
  rw [div_magnitudes, roundDiv]
  split
  next => exact hmagnitude
  next => exact hmagnitude.neg

/-- A value rescaled is the nearest integer, as a 64-bit number. -/
theorem rescale_nearest {source target : Ratio} (hden : source.den ≠ 0) (hnum : target.num ≠ 0) (ts : Int) :
    ∃ n : Int, NearestAway (ts * source.num * target.den / (source.den * target.num)) n ∧
      source.rescale ts target = wrap64 n := by
  have hden' : scaledDen source target ≠ 0 := Int.mul_ne_zero hden hnum
  have hnearest := roundDiv_nearest (scaledNum source ts target) hden'
  refine ⟨_, ?_, if_neg (not_or.mpr ⟨hnum, hden⟩)⟩
  rw [scaledNum, scaledDen] at hnearest
  push_cast at hnearest
  exact hnearest

theorem wrap64_wrap64 (i : Int) : wrap64 (wrap64 i) = wrap64 i :=
  Int.bmod_bmod

theorem wrap64_rescale (source : Ratio) (ts : Int) (target : Ratio) :
    wrap64 (source.rescale ts target) = source.rescale ts target := by
  unfold rescale
  split
  next => rfl
  next => exact wrap64_wrap64 _

/-- In its own time base a timestamp stays as it is. -/
theorem rescale_self {base : Ratio} (hnum : base.num ≠ 0) (hden : base.den ≠ 0) (ts : Int) :
    base.rescale ts base = wrap64 ts := by
  obtain ⟨n, hn, hrescaled⟩ := rescale_nearest hden hnum ts
  have hnum' : (base.num : Rat) ≠ 0 := Int.cast_ne_zero.mpr hnum
  have hden' : (base.den : Rat) ≠ 0 := Int.cast_ne_zero.mpr hden
  have hvalue : (ts * base.num * base.den / (base.den * base.num) : Rat) = ts := by field_simp
  have hself : NearestAway (ts : Rat) ts := .of_half (.inl (by simp))
  rw [hvalue] at hn
  rw [hrescaled, hn.unique hself]

/-! ## There and back -/

/-- A value that was stretched and rounded is found again. -/
theorem returns_nearest {ts n : Int} {k : Rat} (hk : 1 ≤ k) (h : NearestAway (ts * k) n) :
    NearestAway (n / k) ts := by
  apply NearestAway.of_half
  left
  have hpos : 0 < k := lt_of_lt_of_le one_pos hk
  have herror : |(n : Rat) / k - ts| = |ts * k - n| / k := by
    rw [abs_sub_comm (ts * k), ← abs_of_pos hpos, ← abs_div, abs_of_pos hpos]
    congr 1
    field_simp
  rw [herror, div_lt_iff₀ hpos]
  rcases hk.lt_or_eq with hlt | rfl
  · have hhalf := h.abs_sub_le_half
    linarith
  · -- nothing was stretched, and the timestamp itself is the nearest integer
    have hsame := h.nearest ts
    rw [mul_one, sub_self, abs_zero] at hsame
    rw [mul_one]
    linarith

/-! ## Registers -/

/-- Whether an integer is a signed number of so many bits. -/
def FitsBits (bits : Nat) (i : Int) : Prop :=
  -(2 ^ (bits - 1) : Int) ≤ i ∧ i < 2 ^ (bits - 1)

instance (bits : Nat) (i : Int) : Decidable (FitsBits bits i) :=
  inferInstanceAs (Decidable (_ ∧ _))

/-- Whether both parts of a ratio are 32-bit numbers. -/
def Fits (r : Ratio) : Prop :=
  FitsBits 32 r.num ∧ FitsBits 32 r.den

instance (r : Ratio) : Decidable r.Fits :=
  inferInstanceAs (Decidable (_ ∧ _))

/-- A number in a register of 128 bits; nothing if it does not fit. -/
def register (i : Int) : Option Int :=
  if FitsBits 128 i then some i else none

/-- The integer nearest to `num / den`, computed in registers one step after the other. -/
def roundDivInRegisters (num den : Int) : Option Int := do
  let divisor ← register den.natAbs
  let half ← register (divisor.tdiv 2)
  let size ← register num.natAbs
  let raised ← register (size + half)
  let magnitude ← register (raised.tdiv divisor)
  if (0 ≤ num) ↔ (0 ≤ den) then some magnitude else register (-magnitude)

/-- The timestamp `ts` of the time base `source` in ticks of `target`, computed in registers. -/
def rescaleInRegisters (source : Ratio) (ts : Int) (target : Ratio) : Option Int :=
  if target.num = 0 ∨ source.den = 0 then some 0
  else do
    let scaled ← register (ts * source.num)
    let num ← register (scaled * target.den)
    let den ← register (source.den * target.num)
    let rounded ← roundDivInRegisters num den
    some (wrap64 rounded)

theorem FitsBits.natAbs_le {bits bound : Nat} {i : Int} (h : FitsBits bits i) (hbound : 2 ^ (bits - 1) = bound) :
    i.natAbs ≤ bound := by
  obtain ⟨hlow, hhigh⟩ := h
  have hcast : (bound : Int) = 2 ^ (bits - 1) := by
    rw [← hbound]
    push_cast
    rfl
  omega

theorem register_of_natAbs {i : Int} (h : i.natAbs < 0x80000000000000000000000000000000) : register i = some i := by
  apply if_pos
  unfold FitsBits
  norm_num
  omega

theorem roundDivInRegisters_eq {num den : Int} (hnum : num.natAbs < 0x40000000000000000000000000000000)
    (hden : den.natAbs < 0x40000000000000000000000000000000) :
    roundDivInRegisters num den = some (roundDiv num den) := by
  have hhalf : (den.natAbs : Int).tdiv 2 = (den.natAbs / 2 : Nat) := (Int.ofNat_tdiv ..).symm
  have hdivided : ((num.natAbs : Int) + (den.natAbs / 2 : Nat)).tdiv den.natAbs
      = ((num.natAbs + den.natAbs / 2) / den.natAbs : Nat) := by
    rw [← Int.natCast_add]
    exact (Int.ofNat_tdiv ..).symm
  have hmagnitude := Nat.div_le_self (num.natAbs + den.natAbs / 2) den.natAbs
  unfold roundDivInRegisters roundDiv
  generalize (num.natAbs + den.natAbs / 2) / den.natAbs = magnitude at hdivided hmagnitude ⊢
  simp only [Option.bind_eq_bind]
  rw [register_of_natAbs (by omega), Option.bind_some, hhalf, register_of_natAbs (by omega), Option.bind_some,
    register_of_natAbs (by omega), Option.bind_some, register_of_natAbs (by omega), Option.bind_some, hdivided,
    register_of_natAbs (by omega), Option.bind_some]
  split
  next => rfl
  next => exact register_of_natAbs (by omega)

theorem rescaleInRegisters_eq {source target : Ratio} (hsource : source.Fits) (htarget : target.Fits) {ts : Int}
    (hts : FitsBits 64 ts) : source.rescaleInRegisters ts target = some (source.rescale ts target) := by
  unfold rescaleInRegisters rescale
  split
  next => rfl
  next =>
    have hscaled : (ts * source.num).natAbs ≤ 0x8000000000000000 * 0x80000000 := by
      rw [Int.natAbs_mul]
      exact Nat.mul_le_mul (hts.natAbs_le (by norm_num)) (hsource.1.natAbs_le (by norm_num))
    have hnum : (ts * source.num * target.den).natAbs ≤ 0x8000000000000000 * 0x80000000 * 0x80000000 := by
      rw [Int.natAbs_mul]
      exact Nat.mul_le_mul hscaled (htarget.2.natAbs_le (by norm_num))
    have hden : (source.den * target.num).natAbs ≤ 0x80000000 * 0x80000000 := by
      rw [Int.natAbs_mul]
      exact Nat.mul_le_mul (hsource.2.natAbs_le (by norm_num)) (htarget.1.natAbs_le (by norm_num))
    simp only [Option.bind_eq_bind]
    rw [register_of_natAbs (by omega), Option.bind_some, register_of_natAbs (by omega), Option.bind_some,
      register_of_natAbs (by omega), Option.bind_some, roundDivInRegisters_eq (by omega) (by omega)]
    rfl

/-! ## Timestamps -/

theorem FitsBits.wrap64_eq {i : Int} (h : FitsBits 64 i) : wrap64 i = i := by
  obtain ⟨hlow, hhigh⟩ := h
  norm_num at hlow hhigh
  exact wrap64_of_fits hlow hhigh

/-- **Rescaling is exact.** Let the parts of two time bases be 32-bit numbers of any signs, a tick of the source not
without a denominator and one of the target not without a numerator. Then no step of rescaling a 64-bit timestamp
overflows 128 bits, and there is exactly one integer nearest to the exact value, with a half going away from zero; the
result is that integer, wrapped around to 64 bits if it does not fit.

If all parts are positive, the ticks of the target are no longer than those of the source and the result fits, then
rescaling it back gives the timestamp again. -/
theorem rescaled_exactly {source target : Ratio} (hsource : source.Fits) (htarget : target.Fits)
    (hden : source.den ≠ 0) (hnum : target.num ≠ 0) {ts : Int} (hts : FitsBits 64 ts) :
    source.rescaleInRegisters ts target = some (source.rescale ts target) ∧
    ∃ n : Int, NearestAway (ts * source.num * target.den / (source.den * target.num)) n ∧
      (∀ m, NearestAway (ts * source.num * target.den / (source.den * target.num)) m → m = n) ∧
      source.rescale ts target = wrap64 n ∧
      (FitsBits 64 n → source.rescale ts target = n) ∧
      (0 < source.num → 0 < source.den → 0 < target.num → 0 < target.den →
        (target.num / target.den : Rat) ≤ source.num / source.den → FitsBits 64 n →
        target.rescale (source.rescale ts target) source = ts) := by
  refine ⟨rescaleInRegisters_eq hsource htarget hts, ?_⟩
  obtain ⟨n, hn, hrescaled⟩ := rescale_nearest hden hnum ts
  refine ⟨n, hn, fun m hm => hm.unique hn, hrescaled, fun hfits => hrescaled.trans hfits.wrap64_eq,
    fun hsn hsd htn htd hticks hfits => ?_⟩
  have hsn' : (0 : Rat) < source.num := Int.cast_pos.mpr hsn
  have hsd' : (0 : Rat) < source.den := Int.cast_pos.mpr hsd
  have htn' : (0 : Rat) < target.num := Int.cast_pos.mpr htn
  have htd' : (0 : Rat) < target.den := Int.cast_pos.mpr htd
  -- how many ticks of the target one of the source is
  have hstretch : 1 ≤ (source.num * target.den / (source.den * target.num) : Rat) := by
    rw [div_le_div_iff₀ htd' hsd'] at hticks
    rw [one_le_div (mul_pos hsd' htn')]
    linarith
  have hforth : (ts * source.num * target.den / (source.den * target.num) : Rat)
      = ts * (source.num * target.den / (source.den * target.num)) := by ring
  have hback : (n * target.num * source.den / (target.den * source.num) : Rat)
      = n / (source.num * target.den / (source.den * target.num)) := by field_simp
  rw [hforth] at hn
  obtain ⟨m, hm, hreturned⟩ := rescale_nearest htd.ne' hsn.ne' n
  rw [hback] at hm
  rw [hrescaled, hfits.wrap64_eq, hreturned, hm.unique (returns_nearest hstretch hn), hts.wrap64_eq]

/-- A timestamp near the end of its range, from samples to ticks of 90 kHz and back. -/
theorem samples_there_and_back :
    let samples : Ratio := ⟨1, 44100⟩
    let ticks : Ratio := ⟨1, 90000⟩
    let ts : Int := -4000000000000000001
    samples.Fits ∧ ticks.Fits ∧ FitsBits 64 ts ∧
      samples.rescaleInRegisters ts ticks = some (-8163265306122448982) ∧
      samples.rescale ts ticks = -8163265306122448982 ∧ ticks.rescale (-8163265306122448982) samples = ts := by
  intro samples ticks ts
  have hsamples : samples.Fits := by decide
  have hticks : ticks.Fits := by decide
  have hts : FitsBits 64 ts := by decide
  have hresult : samples.rescale ts ticks = -8163265306122448982 := by decide
  obtain ⟨hregisters, n, hn, honly, -, -, hreturns⟩ := rescaled_exactly hsamples hticks (by decide) (by decide) hts
  have hnearest : NearestAway (ts * samples.num * ticks.den / (samples.den * ticks.num)) (-8163265306122448982) := by
    apply NearestAway.of_half
    left
    norm_num [samples, ticks, ts, abs_lt]
  have hfits : FitsBits 64 n := by
    rw [← honly _ hnearest]
    decide
  have hback := hreturns (by decide) (by decide) (by decide) (by decide) (by norm_num [samples, ticks]) hfits
  rw [hresult] at hregisters hback
  exact ⟨hsamples, hticks, hts, hregisters, hresult, hback⟩

/-- A half goes away from zero, on whichever side the sign stands. -/
example : (⟨1, -2⟩ : Ratio).rescale 3 ⟨1, 1⟩ = -2 ∧ (⟨-1, 2⟩ : Ratio).rescale (-3) ⟨1, 1⟩ = 2 := by decide

end Ratio
end Playback
