import Playback.Proofs.Render.Delay

/-!
# Which way waits are corrected

Video that is behind the master waits less for its next picture and video that is ahead waits longer, as far as the
difference is credible and above a threshold. Under an accepted configuration the rule always has an answer, also on
doubles, since only comparisons decide (`targetDelay_answers`). Without rounding the answer is never below zero and
grows with the difference (`wait_corrected`).

For a credible difference the rule is `correctedWait`, a function on fractions in three pieces. It is increasing on each
of them, and at most, exactly, or at least the nominal wait there.
-/

namespace Playback

open Exact

/-! ## The rule on fractions -/

/-- The wait for a credible difference, given the nominal wait. -/
def correctedWait (threshold repeats delay x : Rat) : Rat :=
  if x ≤ -threshold then max (delay + x) 0
  else if x < threshold then delay
  else if repeats < delay then delay + x
  else 2 * delay

/-- The wait for any difference. -/
def waitFor (threshold repeats longest delay : Rat) : Exact → Rat
  | finite x => if longest ≤ |x| then delay else correctedWait threshold repeats delay x
  | _ => delay

variable {threshold repeats longest delay x : Rat}

theorem correctedWait_near (low : -threshold < x) (high : x < threshold) :
    correctedWait threshold repeats delay x = delay := by
  rw [correctedWait, if_neg (Rat.not_le.mpr low), if_pos high]

/-- Behind by the threshold or more. -/
theorem correctedWait_behind (far : x ≤ -threshold) :
    correctedWait threshold repeats delay x = max (delay + x) 0 :=
  if_pos far

/-- Ahead by the threshold or more. -/
theorem correctedWait_ahead (positive : 0 < threshold) (far : threshold ≤ x) :
    correctedWait threshold repeats delay x = if repeats < delay then delay + x else 2 * delay := by
  rw [correctedWait, if_neg (by linarith), if_neg (Rat.not_lt.mpr far)]

theorem correctedWait_nonneg (positive : 0 < threshold) (nonneg : 0 ≤ delay) :
    0 ≤ correctedWait threshold repeats delay x := by
  unfold correctedWait
  split
  next => exact le_max_right ..
  next =>
    split
    next => exact nonneg
    next => split <;> linarith

/-- Video that is not far ahead waits no longer. -/
theorem correctedWait_le (positive : 0 < threshold) (nonneg : 0 ≤ delay) (h : x < threshold) :
    correctedWait threshold repeats delay x ≤ delay := by
  by_cases hfar : x ≤ -threshold
  · rw [correctedWait_behind hfar]
    exact max_le (by linarith) nonneg
  · exact le_of_eq (correctedWait_near (Rat.not_le.mp hfar) h)

/-- Video that is not far behind waits no less. -/
theorem le_correctedWait (positive : 0 < threshold) (nonneg : 0 ≤ delay) (h : -threshold < x) :
    delay ≤ correctedWait threshold repeats delay x := by
  by_cases hfar : threshold ≤ x
  · rw [correctedWait_ahead positive hfar]
    split <;> linarith
  · exact ge_of_eq (correctedWait_near h (Rat.not_le.mp hfar))

theorem correctedWait_mono (positive : 0 < threshold) (nonneg : 0 ≤ delay) :
    Monotone (correctedWait threshold repeats delay) := by
  intro x y h
  by_cases hbehind : y ≤ -threshold
  · rw [correctedWait_behind (h.trans hbehind), correctedWait_behind hbehind]
    exact max_le_max_right 0 (by linarith)
  · by_cases hahead : threshold ≤ x
    · rw [correctedWait_ahead positive hahead, correctedWait_ahead positive (hahead.trans h)]
      split <;> linarith
    · -- the nominal wait lies between the two
      exact (correctedWait_le positive nonneg (Rat.not_le.mp hahead)).trans
        (le_correctedWait positive nonneg (Rat.not_le.mp hbehind))

/-- Video that is far behind waits less, if there is something to take off. -/
theorem correctedWait_lt (positive : 0 < threshold) (nominal : 0 < delay) (far : x ≤ -threshold) :
    correctedWait threshold repeats delay x < delay := by
  rw [correctedWait_behind far]
  exact max_lt (by linarith) nominal

/-- Video that is far ahead waits longer. -/
theorem lt_correctedWait (positive : 0 < threshold) (nominal : 0 < delay) (far : threshold ≤ x) :
    delay < correctedWait threshold repeats delay x := by
  rw [correctedWait_ahead positive far]
  split <;> linarith

/-! ## Configurations -/

/-- As long as the limits are in order there is an answer. -/
theorem SyncConfig.targetDelay_isSome {R : Type} [Scalar R] {c : SyncConfig R} (ordered : c.thresholdMin ≤ c.thresholdMax)
    (delay diff : R) : (c.targetDelay? delay diff).isSome = true := by
  unfold targetDelay?
  split
  next => rfl
  next =>
    dsimp only
    repeat' split
    all_goals rfl

/-- Under an accepted configuration every wait is answered, for all doubles. -/
theorem PlayerConfig.targetDelay_answers {c : PlayerConfig Float} (accepted : c.validate = .ok c) (delay diff : Float) :
    (c.sync.targetDelay? delay diff).isSome = true := by
  have hthresholds := (accepted_iff.mp (validate_eq_ok.mp accepted).1).thresholds
  have hfinite := thresholds_finite accepted
  simp only [SyncConfig.thresholds, List.forall_mem_cons] at hfinite
  have hlow := float_defined_of_isFinite hfinite.1
  have hhigh := float_defined_of_isFinite hfinite.2.1
  exact SyncConfig.targetDelay_isSome
    (float_le_of_not_lt hhigh hlow fun h => hthresholds (.inr h)) delay diff

/-- The limits of an accepted configuration, as fractions. -/
structure SyncConfig.Limits (c : SyncConfig Exact) (low high repeats longest : Rat) : Prop where
  thresholdMin : c.thresholdMin = finite low
  thresholdMax : c.thresholdMax = finite high
  repeatThreshold : c.repeatThreshold = finite repeats
  maxFrameDuration : c.maxFrameDuration = finite longest
  positive : 0 < low
  ordered : low ≤ high

theorem PlayerConfig.sync_limits {c : PlayerConfig Exact} (accepted : c.validate = .ok c) :
    ∃ low high repeats longest, c.sync.Limits low high repeats longest := by
  obtain ⟨low, high, hlow, hhigh, hordered⟩ := (sync_sound accepted).thresholds
  obtain ⟨repeats, hrepeats⟩ := (sync_sound accepted).repeats
  obtain ⟨longest, hlongest⟩ := (sync_sound accepted).longest
  have hpositive := (accepted_iff.mp (validate_eq_ok.mp accepted).1).thresholds
  rw [hlow, zero_eq, finite_le] at hpositive
  exact ⟨low, high, repeats, longest, hlow, hhigh, hrepeats, hlongest,
    Rat.not_le.mp fun h => hpositive (.inl h), hordered⟩

namespace SyncConfig.Limits

variable {c : SyncConfig Exact} {low high repeats longest : Rat}

/-- The threshold follows the wait between its two limits. -/
theorem threshold_pos (h : c.Limits low high repeats longest) (delay : Rat) : 0 < max low (min high delay) :=
  lt_max_of_lt_left h.positive

theorem clamp_eq (h : c.Limits low high repeats longest) (delay : Rat) :
    Scalar.clamp (finite delay) c.thresholdMin c.thresholdMax = finite (max low (min high delay)) := by
  rw [h.thresholdMin, h.thresholdMax, clamp_finite h.ordered]

theorem targetDelay_eq (h : c.Limits low high repeats longest) (delay : Rat) (diff : Exact) :
    c.targetDelay? (finite delay) diff
      = some (finite (waitFor (max low (min high delay)) repeats longest delay diff)) := by
  unfold targetDelay?
  rw [h.clamp_eq, h.repeatThreshold, h.maxFrameDuration]
  cases diff with
  | undefined => exact if_pos (.inl rfl)
  | negInf | posInf => exact if_pos (.inr rfl)
  | finite x =>
    have hordered : c.thresholdMin ≤ c.thresholdMax := by
      rw [h.thresholdMin, h.thresholdMax, finite_le]
      exact h.ordered
    have htwo : (2.0 : Exact) = finite 2 := by norm_num
    simp only [isNaN_finite, abs_finite, Bool.false_eq_true, false_or, finite_le, hordered, not_true_eq_false, if_false,
      finite_neg, zero_eq, finite_add, max_finite, finite_lt, htwo, finite_mul]
    unfold waitFor correctedWait
    split_ifs
    all_goals grind

end SyncConfig.Limits

/-! ## Differences -/

theorem waitFor_credible (h : |x| < longest) :
    waitFor threshold repeats longest delay (finite x) = correctedWait threshold repeats delay x :=
  if_neg (Rat.not_le.mpr h)

/-- A difference that is not credible changes nothing. -/
theorem waitFor_incredible {diff : Exact} (h : ¬ Scalar.abs diff < finite longest) :
    waitFor threshold repeats longest delay diff = delay := by
  cases diff with
  | finite x =>
    rw [abs_finite, finite_lt] at h
    exact if_pos (Rat.not_lt.mp h)
  | undefined | negInf | posInf => rfl

/-- The two kinds of differences. -/
theorem waitFor_cases (threshold repeats longest delay : Rat) (diff : Exact) :
    (∃ x, diff = finite x ∧ |x| < longest ∧
      waitFor threshold repeats longest delay diff = correctedWait threshold repeats delay x) ∨
    waitFor threshold repeats longest delay diff = delay := by
  by_cases h : Scalar.abs diff < finite longest
  · obtain ⟨x, rfl, hx⟩ := abs_lt_finite.mp h
    exact .inl ⟨x, rfl, hx, waitFor_credible hx⟩
  · exact .inr (waitFor_incredible h)

/-- **Waits are corrected in the right direction.** Under an accepted configuration, for a nominal wait that is not
negative and any difference of video to the master, undefined and infinite ones too, the rule has an answer, and it is
not negative. It is the nominal wait if the difference is undefined, no less than the longest frame duration, or less
than the threshold, which is the wait kept between its two limits. Below the longest frame duration it does not
decrease as the difference grows. Video that is behind never waits longer than the nominal wait, and video that is
ahead never less. Where the nominal wait is not zero a credible difference of the threshold or more does change it. -/
theorem wait_corrected (c : PlayerConfig Exact) (accepted : c.validate = .ok c) (delay : Rat) (nonneg : 0 ≤ delay) :
    let longest := c.sync.maxFrameDuration
    let threshold := Scalar.clamp (finite delay) c.sync.thresholdMin c.sync.thresholdMax
    ∃ wait : Exact → Rat,
      (∀ diff, c.sync.targetDelay? (finite delay) diff = some (finite (wait diff)) ∧ 0 ≤ wait diff) ∧
      (∀ diff, diff = undefined ∨ longest ≤ Scalar.abs diff ∨ Scalar.abs diff < threshold → wait diff = delay) ∧
      (∀ diff diff', diff ≤ diff' → Scalar.abs diff < longest → Scalar.abs diff' < longest → wait diff ≤ wait diff') ∧
      (∀ diff, (diff ≤ 0.0 → wait diff ≤ delay) ∧ (0.0 ≤ diff → delay ≤ wait diff)) ∧
      (0 < delay → ∀ diff, Scalar.abs diff < longest →
        (diff ≤ -threshold → wait diff < delay) ∧ (threshold ≤ diff → delay < wait diff)) := by
  intro longest threshold
  obtain ⟨low, high, repeats, most, hlimits⟩ := PlayerConfig.sync_limits accepted
  have hlongest : longest = finite most := hlimits.maxFrameDuration
  have hthreshold : threshold = finite (max low (min high delay)) := hlimits.clamp_eq delay
  have hpositive := hlimits.threshold_pos delay
  have htarget := hlimits.targetDelay_eq delay
  rw [hlongest, hthreshold]
  generalize max low (min high delay) = t at hpositive htarget ⊢
  refine ⟨waitFor t repeats most delay, fun diff => ⟨htarget diff, ?_⟩, fun diff hdiff => ?_,
    fun diff diff' hle h h' => ?_, fun diff => ?_, fun hnominal diff h => ?_⟩
  · rcases waitFor_cases t repeats most delay diff with ⟨x, -, -, hwait⟩ | hwait
    · exact (correctedWait_nonneg hpositive nonneg).trans_eq hwait.symm
    · exact nonneg.trans_eq hwait.symm
  · rcases waitFor_cases t repeats most delay diff with ⟨x, rfl, hx, hwait⟩ | hwait
    · rw [abs_finite, finite_le, finite_lt] at hdiff
      have hnear : |x| < t := (hdiff.resolve_left nofun).resolve_left (Rat.not_le.mpr hx)
      exact hwait.trans (correctedWait_near (abs_lt.mp hnear).1 (abs_lt.mp hnear).2)
    · exact hwait
  · obtain ⟨x, rfl, hx⟩ := abs_lt_finite.mp h
    obtain ⟨y, rfl, hy⟩ := abs_lt_finite.mp h'
    rw [waitFor_credible hx, waitFor_credible hy]
    exact correctedWait_mono hpositive nonneg ((finite_le ..).mp hle)
  · rcases waitFor_cases t repeats most delay diff with ⟨x, rfl, -, hwait⟩ | hwait
    · rw [hwait, zero_eq, finite_le, finite_le]
      exact ⟨fun hx => correctedWait_le hpositive nonneg (by linarith),
        fun hx => le_correctedWait hpositive nonneg (by linarith)⟩
    · exact ⟨fun _ => hwait.le, fun _ => hwait.ge⟩
  · obtain ⟨x, rfl, hx⟩ := abs_lt_finite.mp h
    rw [waitFor_credible hx, finite_neg, finite_le, finite_le]
    exact ⟨correctedWait_lt hpositive hnominal, lt_correctedWait hpositive hnominal⟩

/-- The default configuration at 25 pictures a second: the threshold is the nominal wait. Video that is a twentieth of a
second behind shows the next picture at once, and video that is as much ahead waits twice as long. -/
theorem default_wait_corrected :
    (PlayerConfig.default : PlayerConfig Exact).validate = .ok .default ∧
    ∃ wait : Exact → Rat, (∀ diff, (PlayerConfig.default : PlayerConfig Exact).sync.targetDelay? (finite (1 / 25)) diff
        = some (finite (wait diff))) ∧
      wait undefined = 1 / 25 ∧ wait (finite (-3 / 100)) = 1 / 25 ∧ wait (finite 12) = 1 / 25 ∧
      wait (finite (-1 / 20)) = 0 ∧ wait (finite (1 / 20)) = 2 / 25 := by
  have haccepted : (PlayerConfig.default : PlayerConfig Exact).validate = .ok .default :=
    PlayerConfig.validate_eq_ok.mpr ⟨Option.isNone_iff_eq_none.mp (by decide +kernel), rfl⟩
  obtain ⟨wait, hwait, hunchanged, -⟩ := wait_corrected .default haccepted (1 / 25) (by norm_num)
  have hvalue {diff : Exact} {q : Rat}
      (h : (PlayerConfig.default : PlayerConfig Exact).sync.targetDelay? (finite (1 / 25)) diff = some (finite q)) :
      wait diff = q := Exact.finite.inj (Option.some.inj ((hwait diff).1.symm.trans h))
  exact ⟨haccepted, wait, fun diff => (hwait diff).1, hunchanged _ (.inl rfl),
    hunchanged _ (.inr (.inr (by decide +kernel))), hunchanged _ (.inr (.inl (by decide +kernel))),
    hvalue (by decide +kernel), hvalue (by decide +kernel)⟩

end Playback
