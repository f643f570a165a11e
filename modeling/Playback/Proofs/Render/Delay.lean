import Playback.Proofs.Configurations
import Playback.Proofs.Exact
import Playback.Render.Pacing

/-!
# Waits without rounding

The thresholds of an accepted configuration are fractions (`PlayerConfig.sync_sound`). With them the wait
between two pictures is a fraction whatever their timestamps are (`interval_finite`), and stays one when it is
corrected, whatever the clocks read (`targetDelay_finite`).
-/

namespace Playback

open Exact

/-- The thresholds of a synchronisation section are fractions, in their order. -/
structure SyncConfig.Sound (c : SyncConfig Exact) : Prop where
  thresholds : ∃ low high, c.thresholdMin = finite low ∧ c.thresholdMax = finite high ∧ low ≤ high
  repeats : ∃ q, c.repeatThreshold = finite q
  longest : ∃ q, c.maxFrameDuration = finite q
  rate : ∃ q, c.refreshRate = finite q ∧ 0 < q

theorem PlayerConfig.sync_sound {c : PlayerConfig Exact} (accepted : c.validate = .ok c) : c.sync.Sound := by
  have hc := accepted_iff.mp (validate_eq_ok.mp accepted).1
  have hfinite := hc.finite
  simp only [SyncConfig.thresholds, List.forall_mem_cons, isFinite_iff] at hfinite
  obtain ⟨⟨low, hlow⟩, ⟨high, hhigh⟩, hrepeats, -, hlongest, ⟨rate, hrate⟩, -⟩ := hfinite
  have horder := hc.thresholds
  have hpositive := hc.refreshRate
  rw [hlow, hhigh, finite_lt] at horder
  rw [hrate, zero_eq, finite_le] at hpositive
  exact ⟨⟨low, high, hlow, hhigh, Rat.not_lt.mp fun h => horder (.inr h)⟩, hrepeats, hlongest,
    rate, hrate, Rat.not_le.mp fun h => hpositive (.inl h)⟩

/-- The nominal duration is a fraction. -/
def VideoFrame.Lasts (frame : VideoFrame Exact) : Prop :=
  ∃ seconds, frame.duration = finite seconds

theorem VideoFrame.interval_finite {current : VideoFrame Exact} (lasts : current.Lasts)
    (next : VideoFrame Exact) (longest : Rat) : ∃ seconds, current.interval next (finite longest) = finite seconds := by
  unfold interval
  dsimp only
  split
  next => exact ⟨0, zero_eq⟩
  next =>
    split
    next => exact lasts
    next hcredible =>
      -- a credible gap is a fraction, for the other values fail one of the checks
      generalize next.pts - current.pts = gap at hcredible ⊢
      cases gap with
      | finite q => exact ⟨q, rfl⟩
      | undefined => exact absurd (.inl rfl) hcredible
      | negInf => exact absurd (.inr (.inl rfl)) hcredible
      | posInf => exact absurd (.inr (.inr rfl)) hcredible

/-- A gap that is credible is the wait. -/
theorem VideoFrame.interval_credible {current next : VideoFrame Exact} {a b longest : Rat}
    (same : current.serial = next.serial) (hcurrent : current.pts = finite a) (hnext : next.pts = finite b)
    (ordered : a < b) (credible : b - a ≤ longest) : current.interval next (finite longest) = finite (b - a) := by
  have hgap : next.pts - current.pts = finite (b - a) := by rw [hcurrent, hnext, finite_sub]
  have hcredible : ¬ (Scalar.isNaN (finite (b - a)) = true ∨ finite (b - a) ≤ 0.0 ∨
      finite longest < finite (b - a)) := by
    rw [zero_eq, isNaN_finite, finite_le, finite_lt]
    grind
  unfold interval
  dsimp only
  rw [if_neg (not_not_intro same), hgap, if_neg hcredible]

theorem SyncConfig.targetDelay_finite {c : SyncConfig Exact} (sound : c.Sound) (delay : Rat) (diff : Exact) :
    ∃ target, c.targetDelay? (finite delay) diff = some (finite target) := by
  obtain ⟨low, high, hlow, hhigh, horder⟩ := sound.thresholds
  obtain ⟨longest, hlongest⟩ := sound.longest
  unfold targetDelay?
  rw [hlow, hhigh, hlongest]
  cases diff with
  | undefined => exact ⟨delay, if_pos (.inl rfl)⟩
  | negInf | posInf => exact ⟨delay, if_pos (.inr rfl)⟩
  | finite x =>
    dsimp only
    split
    next => exact ⟨delay, rfl⟩
    next =>
      rw [if_neg (not_not_intro ((finite_le ..).mpr horder))]
      split
      next => exact ⟨max (delay + x) 0, by rw [zero_eq, finite_add, max_finite]⟩
      next =>
        split
        next => exact ⟨delay + x, rfl⟩
        next =>
          split
          next => exact ⟨_, rfl⟩
          next => exact ⟨delay, rfl⟩

end Playback
