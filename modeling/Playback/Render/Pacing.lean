import Playback.Config.Basic
import Playback.Media.Frame

/-!
# Pacing of pictures

How long a picture stays before the next one is due (`VideoFrame.interval`), and how this time is
stretched or shortened while video is ahead of the master clock or behind it
(`SyncConfig.targetDelay?`).
-/

namespace Playback

variable {R : Type} [Scalar R]

/-- The time between two pictures of one generation: the difference of their timestamps where it is
credible, and otherwise the nominal duration of the first one. Between generations there is none. -/
def VideoFrame.interval (current next : VideoFrame R) (longest : R) : R :=
  if current.serial ≠ next.serial then 0.0
  else
    let gap := next.pts - current.pts
    if Scalar.isNaN gap ∨ gap ≤ 0.0 ∨ longest < gap then current.duration else gap

/-- The wait before the next picture, given the nominal wait and how far video is ahead of the master.
Undefined and very large differences are not corrected, nor are those within a threshold that follows the
wait between two limits. Video that is behind waits less; video that is ahead waits longer by the
difference, or twice as long if the wait is short. The limits must be in order. -/
def SyncConfig.targetDelay? (c : SyncConfig R) (delay diff : R) : Option R :=
  if Scalar.isNaN diff ∨ c.maxFrameDuration ≤ Scalar.abs diff then some delay
  else if ¬ c.thresholdMin ≤ c.thresholdMax then none
  else
    let threshold := Scalar.clamp delay c.thresholdMin c.thresholdMax
    if diff ≤ -threshold then some (Scalar.max (delay + diff) 0.0)
    else if threshold ≤ diff ∧ c.repeatThreshold < delay then some (delay + diff)
    else if threshold ≤ diff then some (2.0 * delay)
    else some delay

end Playback
