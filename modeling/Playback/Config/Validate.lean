import Playback.Config.Basic
import Playback.Error
import Playback.TextScalar

/-!
# Which configurations are accepted

`PlayerConfig.fault?` finds the first thing that is wrong with a configuration. The order matters, since
only that fault is reported: the order of the two thresholds, finite values, the refresh rate, positive
limits, ring capacities, the volume, the audio format.
-/

namespace Playback

/-- What can be wrong with a configuration. -/
inductive ConfigFault (R : Type) where
  /-- The lower threshold is not positive or above the upper one. -/
  | thresholds (low high : R)
  | notFinite (field : String) (value : R)
  | refreshRate (value : R)
  /-- The longest frame duration or the largest correctable difference is not positive. -/
  | limits
  | ringCapacity
  | volume (value : R)
  | audioFormat

variable {R : Type} [TextScalar R]

open TextScalar (plain)

/-- The longest refresh interval, in seconds. -/
def maxRefreshRate : R := 1.0

/-- The text of a fault. -/
def ConfigFault.message : ConfigFault R → String
  | thresholds low high =>
    "sync_threshold_min (" ++ plain low ++ ") 必须为正且不大于 sync_threshold_max (" ++ plain high ++ ")"
  | notFinite field value => field ++ " 必须为有限值: " ++ plain value
  | refreshRate value =>
    "refresh_rate 必须在 (0, " ++ plain (maxRefreshRate : R) ++ "] 秒内: " ++ plain value
  | limits => "max_frame_duration / nosync_threshold 必须为正"
  | ringCapacity => "环形缓冲容量不能为 0"
  | volume value => "音量超出范围 [0, 1]: " ++ plain value
  | audioFormat => "采样率和声道数必须为正"

/-- The values of the synchronisation section that must be finite, with their names. -/
def SyncConfig.thresholds (c : SyncConfig R) : List (String × R) :=
  [ ("sync_threshold_min", c.thresholdMin),
    ("sync_threshold_max", c.thresholdMax),
    ("framedup_threshold", c.repeatThreshold),
    ("nosync_threshold", c.nosyncThreshold),
    ("max_frame_duration", c.maxFrameDuration),
    ("refresh_rate", c.refreshRate) ]

/-- The section with each of these values changed, given its name. -/
def SyncConfig.mapThresholds (c : SyncConfig R) (f : String → R → R) : SyncConfig R :=
  { c with
    thresholdMin := f "sync_threshold_min" c.thresholdMin
    thresholdMax := f "sync_threshold_max" c.thresholdMax
    repeatThreshold := f "framedup_threshold" c.repeatThreshold
    nosyncThreshold := f "nosync_threshold" c.nosyncThreshold
    maxFrameDuration := f "max_frame_duration" c.maxFrameDuration
    refreshRate := f "refresh_rate" c.refreshRate }

/-- The first fault of a configuration. -/
def PlayerConfig.fault? (c : PlayerConfig R) : Option (ConfigFault R) :=
  if c.sync.thresholdMin ≤ 0.0 ∨ c.sync.thresholdMax < c.sync.thresholdMin then
    some (.thresholds c.sync.thresholdMin c.sync.thresholdMax)
  else
    match c.sync.thresholds.find? fun (_, value) => !Scalar.isFinite value with
    | some (field, value) => some (.notFinite field value)
    | none =>
      if c.sync.refreshRate ≤ 0.0 ∨ maxRefreshRate < c.sync.refreshRate then
        some (.refreshRate c.sync.refreshRate)
      else if c.sync.maxFrameDuration ≤ 0.0 ∨ c.sync.nosyncThreshold ≤ 0.0 then some .limits
      else if c.buffer.videoRingCapacity = 0 ∨ c.buffer.audioRingCapacity = 0 then
        some .ringCapacity
      else if ¬ (0.0 ≤ c.audio.volume ∧ c.audio.volume ≤ 1.0) then some (.volume c.audio.volume)
      else if c.audio.wantedSampleRate = 0 ∨ c.audio.wantedChannels = 0 then some .audioFormat
      else none

/-- The configuration itself, unless it has a fault. -/
def PlayerConfig.validate (c : PlayerConfig R) : Except PlayerError (PlayerConfig R) :=
  match c.fault? with
  | some fault => .error (.invalidConfig fault.message)
  | none => .ok c

end Playback
