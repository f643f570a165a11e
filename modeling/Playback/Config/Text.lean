import Playback.Config.Validate
import Playback.Json.Fields
import Playback.Json.Parse
import Playback.Json.Print

/-!
# Configurations as JSON texts

Reading fills missing fields with their defaults and validates the result; writing puts every field on a
line of its own, in a fixed order. `toJson` leaves open how scalars are written.
-/

namespace Playback

open Json (Fields readBool readNat readScalar readName)

variable {R : Type} [TextScalar R]

namespace SyncConfig

def fieldNames : List String :=
  ["sync_type", "sync_threshold_min", "sync_threshold_max", "framedup_threshold", "nosync_threshold",
    "max_frame_duration", "refresh_rate", "framedrop"]

def ofJson? (value : Json) : Option (SyncConfig R) := do
  let f ← value.fields? fieldNames
  let d : SyncConfig R := .default
  return {
    syncType := ← f.default "sync_type" d.syncType (readName SyncType.name SyncType.all)
    thresholdMin := ← f.default "sync_threshold_min" d.thresholdMin readScalar
    thresholdMax := ← f.default "sync_threshold_max" d.thresholdMax readScalar
    repeatThreshold := ← f.default "framedup_threshold" d.repeatThreshold readScalar
    nosyncThreshold := ← f.default "nosync_threshold" d.nosyncThreshold readScalar
    maxFrameDuration := ← f.default "max_frame_duration" d.maxFrameDuration readScalar
    refreshRate := ← f.default "refresh_rate" d.refreshRate readScalar
    frameDrop := ← f.default "framedrop" d.frameDrop (readName FrameDrop.name FrameDrop.all) }

def toJson (scalar : R → Json) (c : SyncConfig R) : Json :=
  .record [
    ("sync_type", .text c.syncType.name),
    ("sync_threshold_min", scalar c.thresholdMin),
    ("sync_threshold_max", scalar c.thresholdMax),
    ("framedup_threshold", scalar c.repeatThreshold),
    ("nosync_threshold", scalar c.nosyncThreshold),
    ("max_frame_duration", scalar c.maxFrameDuration),
    ("refresh_rate", scalar c.refreshRate),
    ("framedrop", .text c.frameDrop.name)]

end SyncConfig

namespace BufferConfig

def fieldNames : List String :=
  ["min_frames", "max_queue_bytes", "min_buffer_duration", "video_ring_capacity",
    "audio_ring_capacity", "read_retry_interval_ms", "infinite_buffer"]

def ofJson? (value : Json) : Option (BufferConfig R) := do
  let f ← value.fields? fieldNames
  let d : BufferConfig R := .default
  return {
    minFrames := ← f.default "min_frames" d.minFrames (readNat 64)
    maxQueueBytes := ← f.default "max_queue_bytes" d.maxQueueBytes (readNat 64)
    minDuration := ← f.default "min_buffer_duration" d.minDuration readScalar
    videoRingCapacity := ← f.default "video_ring_capacity" d.videoRingCapacity (readNat 64)
    audioRingCapacity := ← f.default "audio_ring_capacity" d.audioRingCapacity (readNat 64)
    readRetryInterval := ← f.default "read_retry_interval_ms" d.readRetryInterval (readNat 64)
    infinite := ← f.default "infinite_buffer" d.infinite readBool }

def toJson (scalar : R → Json) (c : BufferConfig R) : Json :=
  .record [
    ("min_frames", .int c.minFrames),
    ("max_queue_bytes", .int c.maxQueueBytes),
    ("min_buffer_duration", scalar c.minDuration),
    ("video_ring_capacity", .int c.videoRingCapacity),
    ("audio_ring_capacity", .int c.audioRingCapacity),
    ("read_retry_interval_ms", .int c.readRetryInterval),
    ("infinite_buffer", .bool c.infinite)]

end BufferConfig

namespace AudioConfig

def fieldNames : List String :=
  ["volume", "muted", "continue_on_decode_error", "wanted_sample_rate", "wanted_channels",
    "sample_format", "audio_diff_avg_nb", "sample_correction_percent_max"]

def ofJson? (value : Json) : Option (AudioConfig R) := do
  let f ← value.fields? fieldNames
  let d : AudioConfig R := .default
  return {
    volume := ← f.default "volume" d.volume readScalar
    muted := ← f.default "muted" d.muted readBool
    continueOnDecodeError :=
      ← f.default "continue_on_decode_error" d.continueOnDecodeError readBool
    wantedSampleRate := ← f.default "wanted_sample_rate" d.wantedSampleRate (readNat 32)
    wantedChannels := ← f.default "wanted_channels" d.wantedChannels (readNat 16)
    sampleFormat :=
      ← f.default "sample_format" d.sampleFormat (readName SampleFormat.name SampleFormat.all)
    diffAverageCount := ← f.default "audio_diff_avg_nb" d.diffAverageCount (readNat 32)
    correctionPercentMax :=
      ← f.default "sample_correction_percent_max" d.correctionPercentMax (readNat 32) }

def toJson (scalar : R → Json) (c : AudioConfig R) : Json :=
  .record [
    ("volume", scalar c.volume),
    ("muted", .bool c.muted),
    ("continue_on_decode_error", .bool c.continueOnDecodeError),
    ("wanted_sample_rate", .int c.wantedSampleRate),
    ("wanted_channels", .int c.wantedChannels),
    ("sample_format", .text c.sampleFormat.name),
    ("audio_diff_avg_nb", .int c.diffAverageCount),
    ("sample_correction_percent_max", .int c.correctionPercentMax)]

end AudioConfig

namespace SchedulerConfig

def fieldNames : List String :=
  ["slow_task_warning_ms", "status_dump_interval_ms"]

def ofJson? (value : Json) : Option SchedulerConfig := do
  let f ← value.fields? fieldNames
  let d : SchedulerConfig := .default
  return {
    slowTaskWarning := ← f.default "slow_task_warning_ms" d.slowTaskWarning (readNat 64)
    statusInterval := ← f.default "status_dump_interval_ms" d.statusInterval (readNat 64) }

def toJson (c : SchedulerConfig) : Json :=
  .record [
    ("slow_task_warning_ms", .int c.slowTaskWarning),
    ("status_dump_interval_ms", .int c.statusInterval)]

end SchedulerConfig

namespace PlayerConfig

def fieldNames : List String :=
  ["sync", "buffer", "audio", "scheduler"]

/-- The configuration that a JSON value describes, not yet validated. -/
def ofJson? (value : Json) : Option (PlayerConfig R) := do
  let f ← value.fields? fieldNames
  return {
    sync := ← f.default "sync" .default SyncConfig.ofJson?
    buffer := ← f.default "buffer" .default BufferConfig.ofJson?
    audio := ← f.default "audio" .default AudioConfig.ofJson?
    scheduler := ← f.default "scheduler" .default SchedulerConfig.ofJson? }

def toJson (scalar : R → Json) (c : PlayerConfig R) : Json :=
  .record [
    ("sync", c.sync.toJson scalar),
    ("buffer", c.buffer.toJson scalar),
    ("audio", c.audio.toJson scalar),
    ("scheduler", c.scheduler.toJson)]

/-- The text of a configuration. -/
def toText (c : PlayerConfig R) : String :=
  (c.toJson .ofScalar).pretty

/-- The configuration that a text describes, if it is accepted. -/
def ofText (text : String) : Except PlayerError (PlayerConfig R) :=
  match (Json.parse? text).bind ofJson? with
  | none => .error .malformedConfig
  | some c => c.validate

/-- The configuration in a file; the content is missing if the file cannot be read. -/
def ofFile (path : String) (content : Option ByteArray) : Except PlayerError (PlayerConfig R) :=
  match content.bind String.fromUTF8? with
  | none => .error (.host ("读取配置文件失败: " ++ path))
  | some text => ofText text

end PlayerConfig
end Playback
