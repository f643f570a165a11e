import Playback.Json.Fields
import Playback.Json.Parse
import Playback.Json.Print
import Playback.Media.Info

/-!
# Snapshots of a player

`PlayerState` is what a player reports about itself at one moment, and `PlaybackState` the phase it is in.
A snapshot is written as one line of JSON, in which values without a number, such as an unknown duration,
become `null`; reading wants every field and takes `null` for no number.
-/

namespace Playback

inductive PlaybackState where
  | idle
  | opening
  | ready
  | buffering
  | ended
  | error
deriving Repr, DecidableEq, Inhabited

namespace PlaybackState

def all : List PlaybackState := [.idle, .opening, .ready, .buffering, .ended, .error]

def name : PlaybackState → String
  | idle => "idle"
  | opening => "opening"
  | ready => "ready"
  | buffering => "buffering"
  | ended => "ended"
  | error => "error"

/-- The name as it stands in error messages. -/
def title : PlaybackState → String
  | idle => "Idle"
  | opening => "Opening"
  | ready => "Ready"
  | buffering => "Buffering"
  | ended => "Ended"
  | error => "Error"

end PlaybackState

/-- How full the buffers are and what was lost so far. -/
structure BufferStatus where
  videoPackets : Nat
  audioPackets : Nat
  videoFrames : Nat
  audioFrames : Nat
  framesDropped : Nat
  audioUnderruns : Nat
deriving Repr, DecidableEq

def BufferStatus.empty : BufferStatus := ⟨0, 0, 0, 0, 0, 0⟩

structure PlayerState (R : Type) where
  state : PlaybackState
  playWhenReady : Bool
  position : R
  duration : R
  volume : R
  muted : Bool
  mediaInfo : Option (MediaInfo R)
  buffer : BufferStatus
deriving Repr

/-- The snapshot of a player with nothing opened. -/
def PlayerState.initial {R : Type} [Scalar R] : PlayerState R where
  state := .idle
  playWhenReady := false
  position := 0.0
  duration := Scalar.nan
  volume := 1.0
  muted := false
  mediaInfo := none
  buffer := .empty

open Json (Fields readBool readNat readScalar readName readString)

variable {R : Type} [TextScalar R]

namespace MediaInfo

def fieldNames : List String :=
  ["duration", "start_time", "width", "height", "fps", "video_codec", "audio_codec", "sample_rate",
    "channels", "realtime"]

def toJson (scalar : R → Json) (m : MediaInfo R) : Json :=
  .record [
    ("duration", scalar m.duration),
    ("start_time", scalar m.startTime),
    ("width", .int m.width),
    ("height", .int m.height),
    ("fps", scalar m.fps),
    ("video_codec", .text m.videoCodec),
    ("audio_codec", .text m.audioCodec),
    ("sample_rate", .int m.sampleRate),
    ("channels", .int m.channels),
    ("realtime", .bool m.realtime)]

def ofJson? (value : Json) : Option (MediaInfo R) := do
  let f ← value.fields? fieldNames
  return {
    duration := ← f.required "duration" readScalar
    startTime := ← f.required "start_time" readScalar
    width := ← f.required "width" (readNat 32)
    height := ← f.required "height" (readNat 32)
    fps := ← f.required "fps" readScalar
    videoCodec := ← f.required "video_codec" readString
    audioCodec := ← f.required "audio_codec" readString
    sampleRate := ← f.required "sample_rate" (readNat 32)
    channels := ← f.required "channels" (readNat 16)
    realtime := ← f.required "realtime" readBool }

end MediaInfo

namespace BufferStatus

def fieldNames : List String :=
  ["video_packets", "audio_packets", "video_frames", "audio_frames", "frames_dropped",
    "audio_underruns"]

def toJson (b : BufferStatus) : Json :=
  .record [
    ("video_packets", .int b.videoPackets),
    ("audio_packets", .int b.audioPackets),
    ("video_frames", .int b.videoFrames),
    ("audio_frames", .int b.audioFrames),
    ("frames_dropped", .int b.framesDropped),
    ("audio_underruns", .int b.audioUnderruns)]

def ofJson? (value : Json) : Option BufferStatus := do
  let f ← value.fields? fieldNames
  return {
    videoPackets := ← f.required "video_packets" (readNat 64)
    audioPackets := ← f.required "audio_packets" (readNat 64)
    videoFrames := ← f.required "video_frames" (readNat 64)
    audioFrames := ← f.required "audio_frames" (readNat 64)
    framesDropped := ← f.required "frames_dropped" (readNat 64)
    audioUnderruns := ← f.required "audio_underruns" (readNat 64) }

end BufferStatus

/-- `null` for nothing, and otherwise what `read` takes. -/
def readOptional {α : Type} (read : Json → Option α) : Json → Option (Option α)
  | .null => some none
  | value => (read value).map some

namespace PlayerState

def fieldNames : List String :=
  ["state", "play_when_ready", "position", "duration", "volume", "muted", "media_info", "buffer"]

def toJson (scalar : R → Json) (s : PlayerState R) : Json :=
  .record [
    ("state", .text s.state.name),
    ("play_when_ready", .bool s.playWhenReady),
    ("position", scalar s.position),
    ("duration", scalar s.duration),
    ("volume", scalar s.volume),
    ("muted", .bool s.muted),
    ("media_info", (s.mediaInfo.map (·.toJson scalar)).getD .null),
    ("buffer", s.buffer.toJson)]

/-- The snapshot that a JSON value describes. Only the media info may be missing, and only if the fields
have names. -/
def ofJson? (value : Json) : Option (PlayerState R) := do
  let f ← value.fields? fieldNames
  return {
    state := ← f.required "state" (readName PlaybackState.name PlaybackState.all)
    playWhenReady := ← f.required "play_when_ready" readBool
    position := ← f.required "position" readScalar
    duration := ← f.required "duration" readScalar
    volume := ← f.required "volume" readScalar
    muted := ← f.required "muted" readBool
    mediaInfo :=
      ← if f.positional then f.required "media_info" (readOptional MediaInfo.ofJson?)
        else f.default "media_info" none (readOptional MediaInfo.ofJson?)
    buffer := ← f.required "buffer" BufferStatus.ofJson? }

/-- The text of a snapshot. -/
def toText (s : PlayerState R) : String :=
  (s.toJson .ofScalar).compact

/-- The snapshot that a text describes. -/
def ofText? (text : String) : Option (PlayerState R) :=
  (Json.parse? text).bind ofJson?

end PlayerState
end Playback
