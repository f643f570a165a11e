import Playback.Media.Format
import Playback.Scalar

/-!
# Configuration of a player

Four sections: synchronisation, buffering, audio, scheduling. Times are seconds where they are scalars and
milliseconds where they are natural numbers.
-/

namespace Playback

/-- Which clock the others follow. -/
inductive SyncType where
  | audioMaster
  | videoMaster
  | externalClock
deriving Repr, DecidableEq, Inhabited

namespace SyncType

def all : List SyncType := [.audioMaster, .videoMaster, .externalClock]

def name : SyncType → String
  | audioMaster => "audio_master"
  | videoMaster => "video_master"
  | externalClock => "external_clock"

end SyncType

/-- When late pictures are left out. -/
inductive FrameDrop where
  /-- Unless video is the master. -/
  | auto
  | always
  | never
deriving Repr, DecidableEq, Inhabited

namespace FrameDrop

def all : List FrameDrop := [.auto, .always, .never]

def name : FrameDrop → String
  | auto => "auto"
  | always => "always"
  | never => "never"

end FrameDrop

variable {R : Type}

structure SyncConfig (R : Type) where
  syncType : SyncType
  /-- Smaller differences are never corrected. -/
  thresholdMin : R
  /-- Larger differences are always corrected. -/
  thresholdMax : R
  /-- Frames longer than this are not repeated to let the master catch up. -/
  repeatThreshold : R
  /-- Larger differences are taken for jumps of timestamps and left alone. -/
  nosyncThreshold : R
  /-- Longer gaps between timestamps are taken for discontinuities. -/
  maxFrameDuration : R
  /-- The longest wait between two refreshes. -/
  refreshRate : R
  frameDrop : FrameDrop
deriving Repr

structure BufferConfig (R : Type) where
  /-- Each stream should have more queue entries than this. -/
  minFrames : Nat
  /-- All queues together stop growing above this many bytes. -/
  maxQueueBytes : Nat
  /-- Each stream should have more than this many seconds queued. -/
  minDuration : R
  videoRingCapacity : Nat
  audioRingCapacity : Nat
  /-- How long reading pauses at the end or when the buffers are full, in milliseconds. -/
  readRetryInterval : Nat
  /-- Whether to read without limits. -/
  infinite : Bool
deriving Repr

structure AudioConfig (R : Type) where
  /-- The initial volume, between 0 and 1. -/
  volume : R
  muted : Bool
  /-- Whether decoding goes on after a frame that cannot be decoded. -/
  continueOnDecodeError : Bool
  wantedSampleRate : Nat
  wantedChannels : Nat
  sampleFormat : SampleFormat
  /-- How many differences to the master are averaged. -/
  diffAverageCount : Nat
  /-- By how many percent a block may be stretched or shortened. -/
  correctionPercentMax : Nat
deriving Repr

structure SchedulerConfig where
  /-- Tasks that take longer are reported, in milliseconds. -/
  slowTaskWarning : Nat
  /-- How often the state is reported, in milliseconds; zero for never. -/
  statusInterval : Nat
deriving Repr, DecidableEq

structure PlayerConfig (R : Type) where
  sync : SyncConfig R
  buffer : BufferConfig R
  audio : AudioConfig R
  scheduler : SchedulerConfig
deriving Repr

/-- The format that the audio device is asked for. -/
def AudioConfig.wanted (c : AudioConfig R) : AudioParams :=
  ⟨c.wantedSampleRate, c.wantedChannels, c.sampleFormat⟩

variable [Scalar R]

def SyncConfig.default : SyncConfig R where
  syncType := .audioMaster
  thresholdMin := 0.04
  thresholdMax := 0.1
  repeatThreshold := 0.1
  nosyncThreshold := 10.0
  maxFrameDuration := 10.0
  refreshRate := 0.01
  frameDrop := .auto

def BufferConfig.default : BufferConfig R where
  minFrames := 25
  maxQueueBytes := 15 * 1024 * 1024
  minDuration := 1.0
  videoRingCapacity := 3
  audioRingCapacity := 9
  readRetryInterval := 10
  infinite := false

def AudioConfig.default : AudioConfig R where
  volume := 1.0
  muted := false
  continueOnDecodeError := true
  wantedSampleRate := 48000
  wantedChannels := 2
  sampleFormat := .i16
  diffAverageCount := 20
  correctionPercentMax := 10

def SchedulerConfig.default : SchedulerConfig where
  slowTaskWarning := 20
  statusInterval := 1000

def PlayerConfig.default : PlayerConfig R where
  sync := .default
  buffer := .default
  audio := .default
  scheduler := .default

end Playback
