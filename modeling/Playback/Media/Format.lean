/-!
# Streams and formats

The two kinds of streams, pixel and sample formats, and the parameters of interleaved audio.
-/

namespace Playback

/-- The number of a generation: each start and each seek begins a new one. -/
abbrev Serial := Nat

/-- Raw bytes of packets, pictures and interleaved samples. -/
abbrev Bytes := List UInt8

inductive StreamKind where
  | audio
  | video
deriving Repr, DecidableEq, Inhabited

def StreamKind.name : StreamKind → String
  | .audio => "audio"
  | .video => "video"

inductive PixelFormat where
  | rgba
  | rgb
  | yuv420p
  | nv12
deriving Repr, DecidableEq, Inhabited

def PixelFormat.name : PixelFormat → String
  | .rgba => "RGBA"
  | .rgb => "RGB"
  | .yuv420p => "YUV420P"
  | .nv12 => "NV12"

/-- How one sample is stored: 16-bit signed or single precision, least significant byte first. -/
inductive SampleFormat where
  | i16
  | f32
deriving Repr, DecidableEq, Inhabited

namespace SampleFormat

def all : List SampleFormat := [.i16, .f32]

def name : SampleFormat → String
  | i16 => "I16"
  | f32 => "F32"

/-- The size of one sample in bytes. -/
def size : SampleFormat → Nat
  | i16 => 2
  | f32 => 4

end SampleFormat

/-- Rate, channels and sample format of interleaved audio. -/
structure AudioParams where
  sampleRate : Nat
  channels : Nat
  format : SampleFormat
deriving Repr, DecidableEq

instance : Inhabited AudioParams := ⟨⟨48000, 2, .i16⟩⟩

namespace AudioParams

/-- The bytes of one sample of every channel. -/
def frameSize (p : AudioParams) : Nat :=
  p.channels * p.format.size

def bytesPerSecond (p : AudioParams) : Nat :=
  p.frameSize * p.sampleRate

def isValid (p : AudioParams) : Bool :=
  p.sampleRate > 0 && p.channels > 0

end AudioParams
end Playback
