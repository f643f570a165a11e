import Playback.Media.Format
import Playback.Media.Ratio

/-!
# Decoded frames

A codec puts out raw frames with timestamps in ticks. Decoding turns them into the blocks and pictures
that renderers take, with times in seconds and the serial of the generation they belong to.
-/

namespace Playback

/-- Audio as a codec puts it out, interleaved. -/
structure RawAudioFrame where
  pts : Option Int
  sampleRate : Nat
  channels : Nat
  format : SampleFormat
  /-- Samples per channel. -/
  sampleCount : Nat
  data : Bytes
deriving Repr, DecidableEq, Inhabited

/-- A picture as a codec puts it out. -/
structure RawVideoFrame where
  pts : Option Int
  width : Nat
  height : Nat
  format : PixelFormat
  data : Bytes
deriving Repr, DecidableEq, Inhabited

/-- Audio in the format of the device. -/
structure AudioBlock (R : Type) where
  /-- Seconds; undefined if unknown. -/
  pts : R
  /-- Seconds, as the codec's frame lasts. -/
  duration : R
  /-- Samples per channel. -/
  sampleCount : Nat
  params : AudioParams
  serial : Serial
  data : Bytes
deriving Repr, DecidableEq

/-- A picture to show. -/
structure VideoFrame (R : Type) where
  /-- Seconds; undefined if unknown. -/
  pts : R
  /-- Seconds, as the frame rate suggests. -/
  duration : R
  serial : Serial
  width : Nat
  height : Nat
  format : PixelFormat
  data : Bytes
deriving Repr, DecidableEq

end Playback
