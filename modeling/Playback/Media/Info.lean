import Playback.Media.Ratio
import Playback.Media.Format

/-!
# What is known about a media source

`MediaInfo` describes the whole source, `StreamInfo` one of its streams.
-/

namespace Playback

structure MediaInfo (R : Type) where
  /-- Seconds; undefined if unknown. -/
  duration : R
  startTime : R
  width : Nat
  height : Nat
  fps : R
  videoCodec : String
  audioCodec : String
  sampleRate : Nat
  channels : Nat
  /-- Whether the source is live. -/
  realtime : Bool
deriving Repr

/-- Nothing is known: the duration is undefined and everything else empty. -/
def MediaInfo.unknown {R : Type} [Scalar R] : MediaInfo R where
  duration := Scalar.nan
  startTime := 0.0
  width := 0
  height := 0
  fps := 0.0
  videoCodec := ""
  audioCodec := ""
  sampleRate := 0
  channels := 0
  realtime := false

structure StreamInfo where
  stream : StreamKind
  timeBase : Ratio
  frameRate : Option Ratio
  /-- The first timestamp of the stream, in ticks of its time base. -/
  startPts : Option Int
deriving Repr, DecidableEq

end Playback
