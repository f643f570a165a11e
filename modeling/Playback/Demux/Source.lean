import Playback.Error
import Playback.Media.Info
import Playback.Media.Packet

/-!
# Media sources

A source gives the packets of all its streams, one after the other, and can go to another position. What
kind of source it is, a file or a live stream, is left open; its state is a value of the type `σ`.
-/

namespace Playback

/-- The sources whose state is a `σ`. -/
class Source (σ : Type) (R : outParam Type) where
  /-- Reads the next packet; there is none at the end. -/
  read : σ → Except PlayerError (Option Packet) × σ
  /-- Goes to a position, in seconds. -/
  seek : σ → R → Except PlayerError Unit × σ
  info : σ → MediaInfo R
  /-- What is known about a stream; `none` if the source has no such stream. -/
  stream? : σ → StreamKind → Option StreamInfo
  isSeekable : σ → Bool

end Playback
