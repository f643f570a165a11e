import Playback.Media.Packet

/-!
# Codecs

A codec takes packets and gives frames, in two separate calls: either may answer that the other has to come
first. The end of a stream is sent as no packet, after which the codec gives what it still holds and then
reports the end. Nothing else is assumed of a codec; its state is a value of the type `κ`.
-/

namespace Playback

/-- An answer of a codec other than success. -/
inductive CodecError where
  /-- The other call has to come first. -/
  | again
  /-- Everything of this generation was given out. -/
  | ended
  | fatal (detail : String)
deriving Repr, DecidableEq

def CodecError.message : CodecError → String
  | again => "需要更多输入"
  | ended => "解码结束"
  | fatal detail => "编解码错误: " ++ detail

/-- The codecs whose state is a `κ` and whose frames are of type `Raw`. -/
class Codec (κ : Type) (Raw : outParam Type) where
  /-- Sends a packet, or the end of the stream. -/
  send : κ → Option Packet → Except CodecError Unit × κ
  receive : κ → Except CodecError Raw × κ
  /-- Forgets everything, ready for a new generation. -/
  flush : κ → κ

end Playback
