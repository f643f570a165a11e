import Playback.Player.Basic
import Playback.Scripted.Codec
import Playback.Scripted.Source

/-!
# Players of scripted media

Players, and media for them, for runs that have to be reproducible.
-/

namespace Playback

abbrev ScriptedMedia (R : Type) : Type :=
  Media (ScriptedCodec RawAudioFrame) (ScriptedCodec RawVideoFrame) (ScriptedSource R)

abbrev ScriptedPlayer (R : Type) : Type :=
  Player R (ScriptedCodec RawAudioFrame) (ScriptedCodec RawVideoFrame) (ScriptedSource R)

/-- A source with an audio stream and so many packets, each of 20 milliseconds. -/
def ScriptedSource.tone {R : Type} [Scalar R] (count : Nat) : ScriptedSource R where
  packets := (PacketSeries.packets ⟨count, [.audio], 20, 20, 0, false, ⟨1, 1000⟩⟩).toArray
  info := .unknown
  audio := some ⟨.audio, ⟨1, 1000⟩, none, none⟩
  video := none
  seekable := true
  failAt := none
  seekError := none
  gaps := []
  next := 0
  seeks := []

/-- A frame of one silent sample in the format that players want by default. -/
def RawAudioFrame.silence (pts : Option Int) : RawAudioFrame :=
  ⟨pts, 48000, 2, .i16, 1, [0, 0, 0, 0]⟩

/-- The medium of a source whose audio stream is decoded, to silence. -/
def Media.audible {R : Type} (source : ScriptedSource R) : ScriptedMedia R :=
  ⟨source, some (.new [] [] fun packet => .silence packet.pts), none⟩

/-- The medium of a source of which no stream can be decoded. -/
def Media.mute {R : Type} (source : ScriptedSource R) : ScriptedMedia R :=
  ⟨source, none, none⟩

end Playback
