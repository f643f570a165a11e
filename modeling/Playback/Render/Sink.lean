import Playback.Error
import Playback.Media.Frame

/-!
# Outputs

Where pictures and audio go. A renderer calls its output, and what is kept of an output here is what its
users can tell about it: the calls it got and the answers it gave. An audio output gets its data by calling
back; `PullSink` is one that does so whenever somebody pulls.
-/

namespace Playback

/-- What a renderer reports to the player. -/
inductive RendererEvent where
  /-- Everything of a generation was put out. -/
  | ended (serial : Serial)
  /-- A picture of a new size was shown. -/
  | firstFrame (width height : Nat)
  | error (text : String)
deriving Repr, DecidableEq

/-- A call of a video output. -/
inductive VideoCall (R : Type) where
  | start
  | stop
  | show (frame : VideoFrame R)
deriving Repr

/-- A call of an audio output. -/
inductive AudioCall (R : Type) where
  /-- The device is opened with the wanted format. -/
  | setUp (wanted : AudioParams)
  | volume (value : R)
  | start
  | play
  | pause
  | stop
deriving Repr

/-- An audio output without a device: whoever pulls gets what the callback gives, while it plays. -/
structure PullSink (γ : Type) where
  callback : Option γ
  playing : Bool
deriving Repr

namespace PullSink

variable {γ : Type}

def new : PullSink γ := ⟨none, false⟩

def setUp (s : PullSink γ) (callback : γ) : PullSink γ := { s with callback := some callback }

def play (s : PullSink γ) : PullSink γ := { s with playing := true }

def pause (s : PullSink γ) : PullSink γ := { s with playing := false }

def stop (_ : PullSink γ) : PullSink γ := new

/-- The callback that a pull goes to; without one a pull gets silence. -/
def source? (s : PullSink γ) : Option γ := if s.playing then s.callback else none

end PullSink

/-- What an audio device answers. -/
structure AudioDevice where
  /-- Why the device cannot be opened, if it cannot. -/
  openError : Option PlayerError
  /-- Why the device cannot be started, if it cannot. -/
  startError : Option PlayerError
  /-- The format that the device has whatever is wanted. -/
  format : Option AudioParams
deriving Repr

/-- A device that takes every format. -/
def AudioDevice.obliging : AudioDevice := ⟨none, none, none⟩

/-- An audio output: a device, the end from which it is pulled, and the calls so far, newest first. -/
structure AudioSink (R : Type) where
  device : AudioDevice
  puller : PullSink Unit
  calls : List (AudioCall R)
deriving Repr

namespace AudioSink

variable {R : Type}

def new (device : AudioDevice) : AudioSink R := ⟨device, .new, []⟩

def note (s : AudioSink R) (c : AudioCall R) : AudioSink R := { s with calls := c :: s.calls }

/-- Opens the device and gives the format it has. -/
def setUp (s : AudioSink R) (wanted : AudioParams) : Except PlayerError AudioParams × AudioSink R :=
  let s := s.note (.setUp wanted)
  match s.device.openError with
  | some e => (.error e, s)
  | none => (.ok (s.device.format.getD wanted), { s with puller := s.puller.setUp () })

def start (s : AudioSink R) : Except PlayerError Unit × AudioSink R :=
  let s := s.note .start
  match s.device.startError with
  | some e => (.error e, s)
  | none => (.ok (), s)

def setVolume (s : AudioSink R) (volume : R) : AudioSink R := s.note (.volume volume)

def play (s : AudioSink R) : AudioSink R := { s.note .play with puller := s.puller.play }

def pause (s : AudioSink R) : AudioSink R := { s.note .pause with puller := s.puller.pause }

def stop (s : AudioSink R) : AudioSink R := { s.note .stop with puller := s.puller.stop }

/-- Whether a pull reaches the renderer. -/
def isPulling (s : AudioSink R) : Bool := s.puller.source?.isSome

end AudioSink
end Playback
