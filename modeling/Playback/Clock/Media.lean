import Playback.Clock.Basic
import Playback.Config.Basic
import Playback.TextScalar

/-!
# The clocks of a player

Audio and video have a clock each, bound to their packet queues, and there is an external clock that is
bound to none. One of the three is the master that the others follow: the configured one, unless
`confirm` finds that it cannot be had. For live sources the external clock runs a little slower or faster
to keep the queues at a middle level.
-/

namespace Playback

/-- Which of the three clocks. -/
inductive ClockName where
  | audio
  | video
  | external
deriving Repr, DecidableEq

/-- The serials that the two packet queues are in. -/
structure LiveSerials where
  audio : Serial
  video : Serial
deriving Repr, DecidableEq

/-- The serial that a clock is checked against. -/
def LiveSerials.of (live : LiveSerials) : ClockName → Option Serial
  | .audio => some live.audio
  | .video => some live.video
  | .external => none

/-- The clock that a synchronisation type makes the master. -/
def SyncType.clock : SyncType → ClockName
  | .audioMaster => .audio
  | .videoMaster => .video
  | .externalClock => .external

/-- The name of a synchronisation type in descriptions. -/
def SyncType.title : SyncType → String
  | .audioMaster => "AudioMaster"
  | .videoMaster => "VideoMaster"
  | .externalClock => "ExternalClock"

structure MediaClock (R : Type) where
  audio : Clock R
  video : Clock R
  external : Clock R
  /-- The master that is wished for. -/
  wanted : SyncType
  /-- The master that is had for a wished one. -/
  confirm : SyncType → SyncType

namespace MediaClock

variable {R : Type}

/-- Fewer packets than this or as many slow the external clock down. -/
def starvingBelow : Nat := 2

/-- More packets than this let the external clock run faster. -/
def plentyAbove : Nat := 10

def clock (m : MediaClock R) : ClockName → Clock R
  | .audio => m.audio
  | .video => m.video
  | .external => m.external

def setClock (m : MediaClock R) (name : ClockName) (c : Clock R) : MediaClock R :=
  match name with
  | .audio => { m with audio := c }
  | .video => { m with video := c }
  | .external => { m with external := c }

/-- The master that is had. -/
def masterType (m : MediaClock R) : SyncType :=
  m.confirm m.wanted

/-- Which clock is the master. -/
def master (m : MediaClock R) : ClockName :=
  m.masterType.clock

variable [Scalar R]

/-- Three clocks that were never set. -/
def new (wanted : SyncType) (confirm : SyncType → SyncType) (now : R) : MediaClock R :=
  ⟨.new now, .new now, .new now, wanted, confirm⟩

/-- The reading of a clock at a time. -/
def readAt (m : MediaClock R) (name : ClockName) (live : LiveSerials) (time : R) : R :=
  (m.clock name).readAt (live.of name) time

/-- The reading of the master at a time. -/
def readMaster (m : MediaClock R) (live : LiveSerials) (time : R) : R :=
  m.readAt m.master live time

/-- Sets one clock as of a time. -/
def setAt (m : MediaClock R) (name : ClockName) (pts : R) (serial : Serial) (time : R) :
    MediaClock R :=
  m.setClock name ((m.clock name).setAt pts serial time)

/-- Stops one clock or lets it run on. -/
def pauseOne (m : MediaClock R) (name : ClockName) (live : LiveSerials) (paused : Bool) (time : R) :
    MediaClock R :=
  m.setClock name ((m.clock name).setPaused (live.of name) paused time)

/-- Stops all three clocks or lets them run on. -/
def setPaused (m : MediaClock R) (live : LiveSerials) (paused : Bool) (time : R) : MediaClock R :=
  ((m.pauseOne .audio live paused time).pauseOne .video live paused time).pauseOne
    .external live paused time

/-- Changes the speed of one clock. -/
def setSpeed (m : MediaClock R) (name : ClockName) (live : LiveSerials) (speed time : R) :
    MediaClock R :=
  m.setClock name ((m.clock name).setSpeed (live.of name) speed time)

/-- Pulls one clock to another one. -/
def sync (m : MediaClock R) (name other : ClockName) (live : LiveSerials) (threshold time : R) :
    Bool × MediaClock R :=
  let (pulled, c) :=
    (m.clock name).syncTo (live.of name) (m.clock other) (live.of other) threshold time
  (pulled, m.setClock name c)

/-- The speed after a check of the queues: a step down if one of them starves, a step up if all have
plenty, and otherwise a step back toward normal. A missing queue does not starve and has plenty. -/
def adjustedSpeed (speed : R) (videoPackets audioPackets : Option Nat) : Option R :=
  let starving (packets : Option Nat) : Bool := packets.any (· ≤ starvingBelow)
  let plenty (packets : Option Nat) : Bool := packets.all (plentyAbove < ·)
  if starving videoPackets || starving audioPackets then some (Scalar.max 0.9 (speed - 0.001))
  else if plenty videoPackets && plenty audioPackets then some (Scalar.min 1.01 (speed + 0.001))
  else if speed == 1.0 then none
  else some (speed + 0.001 * (1.0 - speed) / Scalar.abs (1.0 - speed))

/-- Adjusts the speed of the external clock to the levels of the queues. -/
def checkExternalSpeed (m : MediaClock R) (live : LiveSerials) (videoPackets audioPackets : Option Nat)
    (time : R) : MediaClock R :=
  match adjustedSpeed m.external.speed videoPackets audioPackets with
  | none => m
  | some speed => m.setSpeed .external live speed time

end MediaClock

/-- A description with the readings at a time. -/
def MediaClock.describe {R : Type} [TextScalar R] (m : MediaClock R) (live : LiveSerials) (time : R) :
    String :=
  let reading (name : ClockName) : String := TextScalar.debug (m.readAt name live time)
  "MediaClock \x7b audio: " ++ reading .audio ++ ", video: " ++ reading .video
    ++ ", ext: " ++ reading .external ++ ", master: " ++ m.masterType.title ++ " \x7d"

end Playback
