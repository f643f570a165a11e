import Playback.Media.Format
import Playback.Scalar

/-!
# Clocks

A clock tells the position of a stream. While it runs, its reading grows with time at its speed; paused, it
stands. A clock that belongs to a packet queue holds only for the generation it was set in: when the queue
goes on to another serial the reading is undefined until the clock is set again. The queue's present serial
is passed to every operation that reads as `live`; a clock without a queue has none and is always current.
-/

namespace Playback

structure Clock (R : Type) where
  pts : R
  /-- The position less the time at which it was set. -/
  drift : R
  /-- The time at which the position was set, in seconds. -/
  lastUpdated : R
  /-- The generation in which the clock was set; `none` before the first time. -/
  serial : Option Serial
  speed : R
  paused : Bool
deriving Repr

namespace Clock

variable {R : Type} [Scalar R]

/-- A clock that was never set, made at a time. -/
def new (now : R) : Clock R where
  pts := Scalar.nan
  drift := Scalar.nan
  lastUpdated := now
  serial := none
  speed := 1.0
  paused := false

/-- Whether the clock was set in the generation that its queue is in. -/
def isCurrent (c : Clock R) (live : Option Serial) : Bool :=
  live.isNone || c.serial == live

/-- The reading at a time, in seconds. -/
def readAt (c : Clock R) (live : Option Serial) (time : R) : R :=
  if !c.isCurrent live then Scalar.nan
  else if c.paused then c.pts
  else c.drift + time - (time - c.lastUpdated) * (1.0 - c.speed)

/-- Sets the position as of a time, for a generation or for none. -/
def place (c : Clock R) (pts : R) (serial : Option Serial) (time : R) : Clock R :=
  { c with pts, drift := pts - time, lastUpdated := time, serial }

/-- Sets the position as of a time. -/
def setAt (c : Clock R) (pts : R) (serial : Serial) (time : R) : Clock R :=
  c.place pts (some serial) time

/-- Sets the position to the present reading. -/
def rebase (c : Clock R) (live : Option Serial) (time : R) : Clock R :=
  c.place (c.readAt live time) c.serial time

/-- Changes the speed from now on. -/
def setSpeed (c : Clock R) (live : Option Serial) (speed time : R) : Clock R :=
  { c.rebase live time with speed }

/-- Stops the clock at its reading, or lets it run on from where it stands. -/
def setPaused (c : Clock R) (live : Option Serial) (paused : Bool) (time : R) : Clock R :=
  if c.paused = paused then c
  else if paused then { c.rebase live time with paused := true }
  else { c with paused := false }.place c.pts c.serial time

/-- Pulls the clock to the reading of another one, if that one is valid and the two are further apart than
a threshold or the clock itself is not valid. Tells whether it was pulled. -/
def syncTo (c : Clock R) (live : Option Serial) (other : Clock R) (otherLive : Option Serial)
    (threshold time : R) : Bool × Clock R :=
  let target := other.readAt otherLive time
  let own := c.readAt live time
  if Scalar.isNaN target then (false, c)
  else if Scalar.isNaN own ∨ threshold < Scalar.abs (own - target) then
    (true, c.place target other.serial time)
  else (false, c)

end Clock
end Playback
