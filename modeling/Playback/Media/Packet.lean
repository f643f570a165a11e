import Playback.Media.Format
import Playback.Media.Ratio

/-!
# Packets

A packet is a piece of a compressed stream, read from a container and not yet decoded. In a queue packets
stand between marks: `boundary` begins a generation, `endOfStream` says that no packet follows.
-/

namespace Playback

/-- A compressed packet. Timestamps and duration count ticks of its time base. -/
structure Packet where
  stream : StreamKind
  data : Bytes
  pts : Option Int
  dts : Option Int
  duration : Int
  timeBase : Ratio
  isKey : Bool
deriving Repr, DecidableEq, Inhabited

namespace Packet

def size (p : Packet) : Nat :=
  p.data.length

/-- The presentation time in seconds, or else the decoding time. -/
def seconds? {R : Type} [Scalar R] (p : Packet) : Option R :=
  (p.pts.or p.dts).map fun ts => Scalar.ofInt ts * p.timeBase.toScalar

end Packet

/-- One element of a packet queue. -/
inductive QueueItem where
  | packet (packet : Packet)
  /-- What follows belongs to a new generation. -/
  | boundary
  /-- The stream ends here. -/
  | endOfStream
deriving Repr, DecidableEq, Inhabited

namespace QueueItem

def isBoundary : QueueItem → Bool
  | boundary => true
  | _ => false

/-- The payload in bytes; marks have none. -/
def payload : QueueItem → Nat
  | packet p => p.size
  | _ => 0

/-- The duration in ticks; marks have none. -/
def duration : QueueItem → Int
  | packet p => p.duration
  | _ => 0

end QueueItem
end Playback
