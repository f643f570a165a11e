import Playback.Media.Packet

/-!
# Packet queues

One side puts packets into a queue, a decoder takes them out. Each entry carries the serial of the
generation in which it was put. A generation begins with a boundary, which raises the serial by one, so
that a reader can tell packets from before a seek from those after it. The queue keeps count of its bytes
and of the duration of its packets, and publishes its serial for the clocks. An aborted queue refuses
every write and every read but keeps what it holds; a new queue is aborted until it is started.

Waiting readers sleep until `wakeups` grows: every write, an abort and a signal wake them.
-/

namespace Playback

structure QueueEntry where
  item : QueueItem
  serial : Serial
deriving Repr, DecidableEq

/-- What an entry takes of the byte limit besides its payload. -/
def QueueEntry.overhead : Nat := 88

/-- The bytes that an entry counts for. -/
def QueueEntry.size (e : QueueEntry) : Nat :=
  e.item.payload + overhead

structure PacketQueue where
  stream : StreamKind
  entries : List QueueEntry
  /-- The bytes of all entries. -/
  size : Nat
  /-- The ticks of all packets, as a 64-bit number. -/
  duration : Int
  serial : Serial
  /-- The serial as clocks see it. -/
  published : Serial
  aborted : Bool
  /-- How often waiting readers were woken. -/
  wakeups : Nat
deriving Repr

namespace PacketQueue

/-- An empty queue, aborted until it is started. -/
def new (stream : StreamKind) : PacketQueue where
  stream
  entries := []
  size := 0
  duration := 0
  serial := 0
  published := 0
  aborted := true
  wakeups := 0

def length (q : PacketQueue) : Nat :=
  q.entries.length

def isEmpty (q : PacketQueue) : Bool :=
  q.entries.isEmpty

/-- Wakes the waiting readers. -/
def signal (q : PacketQueue) : PacketQueue :=
  { q with wakeups := q.wakeups + 1 }

/-- Appends an item, whether the queue is aborted or not. A boundary begins a generation. -/
def push (q : PacketQueue) (item : QueueItem) : PacketQueue :=
  let serial := if item.isBoundary then q.serial + 1 else q.serial
  let entry : QueueEntry := ⟨item, serial⟩
  { q with
    entries := q.entries ++ [entry]
    size := q.size + entry.size
    duration := wrap64 (q.duration + item.duration)
    serial
    published := if item.isBoundary then serial else q.published
    wakeups := q.wakeups + 1 }

/-- Lets the queue take packets again and begins a generation. -/
def start (q : PacketQueue) : PacketQueue :=
  { q with aborted := false }.push .boundary

/-- Ends all reading and writing. -/
def abort (q : PacketQueue) : PacketQueue :=
  { q with aborted := true }.signal

/-- Appends an item unless the queue is aborted; tells whether it was appended. -/
def putItem (q : PacketQueue) (item : QueueItem) : Bool × PacketQueue :=
  if q.aborted then (false, q) else (true, q.push item)

/-- Appends a packet. -/
def put (q : PacketQueue) (p : Packet) : Bool × PacketQueue :=
  q.putItem (.packet p)

/-- Begins a generation behind what the queue holds. -/
def putBoundary (q : PacketQueue) : Bool × PacketQueue :=
  q.putItem .boundary

/-- Marks the end of the stream. -/
def putEndOfStream (q : PacketQueue) : Bool × PacketQueue :=
  q.putItem .endOfStream

/-- Removes all entries and stays in the same generation. -/
def flush (q : PacketQueue) : PacketQueue :=
  { q with entries := [], size := 0, duration := 0 }

/-- Removes all entries and begins a generation, whose serial is returned unless the queue is aborted. -/
def beginGeneration (q : PacketQueue) : Option Serial × PacketQueue :=
  if q.aborted then (none, q)
  else
    let q := q.flush.push .boundary
    (some q.serial, q)

/-- Takes the first entry out. -/
def pop (q : PacketQueue) : Option QueueEntry × PacketQueue :=
  match q.entries with
  | [] => (none, q)
  | e :: rest =>
    (some e, { q with
      entries := rest
      size := q.size - e.size
      duration := wrap64 (q.duration - e.item.duration) })

/-- Whether there is enough to play: the queue is aborted, or it has more than `minFrames` entries which,
unless their duration is unknown, last longer than `minDuration` seconds. -/
def hasEnough {R : Type} [Scalar R] (q : PacketQueue) (timeBase : Ratio) (minFrames : Nat)
    (minDuration : R) : Bool :=
  q.aborted || (minFrames < q.length
    && (q.duration = 0 || minDuration < timeBase.toScalar * Scalar.ofInt q.duration))

end PacketQueue
end Playback
