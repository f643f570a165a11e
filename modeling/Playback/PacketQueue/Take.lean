import Playback.PacketQueue.Basic

/-!
# Taking entries out of a packet queue

A reader looks at the queue (`PacketQueue.look`) and does what it is told: it gets an entry, or learns that
the queue is aborted, or must call the one who asked for notice before it may sleep, or sleeps. After every
sleep the first look counts as fresh, so that each sleep is preceded by a notice of its own. `Reader` is
such a reader as a machine of small steps; between two of them anything may happen to the queue.

`QueueOp` names the operations of a queue as data.
-/

namespace Playback

/-- What a reader is told by one look at the queue. -/
inductive Look where
  | entry (e : QueueEntry)
  | aborted
  /-- Nothing is there: give notice, then look again. -/
  | notify
  /-- Still nothing is there: sleep until the queue wakes its readers. -/
  | sleep
deriving Repr

namespace PacketQueue

/-- One look at the queue by a reader that may wait; `notified` says whether it gave notice since it last
slept. An entry that is found is taken out. -/
def look (q : PacketQueue) (notified : Bool) : Look × PacketQueue :=
  if q.aborted then (.aborted, q)
  else
    match q.pop with
    | (some e, q) => (.entry e, q)
    | (none, q) => (if notified then .sleep else .notify, q)

end PacketQueue

/-- The result of taking an entry. -/
inductive Dequeued where
  | entry (e : QueueEntry)
  | empty
  | aborted
deriving Repr, DecidableEq

/-- Where a reader stands that waits until it gets an entry. -/
inductive Reader where
  /-- About to look; `notified` says whether it gave notice since it last slept. -/
  | looking (notified : Bool)
  /-- Asleep since the queue had woken its readers so often. -/
  | asleep (since : Nat)
deriving Repr, DecidableEq

/-- What comes of one step of a reader. -/
inductive ReaderStep where
  | go (next : Reader)
  /-- Notice has to be given before the reader goes on. -/
  | notify (next : Reader)
  | done (d : Dequeued)
deriving Repr

namespace Reader

/-- A reader that has just come. -/
def fresh : Reader := .looking false

/-- Whether the reader sleeps and nothing woke it. -/
def isBlocked (r : Reader) (q : PacketQueue) : Bool :=
  r = .asleep q.wakeups

/-- One step: a look at the queue, or waking up. -/
def step (r : Reader) (q : PacketQueue) : ReaderStep × PacketQueue :=
  match r with
  | .asleep since => (.go (if since = q.wakeups then .asleep since else fresh), q)
  | .looking notified =>
    match q.look notified with
    | (.entry e, q) => (.done (.entry e), q)
    | (.aborted, q) => (.done .aborted, q)
    | (.notify, q) => (.notify (.looking true), q)
    | (.sleep, q) => (.go (.asleep q.wakeups), q)

end Reader

/-- Takes the first entry if there is one, without waiting. -/
def PacketQueue.take (q : PacketQueue) : Dequeued × PacketQueue :=
  match q.look false with
  | (.entry e, q) => (.entry e, q)
  | (.aborted, q) => (.aborted, q)
  | (_, q) => (.empty, q)

/-- Takes entries until none is left, or the queue is aborted, or there are so many. -/
def PacketQueue.drain (q : PacketQueue) : Nat → List QueueEntry × PacketQueue
  | 0 => ([], q)
  | count + 1 =>
    match q.take with
    | (.entry e, q) =>
      let (rest, q) := q.drain count
      (e :: rest, q)
    | (_, q) => ([], q)

/-- An operation on a queue. -/
inductive QueueOp where
  | start
  | put (p : Packet)
  | putBoundary
  | putEndOfStream
  | beginGeneration
  | flush
  | abort
  | signal
  | take
deriving Repr

/-- What an operation returns. -/
inductive QueueAnswer where
  | none
  | accepted (yes : Bool)
  | generation (serial : Option Serial)
  | taken (d : Dequeued)
deriving Repr

/-- The effect of an operation. -/
def PacketQueue.apply (q : PacketQueue) : QueueOp → QueueAnswer × PacketQueue
  | .start => (.none, q.start)
  | .put p => let (yes, q) := q.put p; (.accepted yes, q)
  | .putBoundary => let (yes, q) := q.putBoundary; (.accepted yes, q)
  | .putEndOfStream => let (yes, q) := q.putEndOfStream; (.accepted yes, q)
  | .beginGeneration => let (serial, q) := q.beginGeneration; (.generation serial, q)
  | .flush => (.none, q.flush)
  | .abort => (.none, q.abort)
  | .signal => (.none, q.signal)
  | .take => let (d, q) := q.take; (.taken d, q)

end Playback
