import Playback.Decode.Codec
import Playback.Decode.Finish
import Playback.Error
import Playback.PacketQueue.Take

/-!
# Decoding

`DecodeCore` takes packets from a queue, feeds a codec and returns finished frames, one a call. What it
takes from the queue is compared with the queue's serial, and entries of a past generation are passed over;
frames are collected from the codec only while the last entry taken is of the present generation. An item
that the codec refuses for the moment is kept, and comes first the next time.

A call is a machine of small steps (`DecodeCore.step`), each with at most one look at the queue, since
other threads may begin a new generation or abort the queue between any two of them. Each `Phase` is a
place at which a call can stand.
-/

namespace Playback

/-- Where a call for the next frame stands. -/
inductive Phase where
  /-- About to check whether to give up. -/
  | gate
  /-- About to compare the generation of the last packet with the queue's. -/
  | compare
  /-- Collecting frames of a generation: about to check whether to give up. -/
  | drain (serial : Serial)
  /-- About to ask the codec for a frame of a generation. -/
  | receive (serial : Serial)
  /-- About to take the item that the codec refused before, if there is one. -/
  | obtain
  /-- About to check whether to give up before reading from the queue. -/
  | poll
  /-- Reading from the queue. -/
  | read (reader : Reader)
  /-- An entry was taken: about to compare its serial with the queue's. -/
  | judge (item : QueueItem) (serial : Serial)
  /-- About to feed an item to the codec. -/
  | feed (item : QueueItem)
deriving Repr, DecidableEq

/-- Whether a call waits for the queue and nothing woke it. -/
def Phase.isBlocked (phase : Phase) (q : PacketQueue) : Bool :=
  match phase with
  | .read reader => reader.isBlocked q
  | _ => false

/-- The result of a call. -/
inductive Decoded (Out : Type) where
  | frame (frame : Out)
  /-- Everything of the generation was decoded. -/
  | finished (serial : Serial)
  | aborted
  | failed (error : PlayerError)
deriving Repr

/-- What comes of one step of a call. -/
inductive Progress (Out : Type) where
  | go (next : Phase)
  /-- The queue is empty: notice has to be given before the call goes on. -/
  | notify (next : Phase)
  | done (result : Decoded Out)
deriving Repr

structure DecodeCore (κ φ : Type) where
  codec : κ
  finisher : φ
  /-- The generation of the last entry taken. -/
  packetSerial : Option Serial
  /-- The item that the codec refused and that comes first next time. -/
  pending : Option QueueItem
  abort : Bool
  continueOnError : Bool
  /-- The generation that was decoded to its end. -/
  finished : Option Serial
  frames : Nat
  errors : Nat
  /-- How many entries were passed over because their generation was over. -/
  stale : Nat
deriving Repr

namespace DecodeCore

variable {κ φ Raw Out : Type} [Codec κ Raw] [Finisher φ Raw Out]

def new (codec : κ) (finisher : φ) (continueOnError : Bool) : DecodeCore κ φ where
  codec
  finisher
  packetSerial := none
  pending := none
  abort := false
  continueOnError
  finished := none
  frames := 0
  errors := 0
  stale := 0

/-- Whether to give up. -/
def isAborted (c : DecodeCore κ φ) (q : PacketQueue) : Bool :=
  c.abort || q.aborted

/-- Asks the codec for a frame of a generation. -/
def receive (c : DecodeCore κ φ) (serial : Serial) : Progress Out × DecodeCore κ φ :=
  let (answer, codec) := Codec.receive c.codec
  let c := { c with codec }
  match answer with
  | .ok raw =>
    let (out, finisher) := Finisher.finish c.finisher raw serial
    let c := { c with finisher }
    match out with
    | some frame => (.done (.frame frame), { c with frames := c.frames + 1 })
    | none => (.go (.drain serial), c)
  | .error .ended =>
    (.done (.finished serial),
      { c with finished := some serial, codec := Codec.flush c.codec })
  | .error .again => (.go .obtain, c)
  | .error (.fatal detail) =>
    let c := { c with errors := c.errors + 1 }
    if c.continueOnError then (.go .obtain, c) else (.done (.failed (.decode detail)), c)

/-- Sends a packet or the end of the stream to the codec; what it refuses is kept. -/
def sendItem (c : DecodeCore κ φ) (item : QueueItem) (packet : Option Packet) :
    Progress Out × DecodeCore κ φ :=
  let (answer, codec) := Codec.send c.codec packet
  let c := { c with codec }
  match answer with
  | .ok _ | .error .ended => (.go .gate, c)
  | .error .again => (.go .gate, { c with pending := some item })
  | .error (.fatal detail) => (.done (.failed (.sendPacket detail)), c)

/-- Feeds an item to the codec; a boundary makes it forget everything. -/
def feed (c : DecodeCore κ φ) (item : QueueItem) : Progress Out × DecodeCore κ φ :=
  match item with
  | .boundary =>
    (.go .gate, { c with
      codec := Codec.flush c.codec
      finished := none
      finisher := Finisher.restart c.finisher })
  | .endOfStream => c.sendItem item none
  | .packet p => c.sendItem item (some p)

/-- One step of a call. -/
def step (c : DecodeCore κ φ) (q : PacketQueue) (phase : Phase) :
    Progress Out × DecodeCore κ φ × PacketQueue :=
  match phase with
  | .gate => (if c.isAborted q then .done .aborted else .go .compare, c, q)
  | .compare =>
    (if c.packetSerial = some q.serial then .go (.drain q.serial) else .go .obtain, c, q)
  | .drain serial => (if c.isAborted q then .done .aborted else .go (.receive serial), c, q)
  | .receive serial =>
    let (progress, c) := c.receive serial
    (progress, c, q)
  | .obtain =>
    match c.pending with
    | some item => (.go (.feed item), { c with pending := none }, q)
    | none => (.go .poll, c, q)
  | .poll => (if c.isAborted q then .done .aborted else .go (.read .fresh), c, q)
  | .read reader =>
    match reader.step q with
    | (.go next, q) => (.go (.read next), c, q)
    | (.notify next, q) => (.notify (.read next), c, q)
    | (.done (.entry e), q) => (.go (.judge e.item e.serial), { c with packetSerial := some e.serial }, q)
    | (.done .aborted, q) => (.done .aborted, c, q)
    | (.done .empty, q) => (.go .poll, c, q)
  | .judge item serial =>
    if serial = q.serial then (.go (.feed item), c, q)
    else (.go .poll, { c with stale := c.stale + 1 }, q)
  | .feed item =>
    let (progress, c) := c.feed item
    (progress, c, q)

end DecodeCore
end Playback
