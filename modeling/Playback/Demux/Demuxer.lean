import Playback.Config.Basic
import Playback.Clock.Media
import Playback.Demux.Source
import Playback.PacketQueue.Basic
import Playback.Schedule.Loop

/-!
# Demuxers

A demuxer reads packets from a source on a thread of its own and puts each into the queue of its stream. It
reads in batches, so that a request to seek gets its turn, and pauses when the queues have enough or the
source is at its end. At most one task to read is pending: whoever wants to read sooner replaces it.

The queues belong to others as well; each operation gets them and gives them back.
-/

namespace Playback

/-- The queue of a stream with the stream's time base. -/
structure StreamQueue where
  queue : PacketQueue
  timeBase : Ratio
deriving Repr

/-- A task of a demuxer's thread. -/
inductive DemuxTask (R : Type) where
  | read
  | seek (position : R)
deriving Repr

/-- The id of the task to read. -/
def DemuxTask.readId : Nat := 1

/-- The most packets that are read in one go. -/
def DemuxTask.batch : Nat := 32

/-- What a demuxer reports. -/
inductive DemuxEvent (R : Type) where
  | seekCompleted (position : R)
  | endOfFile
  | error (text : String)
deriving Repr

structure Demuxer (R σ : Type) where
  source : σ
  config : BufferConfig R
  loop : Loop (DemuxTask R)
  /-- The runner of all its tasks. -/
  runner : Nat
  /-- The packets still to read in the present batch, while a batch is being read. -/
  reading : Option Nat
  eof : Bool
  stopped : Bool
  failed : Bool
  videoPackets : Nat
  audioPackets : Nat
deriving Repr

/-- What an operation of a demuxer's thread leads to. -/
structure Demuxed (R σ : Type) where
  demuxer : Demuxer R σ
  queues : List StreamQueue
  clock : MediaClock R
  event : Option (DemuxEvent R)

namespace Demuxer

variable {R σ : Type} [Scalar R]

/-- A demuxer that has not started to read. -/
def new (source : σ) (config : BufferConfig R) : Demuxer R σ :=
  let (runner, loop) := (Loop.new "demuxer").attach
  { source, config, loop, runner, reading := none
    eof := false, stopped := false, failed := false, videoPackets := 0, audioPackets := 0 }

/-- Reads after a delay, in place of the task to read that is pending. -/
def postRead (d : Demuxer R σ) (now delay : Nat) : Demuxer R σ :=
  let loop := (d.loop.remove d.runner (some DemuxTask.readId)).2
  { d with loop := (loop.post now delay .read (some d.runner) DemuxTask.readId).2 }

/-- The pause of a demuxer that cannot read on. -/
def retryDelay (d : Demuxer R σ) : Nat := millis d.config.readRetryInterval

def start (d : Demuxer R σ) (now : Nat) : Demuxer R σ := d.postRead now 0

/-- A decoder found its queue empty: read at once, unless the source is at its end. -/
def notify (d : Demuxer R σ) (now : Nat) : Demuxer R σ := if d.eof then d else d.postRead now 0

/-- Asks for a seek, which happens on the demuxer's thread. -/
def requestSeek (d : Demuxer R σ) (now : Nat) (position : R) : Demuxer R σ :=
  { d with loop := (d.loop.post now 0 (.seek position) (some d.runner)).2 }

/-- Ends the thread. -/
def stop (d : Demuxer R σ) : Demuxer R σ :=
  { d with stopped := true, loop := (d.loop.remove d.runner).2.quit }

/-- The bytes that the queues hold together. -/
def totalSize (queues : List StreamQueue) : Nat :=
  queues.foldr (fun q size => q.queue.size + size) 0

/-- Whether the queues want more packets: they are within the limit of bytes, and one of them has not
enough. -/
def needsMore (config : BufferConfig R) (queues : List StreamQueue) : Bool :=
  config.infinite
    || (totalSize queues ≤ config.maxQueueBytes
      && queues.any fun q => !q.queue.hasEnough q.timeBase config.minFrames config.minDuration)

/-- Applies a change to the queue of a stream, the first one if there are several. -/
def onStream (stream : StreamKind) (f : PacketQueue → PacketQueue) : List StreamQueue → List StreamQueue
  | [] => []
  | q :: rest =>
    if q.queue.stream = stream then { q with queue := f q.queue } :: rest
    else q :: onStream stream f rest

/-- Applies a change to every queue. -/
def onAll (f : PacketQueue → PacketQueue) (queues : List StreamQueue) : List StreamQueue :=
  queues.map fun q => { q with queue := f q.queue }

/-- Counts a packet and puts it into the queue of its stream; packets of streams without a queue are
passed over. -/
def store (d : Demuxer R σ) (queues : List StreamQueue) (p : Packet) :
    Demuxer R σ × List StreamQueue :=
  if queues.any (·.queue.stream = p.stream) then
    let d := { d with eof := false }
    (match p.stream with
      | .video => { d with videoPackets := d.videoPackets + 1 }
      | .audio => { d with audioPackets := d.audioPackets + 1 },
      onStream p.stream (fun q => (q.put p).2) queues)
  else (d, queues)

variable [Source σ R]

/-- The position that a seek goes to: within the duration if it is known, and never before the start. -/
def seekTarget (duration position : R) : R :=
  if Scalar.isFinite duration ∧ 0.0 < duration then Scalar.clamp position 0.0 duration
  else Scalar.max position 0.0

/-- Goes to a position: the queues begin a new generation and the external clock is set to the target. A
source that cannot seek is left alone. -/
def seek (d : Demuxer R σ) (queues : List StreamQueue) (m : MediaClock R) (now : Nat) (position : R) :
    Demuxed R σ :=
  if !Source.isSeekable d.source then ⟨d, queues, m, none⟩
  else
    let target := seekTarget (Source.info d.source).duration position
    match Source.seek d.source target with
    | (.error e, source) => ⟨{ d with source }, queues, m, some (.error e.message)⟩
    | (.ok _, source) =>
      { demuxer := { d with source, eof := false, failed := false }.postRead now 0
        queues := onAll (fun q => q.beginGeneration.2) queues
        clock := m.setAt .external target 0 (Scalar.ofNanos now)
        event := some (.seekCompleted target) }

/-- Reads one packet of a batch of which so many are left. The batch ends when the queues have enough, at
the end of the source, at an error, and when nothing of it is left. -/
def readOne (d : Demuxer R σ) (queues : List StreamQueue) (m : MediaClock R) (now left : Nat) :
    Demuxed R σ :=
  let done := { d with reading := none }
  match left with
  | 0 => ⟨done.postRead now 0, queues, m, none⟩
  | left + 1 =>
    if !needsMore d.config queues then ⟨done.postRead now d.retryDelay, queues, m, none⟩
    else
      match Source.read d.source with
      | (.ok (some p), source) =>
        let (d, queues) := { d with source, reading := some left }.store queues p
        ⟨d, queues, m, none⟩
      | (.ok none, source) =>
        let ended := { done with source, eof := true }.postRead now d.retryDelay
        if d.eof then ⟨ended, queues, m, none⟩
        else ⟨ended, onAll (fun q => q.putEndOfStream.2) queues, m, some .endOfFile⟩
      | (.error e, source) =>
        ⟨{ done with source, failed := true }, queues, m, some (.error e.message)⟩

/-- Whether the thread has nothing to do at a time. -/
def isResting (d : Demuxer R σ) (now : Nat) : Bool :=
  d.reading.isNone && !d.loop.isEnding && (d.loop.next? now).isNone

/-- One step of the thread: it reads a packet of its batch, or takes the next task, or ends. -/
def step (d : Demuxer R σ) (queues : List StreamQueue) (m : MediaClock R) (now : Nat) : Demuxed R σ :=
  match d.reading with
  | some left => d.readOne queues m now left
  | none =>
    match d.loop.next? now with
    | some (.read, loop) =>
      let reading := if d.stopped || d.failed then none else some DemuxTask.batch
      ⟨{ d with loop, reading }, queues, m, none⟩
    | some (.seek position, loop) => { d with loop }.seek queues m now position
    | none => ⟨if d.loop.isEnding then { d with loop := d.loop.finish } else d, queues, m, none⟩

end Demuxer
end Playback
