import Playback.Decode.Codec
import Playback.Media.Frame
import Playback.PacketQueue.Take

/-!
# Scripted codecs

A codec for runs that have to be reproducible. It gives one frame for each packet, in order, and the
script puts other answers in the place of single calls: errors, frames of its own, or operations on the
packet queue in the middle of a call, as other threads would do them. Every call is noted.
-/

namespace Playback

/-- What the script puts in the place of a call. -/
inductive ScriptEntry (Raw : Type) where
  /-- The call does its normal work. -/
  | normal
  | error (e : CodecError)
  | frame (raw : Raw)
  /-- These operations happen to the packet queue first, then the call does its normal work. -/
  | queue (ops : List QueueOp)
deriving Repr

/-- A noted call with its answer. -/
inductive CodecNote where
  | sent (packet : Option Packet) (error : Option CodecError)
  | received (error : Option CodecError)
  | flushed
  /-- The decoder found the queue empty and gave notice. -/
  | starved
deriving Repr

structure ScriptedCodec (Raw : Type) where
  /-- The entries for the next calls of each kind. -/
  sending : List (ScriptEntry Raw)
  receiving : List (ScriptEntry Raw)
  /-- The frame for a packet. -/
  build : Packet → Raw
  /-- The frames not given out yet. -/
  frames : List Raw
  /-- Whether the end of the stream was sent. -/
  draining : Bool
  /-- Newest first. -/
  notes : List CodecNote

namespace ScriptedCodec

variable {Raw : Type}

def new (sending receiving : List (ScriptEntry Raw)) (build : Packet → Raw) : ScriptedCodec Raw :=
  ⟨sending, receiving, build, [], false, []⟩

def note (c : ScriptedCodec Raw) (n : CodecNote) : ScriptedCodec Raw :=
  { c with notes := n :: c.notes }

def send (c : ScriptedCodec Raw) (packet : Option Packet) :
    Except CodecError Unit × ScriptedCodec Raw :=
  let entry := c.sending.headD .normal
  let c := { c with sending := c.sending.drop 1 }
  match entry with
  | .error e => (.error e, c.note (.sent packet (some e)))
  | _ =>
    let c :=
      match packet with
      | none => { c with draining := true }
      | some p => { c with frames := c.frames ++ [c.build p] }
    (.ok (), c.note (.sent packet none))

/-- The normal work of a call for a frame. -/
def pop (c : ScriptedCodec Raw) : Except CodecError Raw × ScriptedCodec Raw :=
  match c.frames with
  | raw :: rest => (.ok raw, { c with frames := rest })
  | [] => (.error (if c.draining then .ended else .again), c)

def receive (c : ScriptedCodec Raw) : Except CodecError Raw × ScriptedCodec Raw :=
  let entry := c.receiving.headD .normal
  let c := { c with receiving := c.receiving.drop 1 }
  let (answer, c) : Except CodecError Raw × ScriptedCodec Raw :=
    match entry with
    | .error e => (.error e, c)
    | .frame raw => (.ok raw, c)
    | _ => c.pop
  let error :=
    match answer with
    | .ok _ => none
    | .error e => some e
  (answer, c.note (.received error))

def flush (c : ScriptedCodec Raw) : ScriptedCodec Raw :=
  { c with frames := [], draining := false }.note .flushed

instance : Codec (ScriptedCodec Raw) Raw := ⟨send, receive, flush⟩

/-- The queue operations that the script puts into the next call for a frame, taken out of the script. -/
def takeQueueOps (c : ScriptedCodec Raw) : List QueueOp × ScriptedCodec Raw :=
  match c.receiving with
  | .queue ops :: rest => (ops, { c with receiving := .normal :: rest })
  | _ => ([], c)

/-- The notes so far, oldest first, and the codec without them. -/
def takeNotes (c : ScriptedCodec Raw) : List CodecNote × ScriptedCodec Raw :=
  (c.notes.reverse, { c with notes := [] })

end ScriptedCodec
end Playback
