import Playback.Decode.Core
import Playback.Schedule.Loop

/-!
# Decoders

A decoder runs the calls for frames on a loop of its own, one after the other; each request carries a tag
that comes back with its result. Requests are posted through the decoder's own runner or through a handle,
a runner of its own that outlives the decoder's: after the loop has ended its requests are refused.

The packet queue is not part of the decoder, because others work on it too; each operation gets it and
gives it back.
-/

namespace Playback

/-- The result of a request. -/
inductive ReadResult (Out : Type) where
  | frame (frame : Out)
  | endOfStream (serial : Serial)
  | aborted
  | error (text : String)
deriving Repr

/-- The result of a call as a request reports it. -/
def Decoded.toResult {Out : Type} : Decoded Out → ReadResult Out
  | .frame f => .frame f
  | .finished serial => .endOfStream serial
  | .aborted => .aborted
  | .failed e => .error e.message

structure Decoder (κ φ τ : Type) where
  core : DecodeCore κ φ
  loop : Loop τ
  /-- The decoder's own runner, until it is joined. -/
  runner : Option Nat
  /-- The request that is being worked on. -/
  current : Option (τ × Phase)
deriving Repr

/-- A handle through which requests are posted: a runner of the decoder's loop, or none. -/
abbrev ReadHandle := Option Nat

/-- What one step of a decoder's thread shows to others. -/
inductive DecoderEvent (Out τ : Type) where
  | silent
  /-- The queue is empty and someone should fill it. -/
  | starving
  | finished (tag : τ) (result : ReadResult Out)
deriving Repr

namespace Decoder

variable {κ φ Raw Out τ : Type} [Codec κ Raw] [Finisher φ Raw Out]

/-- A decoder whose loop has this name. -/
def new (name : String) (core : DecodeCore κ φ) : Decoder κ φ τ :=
  let (runner, loop) := (Loop.new name).attach
  ⟨core, loop, some runner, none⟩

/-- Starts the queue, which begins the first generation. -/
def start (d : Decoder κ φ τ) (q : PacketQueue) : Decoder κ φ τ × PacketQueue :=
  ({ d with core := { d.core with abort := false } }, q.start)

/-- Makes a handle for requests. -/
def handle (d : Decoder κ φ τ) : ReadHandle × Decoder κ φ τ :=
  match d.runner with
  | none => (none, d)
  | some _ =>
    let (runner, loop) := d.loop.attach
    (some runner, { d with loop })

/-- Requests the next frame through a handle; tells whether the request was accepted. -/
def request (d : Decoder κ φ τ) (handle : ReadHandle) (now : Nat) (tag : τ) :
    Bool × Decoder κ φ τ :=
  match handle with
  | none => (false, d)
  | some runner =>
    let (accepted, loop) := d.loop.post now 0 tag (some runner)
    (accepted, { d with loop })

/-- Requests the next frame through the decoder's own runner. -/
def read (d : Decoder κ φ τ) (now : Nat) (tag : τ) : Bool × Decoder κ φ τ :=
  d.request d.runner now tag

/-- Takes back the requests of a handle that have not been started. -/
def cancel (d : Decoder κ φ τ) (handle : ReadHandle) : Decoder κ φ τ :=
  match handle with
  | none => d
  | some runner => { d with loop := (d.loop.remove runner).2 }

/-- Aborts and empties the queue, and takes back the decoder's own requests. -/
def abort (d : Decoder κ φ τ) (q : PacketQueue) : Decoder κ φ τ × PacketQueue :=
  ({ d with core := { d.core with abort := true } }.cancel d.runner, q.abort.flush)

/-- Ends the loop. The thread still finishes the request that it is working on. -/
def join (d : Decoder κ φ τ) : Decoder κ φ τ :=
  match d.runner with
  | none => d
  | some _ =>
    let d := d.cancel d.runner
    { d with runner := none, loop := d.loop.quit }

/-- Whether the thread has nothing to do at a time. -/
def isResting (d : Decoder κ φ τ) (q : PacketQueue) (now : Nat) : Bool :=
  match d.current with
  | some (_, phase) => phase.isBlocked q
  | none => !d.loop.isEnding && (d.loop.next? now).isNone

/-- One step of the thread: it works on its request, or takes the next one, or ends. -/
def step (d : Decoder κ φ τ) (q : PacketQueue) (now : Nat) :
    DecoderEvent Out τ × Decoder κ φ τ × PacketQueue :=
  match d.current with
  | some (tag, phase) =>
    let (progress, core, q) := d.core.step q phase
    let d := { d with core }
    match progress with
    | .go next => (.silent, { d with current := some (tag, next) }, q)
    | .notify next => (.starving, { d with current := some (tag, next) }, q)
    | .done result => (.finished tag result.toResult, { d with current := none }, q)
  | none =>
    match d.loop.next? now with
    | some (tag, loop) => (.silent, { d with loop, current := some (tag, .gate) }, q)
    | none => (.silent, if d.loop.isEnding then { d with loop := d.loop.finish } else d, q)

end Decoder

/-- Changes the format that an audio decoder puts out. -/
def Decoder.setOutput {κ R τ : Type} [Scalar R] (d : Decoder κ (AudioFinisher R) τ)
    (target : AudioParams) : Decoder κ (AudioFinisher R) τ :=
  { d with core := { d.core with finisher := d.core.finisher.setTarget target } }

end Playback
