import Playback.Decode.Decoder
import Playback.Scripted.Codec

/-!
# Decoding with scripted codecs

Whole calls and whole runs of decoders, in which the script of the codec changes the packet queue while a
call for a frame is under way, and a second script says what others do with the queue when a decoder gives
notice that it is empty.
-/

namespace Playback

/-- All operations on a queue, one after the other. -/
def PacketQueue.applyAll (q : PacketQueue) (ops : List QueueOp) : PacketQueue :=
  ops.foldl (fun q op => (q.apply op).2) q

/-- What happens to a queue when a reader gives notice: the next entry of a script, after which a queue that
is still empty is aborted. -/
def PacketQueue.answerNotice (q : PacketQueue) (script : List (List QueueOp)) :
    PacketQueue × List (List QueueOp) :=
  let q := q.applyAll (script.headD [])
  (if q.isEmpty && !q.aborted then q.abort else q, script.drop 1)

/-- A reader that waits for an entry while notices are answered from a script; also gives the number of
notices. -/
def Reader.run (reader : Reader) (q : PacketQueue) (script : List (List QueueOp)) (notices : Nat) :
    Nat → Dequeued × Nat × PacketQueue
  | 0 => (.empty, notices, q)
  | fuel + 1 =>
    match reader.step q with
    | (.done d, q) => (d, notices, q)
    | (.go next, q) => run next q script notices fuel
    | (.notify next, q) =>
      let (q, script) := q.answerNotice script
      run next q script (notices + 1) fuel

variable {Raw Out φ τ : Type} [Finisher φ Raw Out]

namespace DecodeCore

/-- One step of a call, with the queue operations of the codec's script. -/
def stepScripted (c : DecodeCore (ScriptedCodec Raw) φ) (q : PacketQueue) (phase : Phase) :
    Progress Out × DecodeCore (ScriptedCodec Raw) φ × PacketQueue :=
  match phase with
  | .receive _ =>
    let (ops, codec) := c.codec.takeQueueOps
    { c with codec }.step (q.applyAll ops) phase
  | _ => c.step q phase

/-- A whole call while notices are answered from a script; `none` if the call sleeps forever. -/
def run (c : DecodeCore (ScriptedCodec Raw) φ) (q : PacketQueue) (script : List (List QueueOp))
    (phase : Phase) :
    Nat → Option (Decoded Out) × DecodeCore (ScriptedCodec Raw) φ × PacketQueue × List (List QueueOp)
  | 0 => (none, c, q, script)
  | fuel + 1 =>
    match c.stepScripted q phase with
    | (.done result, c, q) => (some result, c, q, script)
    | (.go next, c, q) =>
      if next.isBlocked q then (none, c, q, script) else run c q script next fuel
    | (.notify next, c, q) =>
      let (q, script) := q.answerNotice script
      run { c with codec := c.codec.note .starved } q script next fuel

end DecodeCore

namespace Decoder

/-- One step of a decoder's thread, with the queue operations of the codec's script and a note for each
notice if someone listens. -/
def stepScripted (d : Decoder (ScriptedCodec Raw) φ τ) (q : PacketQueue) (now : Nat) :
    DecoderEvent Out τ × Decoder (ScriptedCodec Raw) φ τ × PacketQueue :=
  let (d, q) :=
    match d.current with
    | some (_, .receive _) =>
      let (ops, codec) := d.core.codec.takeQueueOps
      ({ d with core := { d.core with codec } }, q.applyAll ops)
    | _ => (d, q)
  match d.step q now with
  | (.starving, d, q) => (.starving, { d with core := { d.core with codec := d.core.codec.note .starved } }, q)
  | other => other

/-- A decoder by itself, with its queue and the requests that are finished, newest first. -/
structure Alone (Raw Out φ τ : Type) where
  decoder : Decoder (ScriptedCodec Raw) φ τ
  queue : PacketQueue
  finished : List (τ × ReadResult Out)

/-- A step of the decoder's thread, if it has something to do. -/
def Alone.step? (a : Alone Raw Out φ τ) (now : Nat) : Option (Alone Raw Out φ τ) :=
  if a.decoder.isResting a.queue now then none
  else
    let (event, decoder, queue) := a.decoder.stepScripted a.queue now
    let finished :=
      match event with
      | .finished tag result => (tag, result) :: a.finished
      | _ => a.finished
    some ⟨decoder, queue, finished⟩

end Decoder
end Playback
