import Playback.Proofs.Decode.Feeding
import Playback.Scripted.Codec

/-!
# Generations do not mix

A codec keeps generations apart if what it gives out is built from what it has accepted since it last
forgot everything (`Codec.Isolates`). With such a codec a decoder keeps them apart too, wherever generations
begin, also in the middle of a call (`decoded_of_generation`):

> a frame with a serial is made from packets that were put under that serial, by a finisher that saw
> nothing else since it was restarted; and a generation is reported as finished only if its end was put.

Two rules are left to those who work on the queue besides the decoder (`Feeding.Shared`): they empty it
only while it is aborted, and boundaries are for the decoder to take.

What makes it true is that generations follow each other in the queue, each behind its boundary
(`Recorded.Orderly`). An entry that is no boundary therefore belongs to the generation of the entry taken
before it. So the codec and the finisher hold nothing of another generation than the last entry taken
(`Feeding.Clean`), unless its boundary was overtaken and dropped; then no frame is collected before the next
boundary comes.
-/

namespace Playback

/-! ## What is asked of codecs and finishers -/

/-- The states of a codec, with what it has accepted since it last forgot everything. -/
inductive Codec.Reaches {κ Raw : Type} [Codec κ Raw] (k₀ : κ) : List (Option Packet) → κ → Prop where
  | fresh : Reaches k₀ [] k₀
  | accept {l : List (Option Packet)} {k k' : κ} (h : Reaches k₀ l k) (input : Option Packet)
      (answer : Codec.send k input = (.ok (), k')) : Reaches k₀ (l ++ [input]) k'
  | refuse {l : List (Option Packet)} {k k' : κ} (h : Reaches k₀ l k) (input : Option Packet)
      (e : CodecError) (answer : Codec.send k input = (.error e, k')) : Reaches k₀ l k'
  | receive {l : List (Option Packet)} {k k' : κ} (h : Reaches k₀ l k) (r : Except CodecError Raw)
      (answer : Codec.receive k = (r, k')) : Reaches k₀ l k'
  | flush {l : List (Option Packet)} {k : κ} (h : Reaches k₀ l k) : Reaches k₀ [] (Codec.flush k)

/-- A codec builds each frame from packets that it has accepted since it last forgot everything, and
reports the end only if it has accepted the end since then. -/
structure Codec.Isolates {κ Raw : Type} [Codec κ Raw] (k₀ : κ) (Builds : List Packet → Raw → Prop) :
    Prop where
  frame : ∀ {l k k' raw}, Reaches k₀ l k → Codec.receive k = (.ok raw, k') →
    ∃ ps, Builds ps raw ∧ ∀ p ∈ ps, some p ∈ l
  ended : ∀ {l k k'}, Reaches k₀ l k → Codec.receive k = (.error .ended, k') → none ∈ l

/-- The states of a finisher that, since it was restarted, has only been given frames of one kind, and
these under one serial. -/
inductive Finisher.Fed {φ Raw Out : Type} [Finisher φ Raw Out] (Good : Raw → Prop) (s : Serial) :
    φ → Prop where
  | restart (f : φ) : Fed Good s (Finisher.restart f)
  | finish {f f' : φ} (h : Fed Good s f) (raw : Raw) (good : Good raw) (out : Option Out)
      (answer : Finisher.finish f raw s = (out, f')) : Fed Good s f'

theorem Finisher.Fed.mono {φ Raw Out : Type} [Finisher φ Raw Out] {Good Good' : Raw → Prop} {s : Serial}
    {f : φ} (h : Finisher.Fed Good s f) (hmono : ∀ raw, Good raw → Good' raw) :
    Finisher.Fed Good' s f := by
  induction h with
  | restart f => exact .restart f
  | finish h raw good out answer ih => exact .finish ih raw (hmono raw good) out answer

/-- Finished frames carry the serial that they were finished under. -/
def Finisher.Tags (φ : Type) {Raw Out : Type} [Finisher φ Raw Out] (serialOf : Out → Serial) : Prop :=
  ∀ (f f' : φ) (raw : Raw) (s : Serial) (out : Out),
    Finisher.finish f raw s = (some out, f') → serialOf out = s

theorem VideoFinisher.tags {R : Type} [Scalar R] : Finisher.Tags (VideoFinisher R) VideoFrame.serial := by
  intro f f' raw s out h
  cases h
  rfl

theorem AudioFinisher.tags {R : Type} [Scalar R] : Finisher.Tags (AudioFinisher R) AudioBlock.serial := by
  intro f f' raw s out h
  simp only [Finisher.finish, AudioFinisher.finish] at h
  split at h
  next => cases h
  next =>
    split at h
    next => cases h
    next =>
      cases h
      rfl

/-- Whether a frame can be built from packets that were written under a serial. -/
def MadeUnder {Raw : Type} (Builds : List Packet → Raw → Prop) (written : List QueueEntry) (s : Serial)
    (raw : Raw) : Prop :=
  ∃ ps, Builds ps raw ∧ ∀ p ∈ ps, ⟨.packet p, s⟩ ∈ written

theorem MadeUnder.mono {Raw : Type} {Builds : List Packet → Raw → Prop}
    {written written' : List QueueEntry} {s : Serial} {raw : Raw} (h : MadeUnder Builds written s raw)
    (hmono : ∀ e ∈ written, e ∈ written') : MadeUnder Builds written' s raw := by
  obtain ⟨ps, hbuilds, hps⟩ := h
  exact ⟨ps, hbuilds, fun p hp => hmono _ (hps p hp)⟩

/-! ## The invariant -/

/-- Whether a boundary is in hand. -/
def Phase.hasBoundary : Phase → Bool
  | .judge item _ | .feed item => item.isBoundary
  | _ => false

/-- Whether a result is a frame or the report of an end. -/
def Decoded.collects {Out : Type} : Decoded Out → Bool
  | .frame _ | .finished _ => true
  | .aborted | .failed _ => false

namespace Feeding

variable {κ φ Raw Out : Type} [Codec κ Raw] [Finisher φ Raw Out] {x : Feeding κ φ}
  {Builds : List Packet → Raw → Prop} {k₀ : κ}

/-- Others empty the queue only while it is aborted, and leave the boundaries to the decoder. -/
def Shared (x : Feeding κ φ) : DecodeEvent → Prop
  | .queue op => x.record.FlushWhileAborted op ∧ ∀ e ∈ x.record.queue.taken op, e.item.isBoundary = false
  | .setAbort _ | .call | .step => True

instance (x : Feeding κ φ) : ∀ e, Decidable (x.Shared e)
  | .queue op => inferInstanceAs
      (Decidable (x.record.FlushWhileAborted op ∧ ∀ e ∈ x.record.queue.taken op, e.item.isBoundary = false))
  | .setAbort _ | .call | .step => isTrue trivial

/-- Codec and finisher hold nothing but what belongs to the generation of the last entry taken. -/
structure Clean (Builds : List Packet → Raw → Prop) (x : Feeding κ φ) : Prop where
  accepted : ∀ e ∈ x.accepted, x.core.packetSerial = some e.serial
  finisher : ∀ s, x.core.packetSerial = some s →
    Finisher.Fed (MadeUnder Builds x.record.written s) s x.core.finisher

/-- The generation of the last entry taken is over. -/
def Overtaken (x : Feeding κ φ) : Prop :=
  ∃ s, x.core.packetSerial = some s ∧ s < x.record.queue.serial

/-- Generations are apart: the decoder is clean, or the generation of the last entry taken is over, or a
boundary is in hand. -/
structure Isolated (k₀ : κ) (Builds : List Packet → Raw → Prop) (x : Feeding κ φ) : Prop where
  traced : x.Traced
  orderly : x.record.Orderly
  last : x.core.packetSerial = x.record.taken.getLast?.map (·.serial)
  reached : Codec.Reaches k₀ (x.accepted.filterMap (·.item.input?)) x.core.codec
  apart : x.Clean Builds ∨ x.Overtaken ∨ ∃ phase ∈ x.phase, phase.hasBoundary = true
  collecting : ∀ s, x.phase = some (.drain s) ∨ x.phase = some (.receive s) → x.Clean Builds

theorem new_isolated (finisher : φ) (continueOnError : Bool) (stream : StreamKind) :
    (new k₀ finisher continueOnError stream).Isolated k₀ Builds where
  traced := new_traced ..
  orderly := Recorded.new_orderly stream
  last := rfl
  reached := .fresh
  apart := .inl ⟨fun _ h => (nomatch h), fun _ h => (nomatch h)⟩
  collecting := fun _ h => by rcases h with h | h <;> cases h

/-- A clean codec gives frames of the generation. -/
theorem Clean.madeUnder (h : x.Clean Builds) (hk : Codec.Isolates k₀ Builds)
    (hr : Codec.Reaches k₀ (x.accepted.filterMap (·.item.input?)) x.core.codec) {raw : Raw} {codec : κ}
    (answer : Codec.receive x.core.codec = (.ok raw, codec)) {s : Serial}
    (last : x.core.packetSerial = some s) : MadeUnder Builds x.accepted s raw := by
  obtain ⟨ps, hbuilds, hps⟩ := hk.frame hr answer
  refine ⟨ps, hbuilds, fun p hp => ?_⟩
  obtain ⟨e, he, hinput⟩ := List.mem_filterMap.mp (hps p hp)
  have hitem : e.item = .packet p := by
    cases hi : e.item with
    | boundary | endOfStream => rw [hi] at hinput; cases hinput
    | packet p' => rw [hi] at hinput; cases hinput; rfl
  have hserial : e.serial = s := Option.some.inj ((h.accepted e he).symm.trans last)
  rw [← hitem, ← hserial]
  exact he

/-- What the codec has accepted was written into the queue. -/
theorem Traced.accepted_written (h : x.Traced) : ∀ e ∈ x.accepted, e ∈ x.record.written :=
  fun e he => (h.accepted e he).1

namespace Isolated

/-- Where no boundary is in hand. -/
theorem away (h : x.Isolated k₀ Builds) {phase : Phase} (hp : x.phase = some phase)
    (hmark : phase.hasBoundary = false) : x.Clean Builds ∨ x.Overtaken := by
  rcases h.apart with hc | hover | ⟨p, hb, hmark'⟩
  · exact .inl hc
  · exact .inr hover
  · obtain rfl : phase = p := Option.some.inj (hp.symm.trans hb)
    rw [hmark] at hmark'
    cases hmark'

/-- What others do to the queue under the rules keeps generations apart. -/
theorem queue (h : x.Isolated k₀ Builds) {op : QueueOp} (rule : x.Shared (.queue op)) :
    (x.apply (.queue op)).Isolated k₀ Builds := by
  have hwritten : ∀ e ∈ x.record.written, e ∈ (x.record.apply op).written :=
    fun e he => List.mem_append_left _ he
  have hclean : x.Clean Builds → (x.apply (.queue op)).Clean Builds := fun hc =>
    ⟨hc.accepted, fun s hs => (hc.finisher s hs).mono fun _ hg => hg.mono hwritten⟩
  refine ⟨h.traced.apply _, h.orderly.apply rule.1, ?_, h.reached, ?_, fun s hs => hclean (h.collecting s hs)⟩
  · exact h.last.trans (h.orderly.last_taken_apply rule.2).symm
  · rcases h.apart with hc | ⟨s, hlast, hover⟩ | hb
    · exact .inl (hclean hc)
    · exact .inr (.inl ⟨s, hlast, Nat.lt_of_lt_of_le hover (x.record.queue.apply_effect op).serial_le⟩)
    · exact .inr (.inr hb)

/-- A step that leaves everything but the place alone keeps generations apart. -/
theorem pass (h : x.Isolated k₀ Builds) {phase : Phase} {next : Option Phase}
    (hp : x.phase = some phase) (stale : Nat) (passes : Passes x phase next) :
    Isolated k₀ Builds { x with core := { x.core with stale }, phase := next } := by
  have hstands := h.traced.standing phase hp
  have hclean : x.Clean Builds →
      Clean Builds { x with core := { x.core with stale }, phase := next } :=
    fun hc => ⟨hc.accepted, hc.finisher⟩
  refine ⟨h.traced.pass hp stale passes, h.orderly, h.last, h.reached, ?_, fun s hs => hclean ?_⟩
  · rcases h.apart with hc | hover | ⟨p, hb, hmark⟩
    · exact .inl (hclean hc)
    · exact .inr (.inl hover)
    · obtain rfl : phase = p := Option.some.inj (hp.symm.trans hb)
      cases passes with
      | letIn item s current => exact .inr (.inr ⟨_, rfl, hmark⟩)
      | drop item s past =>
        -- the boundary in hand was overtaken by a newer generation
        obtain ⟨hhand, horigin⟩ := hstands
        have hle := (h.orderly.bounded _ hhand.written).2
        rw [horigin] at hle
        exact .inr (.inl ⟨s, by rw [hhand.last, horigin], Nat.lt_of_le_of_ne hle past⟩)
      | stop checks =>
        cases phase with
        | judge | feed => cases checks
        | gate | compare | drain | receive | obtain | poll | read => cases hmark
      | cut | enter | collect | skip | ask | want | look | wait | retry => cases hmark
  · cases passes with
    | collect current =>
      -- frames are collected only if the generation is not over at this moment
      rcases h.away hp rfl with hc | ⟨s', hlast, hover⟩
      · exact hc
      · rw [current] at hlast
        cases hlast
        exact absurd hover (Nat.lt_irrefl _)
    | ask s' => exact h.collecting s' (.inl hp)
    | stop | cut | enter | skip | want | look | wait | retry | letIn | drop =>
      rcases hs with hs | hs <;> cases hs

/-- Taking an entry keeps generations apart: what is no boundary belongs to the generation of the entry
taken before. -/
theorem take (h : x.Isolated k₀ Builds) {reader : Reader} (hp : x.phase = some (.read reader))
    {e : QueueEntry} {queue : PacketQueue} (effect : x.record.queue.Effect .take queue [] [e]) :
    Isolated k₀ Builds { x with
      core := { x.core with packetSerial := some e.serial }
      record := ⟨queue, x.record.written, x.record.taken ++ [e]⟩
      phase := some (.judge e.item e.serial)
      origin := e.serial } := by
  have hlast : (x.record.taken ++ [e]).getLast?.map (·.serial) = some e.serial := by
    rw [List.getLast?_append]
    rfl
  have horderly : Recorded.Orderly ⟨queue, x.record.written, x.record.taken ++ [e]⟩ :=
    h.orderly.effect effect (List.append_nil _).symm rfl (fun hop => nomatch hop)
  refine ⟨h.traced.move hp (.take reader e queue effect), horderly, hlast.symm, h.reached, ?_,
    fun s hs => by rcases hs with hs | hs <;> cases hs⟩
  cases hmark : e.item.isBoundary with
  | true => exact .inr (.inr ⟨_, rfl, hmark⟩)
  | false =>
    cases effect with
    | take e _ _ _ entries serial =>
      -- so the codec, which holds nothing of another generation than before, need not be flushed
      have hsame : x.core.packetSerial = some e.serial :=
        h.last.trans (h.orderly.last_taken entries hmark)
      rcases h.away hp rfl with hc | ⟨s, hs, hover⟩
      · exact .inl ⟨fun e' he' => hsame ▸ hc.accepted e' he', fun s hs => hc.finisher s (hsame.trans hs)⟩
      · exact .inr (.inl ⟨s, hsame ▸ hs, serial ▸ hover⟩)

/-- A step of a call keeps generations apart. -/
theorem move (h : x.Isolated k₀ Builds) (hk : Codec.Isolates k₀ Builds) {phase : Phase}
    (hp : x.phase = some phase) {x' : Feeding κ φ} (hm : Move x phase x') : x'.Isolated k₀ Builds := by
  have htraced := h.traced.move hp hm
  have hstands := h.traced.standing phase hp
  cases hm with
  | pass stale passes => exact h.pass hp stale passes
  | take reader e queue effect => exact h.take hp effect
  | reuse item kept =>
    refine ⟨htraced, h.orderly, h.last, h.reached, ?_, fun s hs => by rcases hs with hs | hs <;> cases hs⟩
    rcases h.away hp rfl with hc | hover
    · exact .inl ⟨hc.accepted, hc.finisher⟩
    · exact .inr (.inl hover)
  | frame s raw codec out finisher frames next answer finish leads =>
    have hc := h.collecting s (.inr hp)
    have hgood := (hc.madeUnder hk h.reached answer hstands).mono h.traced.accepted_written
    -- the finisher has seen one more frame of the generation, whether it gave one or not
    have hclean : Clean Builds { x with core := { x.core with codec, finisher, frames }, phase := next } :=
      ⟨hc.accepted, fun s' hs' => by
        obtain rfl : s' = s := Option.some.inj (hs'.symm.trans hstands)
        exact (hc.finisher s' hs').finish raw hgood out finish⟩
    exact ⟨htraced, h.orderly, h.last, h.reached.receive _ answer, .inl hclean, fun _ _ => hclean⟩
  | ended s codec answer =>
    have hc := h.collecting s (.inr hp)
    have hreached := (h.reached.receive _ answer).flush
    exact ⟨htraced, h.orderly, h.last, hreached, .inl ⟨fun _ he => (nomatch he), hc.finisher⟩,
      fun s hs => by rcases hs with hs | hs <;> cases hs⟩
  | unanswered s e codec errors next answer leads =>
    have hc := h.collecting s (.inr hp)
    have hclean : Clean Builds { x with core := { x.core with codec, errors }, phase := next } :=
      ⟨hc.accepted, hc.finisher⟩
    exact ⟨htraced, h.orderly, h.last, h.reached.receive _ answer, .inl hclean, fun _ _ => hclean⟩
  | restart =>
    refine ⟨htraced, h.orderly, h.last, h.reached.flush, .inl ⟨fun _ he => (nomatch he), ?_⟩,
      fun s hs => by rcases hs with hs | hs <;> cases hs⟩
    exact fun s _ => .restart x.core.finisher
  | accept item input codec sends answer =>
    have hreached : Codec.Reaches k₀
        (List.filterMap (fun e : QueueEntry => e.item.input?) (x.accepted ++ [⟨item, x.origin⟩])) codec := by
      rw [List.filterMap_append]
      simpa [sends] using h.reached.accept input answer
    refine ⟨htraced, h.orderly, h.last, hreached, ?_, fun s hs => by rcases hs with hs | hs <;> cases hs⟩
    rcases h.away hp (QueueItem.input?_isBoundary sends) with hc | hover
    · -- what is accepted came with the last entry taken, even if it had been kept
      refine .inl ⟨fun e he => ?_, hc.finisher⟩
      rcases List.mem_append.mp he with hold | hnew
      · exact hc.accepted e hold
      · rw [List.mem_singleton.mp hnew]
        exact hstands.last
    · exact .inr (.inl hover)
  | refuse item input codec sends answer =>
    refine ⟨htraced, h.orderly, h.last, h.reached.refuse input _ answer, ?_,
      fun s hs => by rcases hs with hs | hs <;> cases hs⟩
    rcases h.away hp (QueueItem.input?_isBoundary sends) with hc | hover
    · exact .inl ⟨hc.accepted, hc.finisher⟩
    · exact .inr (.inl hover)
  | reject item input e codec next sends answer leads =>
    refine ⟨htraced, h.orderly, h.last, h.reached.refuse input _ answer, ?_,
      fun s hs => by rcases hs with hs | hs <;> cases leads _ hs⟩
    rcases h.away hp (QueueItem.input?_isBoundary sends) with hc | hover
    · exact .inl ⟨hc.accepted, hc.finisher⟩
    · exact .inr (.inl hover)

/-- Every event under the rules keeps generations apart. -/
theorem apply (h : x.Isolated k₀ Builds) (hk : Codec.Isolates k₀ Builds) {e : DecodeEvent}
    (rule : x.Shared e) : (x.apply e).Isolated k₀ Builds := by
  have htraced := h.traced.apply e
  cases e with
  | queue op => exact h.queue rule
  | setAbort abort =>
    have hclean : x.Clean Builds → (x.apply (.setAbort abort)).Clean Builds :=
      fun hc => ⟨hc.accepted, hc.finisher⟩
    exact ⟨htraced, h.orderly, h.last, h.reached, h.apart.imp_left hclean,
      fun s hs => hclean (h.collecting s hs)⟩
  | call =>
    cases hp : x.phase with
    | some phase =>
      have hsame : x.apply .call = x := by simp [Feeding.apply, hp]
      rw [hsame]
      exact h
    | none =>
      rw [call_eq hp] at htraced ⊢
      refine ⟨htraced, h.orderly, h.last, h.reached, ?_, fun s hs => by rcases hs with hs | hs <;> cases hs⟩
      rcases h.apart with hc | hover | ⟨p, hb, -⟩
      · exact .inl ⟨hc.accepted, hc.finisher⟩
      · exact .inr (.inl hover)
      · cases hp.symm.trans hb
  | step =>
    cases hp : x.phase with
    | none =>
      rw [show x.apply .step = x from step_none hp]
      exact h
    | some phase => exact h.move hk hp (step_move hp)

end Isolated
/-! ## What calls return -/

theorem feed_collects {c : DecodeCore κ φ} {item : QueueItem} {result : Decoded Out}
    (h : (c.feed item).1 = .done result) : result.collects = false := by
  cases item with
  | boundary => cases h
  | endOfStream | packet =>
    simp only [DecodeCore.feed, DecodeCore.sendItem] at h
    split at h <;> cases h
    rfl

/-- Only where frames are collected, a call returns one or reports an end. -/
theorem result_receive {result : Decoded Out} (h : x.result? = some result)
    (collects : result.collects = true) :
    ∃ s, x.phase = some (.receive s) ∧ (x.core.receive s).1 = .done result := by
  cases hp : x.phase with
  | none => simp [result?, hp] at h
  | some phase =>
    have hdone : (x.core.step x.record.queue phase).1 = .done result := by
      simp only [result?, hp] at h
      split at h
      next r hr => cases h; exact hr
      next => cases h
    cases phase with
    | receive s => exact ⟨s, rfl, hdone⟩
    | gate | drain | poll | read =>
      simp only [DecodeCore.step] at hdone
      split at hdone <;> cases hdone
      cases collects
    | compare | obtain | judge =>
      simp only [DecodeCore.step] at hdone
      split at hdone <;> cases hdone
    | feed item =>
      rw [feed_collects hdone] at collects
      cases collects

theorem receive_frame {c : DecodeCore κ φ} {s : Serial} {out : Out}
    (h : (c.receive s).1 = .done (.frame out)) : ∃ raw codec finisher,
      Codec.receive c.codec = (.ok raw, codec) ∧ Finisher.finish c.finisher raw s = (some out, finisher) := by
  rcases hanswer : Codec.receive c.codec with ⟨answer, codec⟩
  simp only [DecodeCore.receive, hanswer] at h
  cases answer with
  | ok raw =>
    rcases hfinish : Finisher.finish c.finisher raw s with ⟨out', finisher⟩
    simp only [hfinish] at h
    cases out' with
    | none => cases h
    | some out' => cases h; exact ⟨raw, codec, finisher, rfl, hfinish⟩
  | error e =>
    cases e with
    | again | ended => cases h
    | fatal detail =>
      dsimp only at h
      split at h <;> cases h

theorem receive_finished {c : DecodeCore κ φ} {s s' : Serial}
    (h : (c.receive s : Progress Out × DecodeCore κ φ).1 = .done (.finished s')) :
    s' = s ∧ ∃ codec, Codec.receive c.codec = (.error .ended, codec) := by
  rcases hanswer : Codec.receive c.codec with ⟨answer, codec⟩
  simp only [DecodeCore.receive, hanswer] at h
  cases answer with
  | ok raw =>
    dsimp only at h
    split at h <;> cases h
  | error e =>
    cases e with
    | again => cases h
    | ended => cases h; exact ⟨rfl, codec, rfl⟩
    | fatal detail =>
      dsimp only at h
      split at h <;> cases h

end Feeding

open Feeding in
/-- **Generations do not mix.** Let the codec build frames only from what it has accepted since it last
forgot everything, and let others empty the queue only while it is aborted and leave boundaries to the
decoder. Whenever a call returns a frame, everything that the codec holds was put under the serial of the
frame; the frame comes from a raw frame that was built from packets put under that serial; and the finisher
was given nothing else since it was restarted. Whenever a call reports the end of a generation, the end was
put under its serial. -/
theorem decoded_of_generation {κ φ Raw Out : Type} [Codec κ Raw] [Finisher φ Raw Out]
    (codec : κ) (finisher : φ) (continueOnError : Bool) (stream : StreamKind)
    (Builds : List Packet → Raw → Prop) (isolates : Codec.Isolates codec Builds)
    (serialOf : Out → Serial) (tags : Finisher.Tags φ serialOf)
    (events : List DecodeEvent)
    (rule : Obeys Feeding.apply Shared (new codec finisher continueOnError stream) events) :
    let x := events.foldl Feeding.apply (new codec finisher continueOnError stream)
    (∀ out, x.result? = some (.frame out) →
      (∀ e ∈ x.accepted, e ∈ x.record.written ∧ e.serial = serialOf out) ∧
      ∃ (f : φ) (raw : Raw) (f' : φ), Finisher.finish f raw (serialOf out) = (some out, f') ∧
        MadeUnder Builds x.accepted (serialOf out) raw ∧
        Finisher.Fed (MadeUnder Builds x.record.written (serialOf out)) (serialOf out) f) ∧
    (∀ s, x.result? = some (.finished s) → ⟨.endOfStream, s⟩ ∈ x.accepted ∧ ⟨.endOfStream, s⟩ ∈ x.record.written) := by
  intro x
  have h : x.Isolated codec Builds :=
    rule.preserves (fun _ _ hi ha => hi.apply isolates ha) (new_isolated ..)
  refine ⟨fun out hresult => ?_, fun s hresult => ?_⟩
  · obtain ⟨s, hp, hdone⟩ := result_receive hresult rfl
    obtain ⟨raw, k, f', hanswer, hfinish⟩ := receive_frame hdone
    have hclean := h.collecting s (.inr hp)
    have hlast : x.core.packetSerial = some s := h.traced.standing _ hp
    rw [tags _ _ _ _ _ hfinish]
    refine ⟨fun e he => ⟨h.traced.accepted_written e he, ?_⟩, _, raw, f', hfinish,
      hclean.madeUnder isolates h.reached hanswer hlast, hclean.finisher s hlast⟩
    exact Option.some.inj ((hclean.accepted e he).symm.trans hlast)
  · obtain ⟨s', hp, hdone⟩ := result_receive hresult rfl
    obtain ⟨rfl, k, hanswer⟩ := receive_finished hdone
    have hclean := h.collecting s (.inr hp)
    have hlast : x.core.packetSerial = some s := h.traced.standing _ hp
    obtain ⟨e, he, hinput⟩ := List.mem_filterMap.mp (isolates.ended h.reached hanswer)
    obtain ⟨hwritten, hmark⟩ := h.traced.accepted e he
    have hserial : e.serial = s := Option.some.inj ((hclean.accepted e he).symm.trans hlast)
    have hitem : e.item = .endOfStream := by
      cases hi : e.item with
      | boundary => rw [hi] at hmark; cases hmark
      | packet p => rw [hi] at hinput; cases hinput
      | endOfStream => rfl
    rw [← hitem, ← hserial]
    exact ⟨he, hwritten⟩

namespace ScriptedCodec

variable {Raw : Type} {build : Packet → Raw} {l : List (Option Packet)} {k k' : ScriptedCodec Raw}

/-- A scripted codec whose script for frames is empty holds nothing but what it has accepted. -/
structure Holds (build : Packet → Raw) (l : List (Option Packet)) (k : ScriptedCodec Raw) : Prop where
  receiving : k.receiving = []
  builds : k.build = build
  frames : ∀ raw ∈ k.frames, ∃ p, some p ∈ l ∧ build p = raw
  draining : k.draining = true → none ∈ l

theorem Holds.accept (h : Holds build l k) {input : Option Packet}
    (answer : Codec.send k input = (.ok (), k')) : Holds build (l ++ [input]) k' := by
  simp only [Codec.send, ScriptedCodec.send] at answer
  split at answer
  next => cases answer
  next =>
    cases input with
    | none =>
      cases answer
      refine ⟨h.receiving, h.builds, fun raw hraw => ?_, fun _ => by simp⟩
      obtain ⟨p, hp, hbuild⟩ := h.frames raw hraw
      exact ⟨p, List.mem_append_left _ hp, hbuild⟩
    | some p =>
      cases answer
      refine ⟨h.receiving, h.builds, fun raw hraw => ?_, fun hd => List.mem_append_left _ (h.draining hd)⟩
      rcases List.mem_append.mp hraw with hold | hnew
      · obtain ⟨p', hp', hbuild⟩ := h.frames raw hold
        exact ⟨p', List.mem_append_left _ hp', hbuild⟩
      · exact ⟨p, by simp, by rw [← h.builds, List.mem_singleton.mp hnew]⟩

theorem Holds.refuse (h : Holds build l k) {input : Option Packet} {e : CodecError}
    (answer : Codec.send k input = (.error e, k')) : Holds build l k' := by
  simp only [Codec.send, ScriptedCodec.send] at answer
  split at answer
  next => cases answer; exact ⟨h.receiving, h.builds, h.frames, h.draining⟩
  next => cases answer

/-- A call for a frame gives the first one, or tells whether the end was accepted. -/
theorem Holds.receive (h : Holds build l k) {answer : Except CodecError Raw}
    (hanswer : Codec.receive k = (answer, k')) : Holds build l k' ∧
      (∀ raw, answer = .ok raw → ∃ p, some p ∈ l ∧ build p = raw) ∧
      (answer = .error .ended → none ∈ l) := by
  simp only [Codec.receive, ScriptedCodec.receive, h.receiving, List.headD_nil, List.drop_nil, pop] at hanswer
  cases hframes : k.frames with
  | nil =>
    simp only [hframes] at hanswer
    cases hanswer
    refine ⟨⟨rfl, h.builds, (fun _ hraw => nomatch hraw), h.draining⟩, (fun _ hraw => nomatch hraw),
      fun hended => ?_⟩
    cases hd : k.draining with
    | true => exact h.draining hd
    | false => rw [hd] at hended; cases hended
  | cons first rest =>
    simp only [hframes] at hanswer
    cases hanswer
    refine ⟨⟨rfl, h.builds, fun raw hraw => h.frames raw (hframes ▸ List.mem_cons_of_mem _ hraw),
      h.draining⟩, fun raw hraw => ?_, fun hended => nomatch hended⟩
    cases hraw
    exact h.frames first (hframes ▸ List.mem_cons_self ..)

theorem Holds.flush : Holds build l k → Holds build [] (Codec.flush k) := fun h =>
  ⟨h.receiving, h.builds, fun _ hraw => (nomatch hraw), fun hd => nomatch hd⟩

theorem holds_of_reaches {sending : List (ScriptEntry Raw)}
    (h : Codec.Reaches (new sending [] build) l k) : Holds build l k := by
  induction h with
  | fresh => exact ⟨rfl, rfl, fun _ hraw => (nomatch hraw), fun hd => nomatch hd⟩
  | accept _ input answer ih => exact ih.accept answer
  | refuse _ input e answer ih => exact ih.refuse answer
  | receive _ r answer ih => exact (ih.receive answer).1
  | flush _ ih => exact ih.flush

/-- A scripted codec keeps generations apart, whatever it answers when it is sent something. -/
theorem isolates (sending : List (ScriptEntry Raw)) (build : Packet → Raw) :
    Codec.Isolates (new sending [] build) (fun ps raw => ∃ p, ps = [p] ∧ build p = raw) where
  frame := fun hreaches hanswer => by
    obtain ⟨p, hp, hbuild⟩ := ((holds_of_reaches hreaches).receive hanswer).2.1 _ rfl
    exact ⟨[p], ⟨p, rfl, hbuild⟩, fun p' hp' => List.mem_singleton.mp hp' ▸ hp⟩
  ended := fun hreaches hanswer => ((holds_of_reaches hreaches).receive hanswer).2.2 rfl

end ScriptedCodec

/-- The frame of a result. -/
def Decoded.frame? {Out : Type} : Decoded Out → Option Out
  | .frame out => some out
  | _ => none

/-- A generation begins while a packet of the one before is in hand; the call goes on until it is about to
collect a frame. -/
def overtakenRun : List DecodeEvent :=
  [.queue .start, .queue (.put default), .call] ++ List.replicate 14 .step
    ++ [.queue .beginGeneration, .queue (.put default)] ++ List.replicate 17 .step

/-- A decoder with a codec that gives one frame for each packet. -/
def frameByFrame : Feeding (ScriptedCodec RawVideoFrame) (VideoFinisher Float) :=
  .new (.new [] [] fun _ => default) ⟨⟨1, 1000⟩, none⟩ true .video

/-- What the call returns then is of the new generation. -/
theorem decoded_across_restart :
    Obeys Feeding.apply Feeding.Shared frameByFrame overtakenRun ∧
      ∃ out, (overtakenRun.foldl Feeding.apply frameByFrame).result? = some (.frame out) ∧ out.serial = 2 ∧
        ∀ e ∈ (overtakenRun.foldl Feeding.apply frameByFrame).accepted, e.serial = 2 := by
  have rule : Obeys Feeding.apply Feeding.Shared frameByFrame overtakenRun := by decide
  have hserial : ((overtakenRun.foldl Feeding.apply frameByFrame).result?.bind Decoded.frame?).map
      VideoFrame.serial = some 2 := by decide
  obtain ⟨out, hframe, hout⟩ := Option.map_eq_some_iff.mp hserial
  obtain ⟨result, hresult, hframe⟩ := Option.bind_eq_some_iff.mp hframe
  obtain rfl : result = .frame out := by cases result <;> cases hframe; rfl
  have h := decoded_of_generation _ _ true .video _ (ScriptedCodec.isolates [] _) _
    VideoFinisher.tags overtakenRun rule
  exact ⟨rule, out, hresult, hout, fun e he => ((h.1 out hresult).1 e he).2.trans hout⟩

end Playback
