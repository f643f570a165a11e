import Playback.Proofs.Decode.Stale

/-!
# What reaches the codec

As long as no generation begins, a decoder hands everything that it takes from the queue to the codec: each
packet and each end mark once, in order, whatever the codec answers (`delivered_in_order`). Its parts can be
anywhere on the way:

> what was taken of the present generation = what the codec accepted, then the item in hand, then the item
> that is kept.

The law behind it is a balance of one step (`step_balance`): what was held before the step, with what the
step takes, is what the step delivers, with what is held after it. It needs only that nothing is kept while
something new is taken (`Settled`).
-/

namespace Playback

/-- Something that was sent to a codec, with the answer. -/
structure Exchange where
  input : Option Packet
  answer : Except CodecError Unit

namespace Exchange

/-- Whether the codec took it, or wants nothing more of this generation. -/
def isDelivered (s : Exchange) : Bool :=
  match s.answer with
  | .ok _ | .error .ended => true
  | .error _ => false

def isFatal (s : Exchange) : Bool :=
  match s.answer with
  | .error (.fatal _) => true
  | _ => false

end Exchange

/-- What the codec is to be sent for an entry if the queue is at this serial. -/
def QueueEntry.inputAt? (e : QueueEntry) (serial : Serial) : Option (Option Packet) :=
  if e.serial = serial then e.item.input? else none

/-- Whether an event leaves the generation as it is. -/
def DecodeEvent.keepsGeneration : DecodeEvent → Bool
  | .queue op => op.item? ≠ some .boundary
  | _ => true

namespace Feeding

variable {κ φ Raw Out : Type} [Codec κ Raw] [Finisher φ Raw Out] {x : Feeding κ φ}

/-! ## The account of a run -/

/-- What the next step sends to the codec, with the answer. -/
def exchange? (x : Feeding κ φ) : Option Exchange :=
  match x.phase with
  | some (.feed item) => item.input?.map fun input => ⟨input, (Codec.send x.core.codec input).1⟩
  | _ => none

/-- What was taken from the queue after `x₀`. -/
def takenSince (x x₀ : Feeding κ φ) : List QueueEntry :=
  x.record.taken.drop x₀.record.taken.length

/-- What the next step takes from the queue for the codec: what is over is only thrown away. -/
def draw (x : Feeding κ φ) : List (Option Packet) :=
  (x.step.takenSince x).filterMap (·.inputAt? x.record.queue.serial)

/-- What the steps of a run show, in their order. -/
def observed {α : Type} (look : Feeding κ φ → List α) : Feeding κ φ → List DecodeEvent → List α
  | _, [] => []
  | x, .step :: events => look x ++ observed look x.step events
  | x, e :: events => observed look (x.apply e) events

/-- Everything that a run sends to the codec, with the answers. -/
def exchanges (x : Feeding κ φ) (events : List DecodeEvent) : List Exchange :=
  observed (·.exchange?.toList) x events

/-- Everything that a run sends to the codec and that the codec need not be sent again. -/
def delivered (x : Feeding κ φ) (events : List DecodeEvent) : List (Option Packet) :=
  ((x.exchanges events).filter (·.isDelivered)).map (·.input)

/-- Everything that a run takes from the queue for the codec. -/
def drawn (x : Feeding κ φ) (events : List DecodeEvent) : List (Option Packet) :=
  observed draw x events

/-- What the call under way has taken and is about to send. -/
def hand? (x : Feeding κ φ) : Option (Option Packet) :=
  match x.phase with
  | some (.judge item s) => QueueEntry.inputAt? ⟨item, s⟩ x.record.queue.serial
  | some (.feed item) => item.input?
  | _ => none

/-- What the codec is to be sent for the item that is kept. -/
def kept? (x : Feeding κ φ) : Option (Option Packet) :=
  x.core.pending.bind QueueItem.input?

/-- What is on its way from the queue to the codec. -/
def held (x : Feeding κ φ) : List (Option Packet) :=
  x.hand?.toList ++ x.kept?.toList

/-! ## The balance of a step -/

/-- Nothing is kept while something new is taken. -/
def Settled (x : Feeding κ φ) : Prop :=
  ∀ phase ∈ x.phase,
    match phase with
    | .poll | .read _ | .judge .. | .feed _ => x.core.pending = none
    | _ => True

theorem settled_of_idle (idle : x.phase = none) : x.Settled := by
  intro phase hp
  rw [idle] at hp
  cases hp

/-- A step that only moves on keeps what is held. -/
theorem pass_balance (h : x.Settled) {phase : Phase} (hp : x.phase = some phase) {next : Option Phase}
    (stale : Nat) (passes : Passes x phase next) :
    x.held = held { x with core := { x.core with stale }, phase := next } ∧
      Settled { x with core := { x.core with stale }, phase := next } := by
  have hsettled := h phase hp
  cases passes with
  | stop checks =>
    have hstop : x.hand? = none := by
      cases phase with
      | gate | drain | poll => simp [hand?, hp]
      | _ => cases checks
    rw [held, held, hstop]
    exact ⟨rfl, settled_of_idle rfl⟩
  | cut | enter | collect | skip | ask => simp [held, hand?, kept?, Settled, hp]
  | want kept => simp [held, hand?, kept?, Settled, hp, kept]
  | look | wait | retry => simpa [held, hand?, kept?, Settled, hp] using hsettled
  | letIn item s current =>
    simpa [held, hand?, kept?, Settled, hp, QueueEntry.inputAt?, current] using hsettled
  | drop item s past => simpa [held, hand?, kept?, Settled, hp, QueueEntry.inputAt?, past] using hsettled

/-- A step that feeds nothing adds what it takes to what is held. -/
theorem move_balance (h : x.Settled) {phase : Phase} (hp : x.phase = some phase)
    (other : ∀ item, phase ≠ .feed item) {x' : Feeding κ φ} (hm : Move x phase x') :
    x.held ++ (x'.takenSince x).filterMap (·.inputAt? x.record.queue.serial) = x'.held ∧ x'.Settled := by
  have hsettled := h phase hp
  cases hm with
  | pass stale passes =>
    obtain ⟨hheld, hafter⟩ := pass_balance h hp stale passes
    exact ⟨by simp [takenSince, hheld], hafter⟩
  | take reader e queue effect =>
    have hserial : queue.serial = x.record.queue.serial := by
      cases effect with
      | take e _ _ _ _ serial => exact serial
    have halone : x.core.pending = none := hsettled
    refine ⟨?_, fun p hnext => by cases hnext; exact halone⟩
    cases hinput : e.inputAt? x.record.queue.serial <;>
      simp [held, hand?, kept?, takenSince, hp, halone, hserial, hinput]
  | reuse item kept =>
    exact ⟨by simp [held, hand?, kept?, takenSince, hp, kept], fun p hnext => by cases hnext; rfl⟩
  | frame s raw codec out finisher frames next answer finish leads =>
    cases next with
    | none => exact ⟨by simp [held, hand?, kept?, takenSince, hp], settled_of_idle rfl⟩
    | some next =>
      obtain rfl := leads next rfl
      exact ⟨by simp [held, hand?, kept?, takenSince, hp], fun p hnext => by cases hnext; exact True.intro⟩
  | ended s codec answer => exact ⟨by simp [held, hand?, kept?, takenSince, hp], settled_of_idle rfl⟩
  | unanswered s e codec errors next answer leads =>
    cases next with
    | none => exact ⟨by simp [held, hand?, kept?, takenSince, hp], settled_of_idle rfl⟩
    | some next =>
      obtain rfl := leads next rfl
      exact ⟨by simp [held, hand?, kept?, takenSince, hp], fun p hnext => by cases hnext; exact True.intro⟩
  | restart | accept | refuse | reject => exact absurd rfl (other _)

/-- What feeding an item delivers leaves the hand; what is refused is kept. -/
theorem feed_balance (h : x.Settled) {item : QueueItem} (hp : x.phase = some (.feed item))
    (sound : ∀ s ∈ x.exchange?, s.isFatal = false) :
    x.held = (x.exchange?.toList.filter (·.isDelivered)).map (·.input) ++ x.step.held ∧ x.step.Settled := by
  have halone : x.core.pending = none := h _ hp
  cases hinput : item.input? with
  | none =>
    obtain rfl := QueueItem.eq_boundary hinput
    simp [held, hand?, kept?, exchange?, step, track, trackFeed, DecodeCore.step, DecodeCore.feed, hp, halone,
      QueueItem.input?, Progress.next?, Settled]
  | some input =>
    rcases hanswer : Codec.send x.core.codec input with ⟨answer, codec⟩
    have hexchange : x.exchange? = some ⟨input, answer⟩ := by
      simp [exchange?, hp, hinput, hanswer]
    have hcore : x.step.core = (x.core.sendItem item input : Progress Out × DecodeCore κ φ).2 := by
      simp [step, hp, DecodeCore.step, DecodeCore.feed_sends hinput]
    have hphase : x.step.phase = (x.core.sendItem item input : Progress Out × DecodeCore κ φ).1.next? := by
      simp [step, hp, DecodeCore.step, DecodeCore.feed_sends hinput]
    have hheld : x.held = [input] := by simp [held, hand?, kept?, hp, hinput, halone]
    rw [hexchange, hheld, held, hand?, kept?, Settled, hcore, hphase]
    simp only [DecodeCore.sendItem, hanswer]
    cases answer with
    | ok _ => simp [Exchange.isDelivered, Progress.next?, halone]
    | error e =>
      cases e with
      | again => simp [Exchange.isDelivered, Progress.next?, hinput]
      | ended => simp [Exchange.isDelivered, Progress.next?, halone]
      | fatal detail => cases sound _ hexchange

/-- **The balance of a step.** What is held, with what the step takes, is what the step delivers, with what is
held afterwards. -/
theorem step_balance (h : x.Settled) (sound : ∀ s ∈ x.exchange?, s.isFatal = false) :
    x.held ++ x.draw = (x.exchange?.toList.filter (·.isDelivered)).map (·.input) ++ x.step.held ∧
      x.step.Settled := by
  cases hp : x.phase with
  | none =>
    rw [draw, step_none hp]
    exact ⟨by simp [exchange?, takenSince, hp], h⟩
  | some phase =>
    by_cases hfeeds : ∃ item, phase = .feed item
    · obtain ⟨item, rfl⟩ := hfeeds
      obtain ⟨hheld, hafter⟩ := feed_balance h hp sound
      have hdraw : x.draw = [] := by
        have hm := feed_move hp
        rw [draw, takenSince]
        generalize x.step = x' at hm ⊢
        cases hm with
        | pass stale passes => simp
        | restart | accept | refuse | reject => simp
      rw [hdraw, List.append_nil]
      exact ⟨hheld, hafter⟩
    · have other : ∀ item, phase ≠ .feed item := fun item hitem => hfeeds ⟨item, hitem⟩
      have hexchange : x.exchange? = none := by
        rw [exchange?, hp]
        cases phase with
        | feed item => exact absurd rfl (other item)
        | _ => rfl
      rw [hexchange]
      exact move_balance h hp other (step_move hp)

/-! ## The balance of a run -/

/-- What others do within the generation keeps what is held. -/
theorem other_balance (h : x.Settled) {e : DecodeEvent} (keeps : e.keepsGeneration = true) (other : e ≠ .step) :
    (x.apply e).held = x.held ∧ (x.apply e).Settled := by
  cases e with
  | queue op =>
    have hserial := (x.record.queue.apply_within (of_decide_eq_true keeps)).1
    refine ⟨?_, h⟩
    simp only [held, hand?, kept?, apply, Recorded.apply, hserial]
  | setAbort abort => exact ⟨rfl, h⟩
  | call =>
    cases hp : x.phase with
    | none =>
      rw [call_eq hp]
      exact ⟨by simp [held, hand?, kept?, hp], fun p hnext => by cases hnext; exact True.intro⟩
    | some phase =>
      have hsame : x.apply .call = x := by simp [apply, hp]
      rw [hsame]
      exact ⟨rfl, h⟩
  | step => exact absurd rfl other

/-- What is held at first, with what a run takes, is what the run delivers, with what is held in the end. -/
theorem run_balance (h : x.Settled) {events : List DecodeEvent}
    (keeps : ∀ e ∈ events, e.keepsGeneration = true) (sound : ∀ s ∈ x.exchanges events, s.isFatal = false) :
    x.held ++ x.drawn events = x.delivered events ++ (events.foldl apply x).held ∧
      (events.foldl apply x).Settled := by
  induction events generalizing x with
  | nil => exact ⟨by simp [drawn, delivered, exchanges, observed], h⟩
  | cons e events ih =>
    obtain ⟨hkeeps, hrest⟩ := List.forall_mem_cons.mp keeps
    by_cases hstep : e = .step
    · subst hstep
      have hexchanges : x.exchanges (.step :: events) = x.exchange?.toList ++ x.step.exchanges events := rfl
      have hdrawn : x.drawn (.step :: events) = x.draw ++ x.step.drawn events := rfl
      rw [hexchanges, List.forall_mem_append] at sound
      obtain ⟨hbalance, hafter⟩ := step_balance h (fun s hs => sound.1 s (Option.mem_toList.mpr hs))
      obtain ⟨hrun, hend⟩ := ih hafter hrest sound.2
      refine ⟨?_, hend⟩
      -- what is held after the first step is where the two balances meet
      rw [delivered, hexchanges, List.filter_append, List.map_append, hdrawn]
      calc x.held ++ (x.draw ++ x.step.drawn events)
          = (x.exchange?.toList.filter (·.isDelivered)).map (·.input) ++ (x.step.held ++ x.step.drawn events) := by
            rw [← List.append_assoc, hbalance, List.append_assoc]
        _ = _ := by
            rw [hrun, List.append_assoc]
            rfl
    · have hexchanges : x.exchanges (e :: events) = (x.apply e).exchanges events := by
        cases e <;> first | rfl | exact absurd rfl hstep
      have hdrawn : x.drawn (e :: events) = (x.apply e).drawn events := by
        cases e <;> first | rfl | exact absurd rfl hstep
      obtain ⟨hheld, hafter⟩ := other_balance h hkeeps hstep
      rw [hexchanges] at sound
      obtain ⟨hrun, hend⟩ := ih hafter hrest sound
      rw [hheld] at hrun
      rw [hdrawn, delivered, hexchanges]
      exact ⟨hrun, hend⟩

end Feeding

/-- **Delivery is exact.** Let a run begin between two calls with nothing kept, let no generation begin in it,
and let the codec fail at nothing that it is sent. Then, whenever no call is under way, what the codec took or
wanted no more of, followed by the item that is kept, is just what was taken from the queue of the present
generation: every packet and every end mark once, and in this order. Whatever the codec is sent next, though
it should fail at it, is the one that follows what was delivered. -/
theorem delivered_in_order {κ φ Raw Out : Type} [Codec κ Raw] [Finisher φ Raw Out] (x : Feeding κ φ)
    (idle : x.phase = none) (nothing : x.core.pending = none) (events : List DecodeEvent)
    (keeps : ∀ e ∈ events, e.keepsGeneration = true) (sound : ∀ s ∈ x.exchanges events, s.isFatal = false) :
    let y := events.foldl Feeding.apply x
    (y.phase = none → x.delivered events ++ y.kept?.toList = x.drawn events) ∧
    ∀ s ∈ y.exchange?, x.delivered events ++ [s.input] = x.drawn events := by
  intro y
  have hsettled : x.Settled := Feeding.settled_of_idle idle
  have hnone : x.held = [] := by simp [Feeding.held, Feeding.hand?, Feeding.kept?, idle, nothing]
  obtain ⟨hbalance, hend⟩ := Feeding.run_balance hsettled keeps sound
  rw [hnone, List.nil_append] at hbalance
  refine ⟨fun hidle => ?_, fun s hs => ?_⟩
  · have hheld : y.held = y.kept?.toList := by simp [Feeding.held, Feeding.hand?, hidle]
    rw [hbalance, ← hheld]
  · obtain ⟨item, hp, hinput⟩ : ∃ item, y.phase = some (.feed item) ∧ item.input? = some s.input := by
      rw [Feeding.exchange?] at hs
      split at hs
      next item hp =>
        obtain ⟨input, hinput, rfl⟩ := Option.map_eq_some_iff.mp hs
        exact ⟨item, hp, hinput⟩
      next => cases hs
    have halone : y.core.pending = none := hend _ hp
    have hheld : y.held = [s.input] := by simp [Feeding.held, Feeding.hand?, Feeding.kept?, hp, hinput, halone]
    rw [hbalance, ← hheld]

/-- A codec refuses the second packet, fails to decode the first, and then gives a frame: one packet was
delivered, the other is kept, and both were taken. -/
theorem refused_packet_follows :
    let codec : ScriptedCodec RawVideoFrame :=
      .new [.normal, .error .again] [.normal, .error (.fatal "corrupt")] (fun _ => default)
    let x := (Feeding.new codec (⟨⟨1, 1000⟩, none⟩ : VideoFinisher Float) true .video).apply (.queue .start)
    let events := [.queue (.put default), .queue (.put default), .call] ++ List.replicate 29 .step
    let y := events.foldl Feeding.apply x
    y.core.pending.isSome = true ∧ (x.exchanges events).length = 2 ∧
      x.delivered events ++ y.kept?.toList = x.drawn events :=
  ⟨by decide, by decide, (delivered_in_order _ (by decide) (by decide) _ (by decide) (by decide)).1 (by decide)⟩

end Playback
