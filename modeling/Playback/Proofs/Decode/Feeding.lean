import Playback.Decode.Core
import Playback.Proofs.PacketQueue.History

/-!
# What a codec is fed

`Feeding` is a decoder on its queue, together with what the program itself does not remember: under which
serial the item in hand and the kept item were put, what was sent to the codec, and what the codec has
accepted since it last forgot everything. `Feeding.step` is `DecodeCore.step` with this account beside it;
the events of a run (`DecodeEvent`) are single steps of a call, the calls themselves, and whatever others do
to the queue between any two steps.

`step_move` says once what a step can do (`Move`), and `Traced`, which every event keeps, says where
everything comes from:

> what is in hand, kept, accepted or sent was written into the queue under the serial it is counted for,
> and the item in hand and the kept item belong to the generation of the last entry taken.
-/

namespace Playback

/-- What a codec is sent for an item; a boundary is not sent. -/
def QueueItem.input? : QueueItem → Option (Option Packet)
  | .boundary => none
  | .endOfStream => some none
  | .packet p => some (some p)

theorem QueueItem.input?_isBoundary {item : QueueItem} {input : Option Packet}
    (h : item.input? = some input) : item.isBoundary = false := by
  cases item with
  | boundary => cases h
  | endOfStream | packet => rfl

theorem QueueItem.eq_boundary {item : QueueItem} (h : item.input? = none) : item = .boundary := by
  cases item with
  | boundary => rfl
  | endOfStream | packet => cases h

/-- What is no boundary is sent. -/
theorem DecodeCore.feed_sends {κ φ Raw Out : Type} [Codec κ Raw] [Finisher φ Raw Out] {c : DecodeCore κ φ}
    {item : QueueItem} {input : Option Packet} (h : item.input? = some input) :
    c.feed item = (c.sendItem item input : Progress Out × DecodeCore κ φ) := by
  cases item <;> cases h <;> rfl

/-- Something that was sent to a codec: the entry it came with, and the serial of the queue at that time. -/
structure Sent where
  entry : QueueEntry
  live : Serial
deriving DecidableEq

/-- Whether what was sent belongs to a generation that was over. -/
def Sent.Stale (c : Sent) : Prop :=
  c.entry.serial ≠ c.live

instance (c : Sent) : Decidable c.Stale :=
  inferInstanceAs (Decidable (¬ _ = _))

/-- An event at a decoder. -/
inductive DecodeEvent where
  /-- An operation on the queue by someone else. -/
  | queue (op : QueueOp)
  /-- The decoder is told to give up, or to go on again. -/
  | setAbort (abort : Bool)
  /-- A call for the next frame begins, unless one is under way. -/
  | call
  /-- The call under way makes one step. -/
  | step

/-- A decoder on its queue with an account of what went to the codec. -/
structure Feeding (κ φ : Type) where
  core : DecodeCore κ φ
  record : Recorded
  /-- Where the call stands, if one is under way. -/
  phase : Option Phase
  /-- The serial under which the item in hand was put. -/
  origin : Serial
  /-- The serial under which the kept item was put. -/
  keptOrigin : Serial
  /-- What the codec has accepted since it last forgot everything. -/
  accepted : List QueueEntry
  /-- Everything that was sent, accepted or not. -/
  sent : List Sent

/-- Where a call goes on, if it does. -/
def Progress.next? {Out : Type} : Progress Out → Option Phase
  | .go next | .notify next => some next
  | .done _ => none

/-- Whether a call that stands here checks whether to give up. -/
def Phase.checks : Phase → Bool
  | .gate | .drain _ | .poll => true
  | _ => false

namespace Feeding

variable {κ φ Raw Out : Type} [Codec κ Raw] [Finisher φ Raw Out]

/-- A new decoder on a new queue. -/
def new (codec : κ) (finisher : φ) (continueOnError : Bool) (stream : StreamKind) : Feeding κ φ where
  core := .new codec finisher continueOnError
  record := .new stream
  phase := none
  origin := 0
  keptOrigin := 0
  accepted := []
  sent := []

/-- The account of feeding an item. -/
def trackFeed (x : Feeding κ φ) (item : QueueItem) : Feeding κ φ :=
  match item.input? with
  | none => { x with accepted := [] }
  | some input =>
    let entry : QueueEntry := ⟨item, x.origin⟩
    let x := { x with sent := x.sent ++ [⟨entry, x.record.queue.serial⟩] }
    match (Codec.send x.core.codec input).1 with
    | .ok _ => { x with accepted := x.accepted ++ [entry] }
    | .error .again => { x with keptOrigin := x.origin }
    | .error _ => x

/-- The account of one step of a call. -/
def track (x : Feeding κ φ) (phase : Phase) : Feeding κ φ :=
  match phase with
  | .obtain => if x.core.pending.isSome then { x with origin := x.keptOrigin } else x
  | .read reader =>
    match (reader.step x.record.queue).1 with
    | .done (.entry e) =>
      { x with origin := e.serial, record := { x.record with taken := x.record.taken ++ [e] } }
    | _ => x
  | .receive _ =>
    match (Codec.receive x.core.codec).1 with
    | .error .ended => { x with accepted := [] }
    | _ => x
  | .feed item => x.trackFeed item
  | _ => x

/-- One step of the call under way. -/
def step (x : Feeding κ φ) : Feeding κ φ :=
  match x.phase with
  | none => x
  | some phase =>
    let (progress, core, queue) := x.core.step x.record.queue phase
    let x := x.track phase
    { x with core, record := { x.record with queue }, phase := progress.next? }

/-- The result of the call under way, if its next step ends it. -/
def result? (x : Feeding κ φ) : Option (Decoded Out) :=
  match x.phase with
  | none => none
  | some phase =>
    match (x.core.step x.record.queue phase).1 with
    | .done result => some result
    | _ => none

/-- What an event makes of a decoder. -/
def apply (x : Feeding κ φ) : DecodeEvent → Feeding κ φ
  | .queue op => { x with record := x.record.apply op }
  | .setAbort abort => { x with core := { x.core with abort } }
  | .call => if x.phase.isNone then { x with phase := some .gate } else x
  | .step => x.step

/-! ## What a step can do -/

/-- Steps that leave everything alone but the place at which the call stands. -/
inductive Passes (x : Feeding κ φ) : Phase → Option Phase → Prop where
  | stop {phase : Phase} (checks : phase.checks = true)
      (halted : x.core.isAborted x.record.queue = true) : Passes x phase none
  | cut (reader : Reader) : Passes x (.read reader) none
  | enter (running : x.core.isAborted x.record.queue = false) : Passes x .gate (some .compare)
  | collect (current : x.core.packetSerial = some x.record.queue.serial) :
      Passes x .compare (some (.drain x.record.queue.serial))
  | skip : Passes x .compare (some .obtain)
  | ask (s : Serial) : Passes x (.drain s) (some (.receive s))
  | want (kept : x.core.pending = none) : Passes x .obtain (some .poll)
  | look (reader : Reader) : Passes x .poll (some (.read reader))
  | wait (reader next : Reader) : Passes x (.read reader) (some (.read next))
  | retry (reader : Reader) : Passes x (.read reader) (some .poll)
  | letIn (item : QueueItem) (s : Serial) (current : s = x.record.queue.serial) :
      Passes x (.judge item s) (some (.feed item))
  | drop (item : QueueItem) (s : Serial) (past : s ≠ x.record.queue.serial) :
      Passes x (.judge item s) (some .poll)

/-- What a step can do. -/
inductive Move (x : Feeding κ φ) : Phase → Feeding κ φ → Prop where
  | pass {phase : Phase} {next : Option Phase} (stale : Nat) (passes : Passes x phase next) :
      Move x phase { x with core := { x.core with stale }, phase := next }
  | take (reader : Reader) (e : QueueEntry) (queue : PacketQueue)
      (effect : x.record.queue.Effect .take queue [] [e]) :
      Move x (.read reader) { x with
        core := { x.core with packetSerial := some e.serial }
        record := ⟨queue, x.record.written, x.record.taken ++ [e]⟩
        phase := some (.judge e.item e.serial)
        origin := e.serial }
  | reuse (item : QueueItem) (kept : x.core.pending = some item) :
      Move x .obtain { x with
        core := { x.core with pending := none }
        phase := some (.feed item)
        origin := x.keptOrigin }
  | frame (s : Serial) (raw : Raw) (codec : κ) (out : Option Out) (finisher : φ) (frames : Nat)
      (next : Option Phase) (answer : Codec.receive x.core.codec = (.ok raw, codec))
      (finish : Finisher.finish x.core.finisher raw s = (out, finisher))
      (leads : ∀ p ∈ next, p = .drain s) :
      Move x (.receive s) { x with core := { x.core with codec, finisher, frames }, phase := next }
  | ended (s : Serial) (codec : κ) (answer : Codec.receive x.core.codec = (.error .ended, codec)) :
      Move x (.receive s) { x with
        core := { x.core with finished := some s, codec := Codec.flush codec }
        phase := none
        accepted := [] }
  | unanswered (s : Serial) (e : CodecError) (codec : κ) (errors : Nat) (next : Option Phase)
      (answer : Codec.receive x.core.codec = (.error e, codec)) (leads : ∀ p ∈ next, p = .obtain) :
      Move x (.receive s) { x with core := { x.core with codec, errors }, phase := next }
  | restart :
      Move x (.feed .boundary) { x with
        core := { x.core with
          codec := Codec.flush x.core.codec
          finished := none
          finisher := Finisher.restart x.core.finisher }
        phase := some .gate
        accepted := [] }
  | accept (item : QueueItem) (input : Option Packet) (codec : κ) (sends : item.input? = some input)
      (answer : Codec.send x.core.codec input = (.ok (), codec)) :
      Move x (.feed item) { x with
        core := { x.core with codec }
        phase := some .gate
        accepted := x.accepted ++ [⟨item, x.origin⟩]
        sent := x.sent ++ [⟨⟨item, x.origin⟩, x.record.queue.serial⟩] }
  | refuse (item : QueueItem) (input : Option Packet) (codec : κ) (sends : item.input? = some input)
      (answer : Codec.send x.core.codec input = (.error .again, codec)) :
      Move x (.feed item) { x with
        core := { x.core with codec, pending := some item }
        phase := some .gate
        keptOrigin := x.origin
        sent := x.sent ++ [⟨⟨item, x.origin⟩, x.record.queue.serial⟩] }
  | reject (item : QueueItem) (input : Option Packet) (e : CodecError) (codec : κ)
      (next : Option Phase) (sends : item.input? = some input)
      (answer : Codec.send x.core.codec input = (.error e, codec)) (leads : ∀ p ∈ next, p = .gate) :
      Move x (.feed item) { x with
        core := { x.core with codec }
        phase := next
        sent := x.sent ++ [⟨⟨item, x.origin⟩, x.record.queue.serial⟩] }

variable {x : Feeding κ φ}

theorem call_eq (idle : x.phase = none) : x.apply .call = { x with phase := some .gate } := by
  simp [apply, idle]

theorem step_none (h : x.phase = none) : x.step = x := by
  simp only [step, h]

theorem receive_move {s : Serial} (h : x.phase = some (.receive s)) : Move x (.receive s) x.step := by
  rcases hanswer : Codec.receive x.core.codec with ⟨answer, codec⟩
  simp only [step, h, track, DecodeCore.step, DecodeCore.receive, hanswer]
  cases answer with
  | ok raw =>
    rcases hfinish : Finisher.finish x.core.finisher raw s with ⟨out, finisher⟩
    simp only [hfinish]
    cases out with
    | none => exact .frame s raw codec none finisher _ (some (.drain s)) hanswer hfinish (by simp)
    | some out => exact .frame s raw codec (some out) finisher _ none hanswer hfinish (by simp)
  | error e =>
    cases e with
    | again => exact .unanswered s _ codec _ (some .obtain) hanswer (by simp)
    | ended => exact .ended s codec hanswer
    | fatal detail =>
      dsimp only
      by_cases hc : x.core.continueOnError = true
      · rw [if_pos hc]
        exact .unanswered s _ codec _ (some .obtain) hanswer (by simp)
      · rw [if_neg hc]
        exact .unanswered s _ codec _ none hanswer (by simp)

theorem feed_move {item : QueueItem} (h : x.phase = some (.feed item)) :
    Move x (.feed item) x.step := by
  cases hinput : item.input? with
  | none =>
    obtain rfl := QueueItem.eq_boundary hinput
    simp only [step, h, track, trackFeed, QueueItem.input?]
    exact .restart
  | some input =>
    rcases hanswer : Codec.send x.core.codec input with ⟨answer, codec⟩
    simp only [step, h, track, trackFeed, DecodeCore.step, hinput, DecodeCore.feed_sends hinput,
      DecodeCore.sendItem, hanswer]
    cases answer with
    | ok _ => exact .accept item input codec hinput hanswer
    | error e =>
      cases e with
      | again => exact .refuse item input codec hinput hanswer
      | ended => exact .reject item input _ codec (some .gate) hinput hanswer (by simp)
      | fatal detail => exact .reject item input _ codec none hinput hanswer (by simp)

theorem read_move {reader : Reader} (h : x.phase = some (.read reader)) :
    Move x (.read reader) x.step := by
  rcases reader.step_cases x.record.queue with ⟨e, hdone, heffect⟩ | ⟨hnone, hsame⟩
  · rcases hstep : reader.step x.record.queue with ⟨answer, queue⟩
    rw [hstep] at hdone heffect
    subst hdone
    simp only [step, h, track, DecodeCore.step, hstep]
    exact .take reader e queue heffect
  · rcases hstep : reader.step x.record.queue with ⟨answer, queue⟩
    rw [hstep] at hnone hsame
    obtain rfl : queue = x.record.queue := hsame
    simp only [step, h, track, DecodeCore.step, hstep]
    cases answer with
    | go next => exact .pass x.core.stale (.wait reader next)
    | notify next => exact .pass x.core.stale (.wait reader next)
    | done d =>
      cases d with
      | entry e => exact absurd rfl (hnone e)
      | aborted => exact .pass x.core.stale (.cut reader)
      | empty => exact .pass x.core.stale (.retry reader)

/-- Every step of a call is one of these. -/
theorem step_move {phase : Phase} (h : x.phase = some phase) : Move x phase x.step := by
  cases phase with
  | gate =>
    simp only [step, h, track, DecodeCore.step]
    cases ha : x.core.isAborted x.record.queue with
    | true => exact .pass x.core.stale (.stop rfl ha)
    | false => exact .pass x.core.stale (.enter ha)
  | compare =>
    simp only [step, h, track, DecodeCore.step]
    split
    next hserial => exact .pass x.core.stale (.collect hserial)
    next => exact .pass x.core.stale .skip
  | drain s =>
    simp only [step, h, track, DecodeCore.step]
    cases ha : x.core.isAborted x.record.queue with
    | true => exact .pass x.core.stale (.stop rfl ha)
    | false => exact .pass x.core.stale (.ask s)
  | receive s => exact receive_move h
  | obtain =>
    simp only [step, h, track, DecodeCore.step]
    cases hp : x.core.pending with
    | none => exact .pass x.core.stale (.want hp)
    | some item => exact .reuse item hp
  | poll =>
    simp only [step, h, track, DecodeCore.step]
    cases ha : x.core.isAborted x.record.queue with
    | true => exact .pass x.core.stale (.stop rfl ha)
    | false => exact .pass x.core.stale (.look .fresh)
  | read reader => exact read_move h
  | judge item s =>
    simp only [step, h, track, DecodeCore.step]
    split
    next hs => exact .pass x.core.stale (.letIn item s hs)
    next hs => exact .pass (x.core.stale + 1) (.drop item s hs)
  | feed item => exact feed_move h

/-! ## Where everything comes from -/

/-- An item in hand came with the last entry taken. -/
structure InHand (x : Feeding κ φ) (item : QueueItem) : Prop where
  alone : x.core.pending = none
  written : ⟨item, x.origin⟩ ∈ x.record.written
  last : x.core.packetSerial = some x.origin

/-- What holds where a call stands. -/
def Standing (x : Feeding κ φ) : Phase → Prop
  | .gate | .compare | .obtain => True
  | .drain s | .receive s => x.core.packetSerial = some s
  | .poll | .read _ => x.core.pending = none
  | .judge item s => x.InHand item ∧ x.origin = s
  | .feed item => x.InHand item

/-- Whatever a decoder holds or has sent was written into its queue, under the serial that it is counted
for. -/
structure Traced (x : Feeding κ φ) : Prop where
  queued : ∀ e ∈ x.record.queue.entries, e ∈ x.record.written
  kept : ∀ item ∈ x.core.pending, ⟨item, x.keptOrigin⟩ ∈ x.record.written ∧
    x.core.packetSerial = some x.keptOrigin ∧ item.isBoundary = false
  accepted : ∀ e ∈ x.accepted, e ∈ x.record.written ∧ e.item.isBoundary = false
  sent : ∀ c ∈ x.sent, c.entry ∈ x.record.written
  standing : ∀ phase ∈ x.phase, x.Standing phase

theorem new_traced (codec : κ) (finisher : φ) (continueOnError : Bool) (stream : StreamKind) :
    (new codec finisher continueOnError stream).Traced where
  queued := fun _ h => nomatch h
  kept := fun _ h => nomatch h
  accepted := fun _ h => nomatch h
  sent := fun _ h => nomatch h
  standing := fun _ h => nomatch h

namespace Traced

theorem sent_snoc (h : x.Traced) {item : QueueItem} (hi : x.InHand item) :
    ∀ c ∈ x.sent ++ [⟨⟨item, x.origin⟩, x.record.queue.serial⟩], c.entry ∈ x.record.written := by
  intro c hc
  rcases List.mem_append.mp hc with hold | hnew
  · exact h.sent c hold
  · rw [List.mem_singleton.mp hnew]
    exact hi.written

/-- What others do to the queue leaves everything traced. -/
theorem queue (h : x.Traced) (op : QueueOp) : (x.apply (.queue op)).Traced := by
  have hgrows : ∀ e ∈ x.record.written, e ∈ (x.record.apply op).written :=
    fun e he => List.mem_append_left _ he
  have hhand : ∀ item, x.InHand item → (x.apply (.queue op)).InHand item :=
    fun item hi => ⟨hi.alone, hgrows _ hi.written, hi.last⟩
  refine ⟨?_, fun item hi => ⟨hgrows _ (h.kept item hi).1, (h.kept item hi).2⟩,
    fun e he => ⟨hgrows e (h.accepted e he).1, (h.accepted e he).2⟩,
    fun c hc => hgrows _ (h.sent c hc), fun phase hp => ?_⟩
  · exact x.record.queued_written h.queued op
  · have hstands := h.standing phase hp
    cases phase with
    | gate | compare | obtain => trivial
    | drain | receive | poll | read => exact hstands
    | judge item s => exact ⟨hhand item hstands.1, hstands.2⟩
    | feed item => exact hhand item hstands

theorem pass (h : x.Traced) {phase : Phase} {next : Option Phase} (hp : x.phase = some phase)
    (stale : Nat) (passes : Passes x phase next) :
    Traced { x with core := { x.core with stale }, phase := next } := by
  have hstands := h.standing phase hp
  refine ⟨h.queued, h.kept, h.accepted, h.sent, fun p hnext => ?_⟩
  cases passes with
  | stop | cut => cases hnext
  | enter | skip => cases hnext; trivial
  | collect current => cases hnext; exact current
  | ask s => cases hnext; exact hstands
  | want kept => cases hnext; exact kept
  | look | wait | retry => cases hnext; exact hstands
  | letIn item s current =>
    cases hnext
    exact ⟨hstands.1.alone, hstands.1.written, hstands.1.last⟩
  | drop item s past => cases hnext; exact hstands.1.alone

/-- A step of a call leaves everything traced. -/
theorem move (h : x.Traced) {phase : Phase} (hp : x.phase = some phase) {x' : Feeding κ φ}
    (hm : Move x phase x') : x'.Traced := by
  have hstands := h.standing phase hp
  cases hm with
  | pass stale passes => exact h.pass hp stale passes
  | take reader e queue effect =>
    obtain ⟨hhead, htail⟩ : e ∈ x.record.written ∧ ∀ e' ∈ queue.entries, e' ∈ x.record.written := by
      cases effect with
      | take e _ _ _ entries =>
        exact ⟨h.queued e (by rw [entries]; exact List.mem_cons_self ..),
          fun e' he' => h.queued e' (by rw [entries]; exact List.mem_cons_of_mem _ he')⟩
    refine ⟨htail, fun item hi => ?_, h.accepted, h.sent, fun p hnext => ?_⟩
    · rw [show x.core.pending = none from hstands] at hi
      cases hi
    · cases hnext
      exact ⟨⟨hstands, hhead, rfl⟩, rfl⟩
  | reuse item kept =>
    refine ⟨h.queued, (fun _ hi => nomatch hi), h.accepted, h.sent, fun p hnext => ?_⟩
    cases hnext
    obtain ⟨hwritten, hlast, -⟩ := h.kept item kept
    exact ⟨rfl, hwritten, hlast⟩
  | frame s raw codec out finisher frames next answer finish leads =>
    refine ⟨h.queued, h.kept, h.accepted, h.sent, fun p hnext => ?_⟩
    rw [leads p hnext]
    exact hstands
  | ended s codec answer =>
    exact ⟨h.queued, h.kept, (fun _ he => nomatch he), h.sent, fun _ hnext => nomatch hnext⟩
  | unanswered s e codec errors next answer leads =>
    refine ⟨h.queued, h.kept, h.accepted, h.sent, fun p hnext => ?_⟩
    rw [leads p hnext]
    trivial
  | restart =>
    refine ⟨h.queued, h.kept, (fun _ he => nomatch he), h.sent, fun p hnext => ?_⟩
    cases hnext
    trivial
  | accept item input codec sends answer =>
    refine ⟨h.queued, h.kept, fun e he => ?_, h.sent_snoc hstands, fun p hnext => ?_⟩
    · rcases List.mem_append.mp he with hold | hnew
      · exact h.accepted e hold
      · rw [List.mem_singleton.mp hnew]
        exact ⟨hstands.written, QueueItem.input?_isBoundary sends⟩
    · cases hnext
      trivial
  | refuse item input codec sends answer =>
    refine ⟨h.queued, fun i hi => ?_, h.accepted, h.sent_snoc hstands, fun p hnext => ?_⟩
    · cases hi
      exact ⟨hstands.written, hstands.last, QueueItem.input?_isBoundary sends⟩
    · cases hnext
      trivial
  | reject item input e codec next sends answer leads =>
    refine ⟨h.queued, h.kept, h.accepted, h.sent_snoc hstands, fun p hnext => ?_⟩
    rw [leads p hnext]
    trivial

/-- Every event leaves everything traced. -/
theorem apply (h : x.Traced) (e : DecodeEvent) : (x.apply e).Traced := by
  cases e with
  | queue op => exact h.queue op
  | setAbort abort =>
    refine ⟨h.queued, h.kept, h.accepted, h.sent, fun phase hp => ?_⟩
    have hstands := h.standing phase hp
    cases phase with
    | gate | compare | obtain => trivial
    | drain | receive | poll | read => exact hstands
    | judge item s => exact ⟨⟨hstands.1.alone, hstands.1.written, hstands.1.last⟩, hstands.2⟩
    | feed item => exact ⟨hstands.alone, hstands.written, hstands.last⟩
  | call =>
    simp only [Feeding.apply]
    split
    next =>
      refine ⟨h.queued, h.kept, h.accepted, h.sent, fun phase hp => ?_⟩
      cases hp
      trivial
    next => exact h
  | step =>
    cases hp : x.phase with
    | none =>
      rw [show x.apply .step = x from step_none hp]
      exact h
    | some phase => exact h.move hp (step_move hp)

/-- A run leaves everything traced. -/
theorem run (h : x.Traced) (events : List DecodeEvent) : (events.foldl Feeding.apply x).Traced := by
  have hfree : Obeys Feeding.apply (fun _ _ => True) x events := .of_forall fun _ _ => trivial
  exact hfree.preserves (fun _ e ht _ => ht.apply e) h

end Traced
end Feeding
end Playback
