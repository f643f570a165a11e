import Playback.Proofs.Decode.Feeding
import Playback.Scripted.Codec

/-!
# Entries of a past generation at the codec

Where generations begin only between two calls, everything a call takes from the queue and feeds belongs to
the present generation. The kept item is another matter: it goes to the codec again without a look at the
serial. `stale_sent_iff` says exactly when a call sends what is over:

> if and only if it is let run, an item was kept, and a generation has begun since the last entry was taken;
> and then what is over is that item.

The invariant is `OneCall`: what a call has in hand, has kept and has sent is of the generation in which the
call began, or is the item that had been kept before (`Fits`).
-/

namespace Playback

/-- Whether an event may happen during a call, if generations begin only between calls. The flag that makes
a decoder give up is taken back only where a generation begins. -/
def DecodeEvent.isWithin : DecodeEvent → Bool
  | .queue op => op.item? ≠ some .boundary
  | .setAbort abort => abort
  | .call => false
  | .step => true

/-- Only what begins a generation changes the serial, and only the start of a queue lets it run again. -/
theorem PacketQueue.apply_within {q : PacketQueue} {op : QueueOp} (h : op.item? ≠ some .boundary) :
    (q.apply op).2.serial = q.serial ∧ (q.aborted = true → (q.apply op).2.aborted = true) := by
  have heffect := q.apply_effect op
  generalize q.written op = wrote, q.taken op = took at heffect
  cases heffect with
  | keep entries serial published aborted => exact ⟨serial, aborted⟩
  | clear flush entries serial published aborted => exact ⟨serial, fun ha => by rw [aborted, ha]⟩
  | append item mark running aborted entries serial =>
    exact ⟨serial, fun ha => by rw [running] at ha; cases ha⟩
  | begin kept held begins => exact absurd begins h
  | take e take running aborted entries serial =>
    exact ⟨serial, fun ha => by rw [running] at ha; cases ha⟩

namespace Feeding

variable {κ φ Raw Out : Type} [Codec κ Raw] [Finisher φ Raw Out] {x₀ x : Feeding κ φ}

/-- A call with what happens before it ends. -/
def during (x : Feeding κ φ) (events : List DecodeEvent) : Feeding κ φ :=
  events.foldl apply (x.apply .call)

/-- What was sent after `x₀`. -/
def sentSince (x x₀ : Feeding κ φ) : List Sent :=
  x.sent.drop x₀.sent.length

/-- Whether an entry is of the generation in which a call began, or the item that had been kept before. -/
def Fits (x₀ : Feeding κ φ) (e : QueueEntry) : Prop :=
  e.serial = x₀.record.queue.serial ∨ (x₀.core.pending = some e.item ∧ x₀.keptOrigin = e.serial)

/-- What holds during a call that began at `x₀`. -/
structure OneCall (x₀ x : Feeding κ φ) : Prop where
  serial : x.record.queue.serial = x₀.record.queue.serial
  sent : ∃ new, x.sent = x₀.sent ++ new ∧
    ∀ c ∈ new, c.live = x₀.record.queue.serial ∧ x₀.Fits c.entry
  kept : ∀ item ∈ x.core.pending, x₀.Fits ⟨item, x.keptOrigin⟩
  hand : ∀ item, x.phase = some (.feed item) → x₀.Fits ⟨item, x.origin⟩

namespace OneCall

/-- A call that has just begun. -/
theorem begin (idle : x.phase = none) : x.OneCall (x.apply .call) := by
  rw [call_eq idle]
  exact ⟨rfl, ⟨[], by simp⟩, fun item hi => .inr ⟨hi, rfl⟩, fun _ hp => nomatch hp⟩

theorem sent_snoc (h : x₀.OneCall x) {item : QueueItem} (hp : x.phase = some (.feed item)) :
    ∃ new, x.sent ++ [⟨⟨item, x.origin⟩, x.record.queue.serial⟩] = x₀.sent ++ new ∧
      ∀ c ∈ new, c.live = x₀.record.queue.serial ∧ x₀.Fits c.entry := by
  obtain ⟨new, hsent, hfits⟩ := h.sent
  refine ⟨new ++ [⟨⟨item, x.origin⟩, x.record.queue.serial⟩], by rw [hsent, List.append_assoc], ?_⟩
  intro c hc
  rcases List.mem_append.mp hc with hold | hnew
  · exact hfits c hold
  · rw [List.mem_singleton.mp hnew]
    exact ⟨h.serial, h.hand item hp⟩

/-- A step keeps to the call. -/
theorem move (h : x₀.OneCall x) (ht : x.Traced) {phase : Phase} (hp : x.phase = some phase)
    {x' : Feeding κ φ} (hm : Move x phase x') : x₀.OneCall x' := by
  have hstands := ht.standing phase hp
  cases hm with
  | pass stale passes =>
    refine ⟨h.serial, h.sent, h.kept, fun item hnext => ?_⟩
    cases passes with
    | letIn item' s current =>
      -- the entry was compared with the serial, which does not change during the call
      cases hnext
      exact .inl (by rw [← h.serial, ← current]; exact hstands.2)
    | stop | cut | enter | collect | skip | ask | want | look | wait | retry | drop => cases hnext
  | take reader e queue effect =>
    have hserial : queue.serial = x.record.queue.serial := by
      cases effect with
      | take e _ _ _ _ serial => exact serial
    exact ⟨hserial.trans h.serial, h.sent, h.kept, fun _ hnext => nomatch hnext⟩
  | reuse item kept =>
    refine ⟨h.serial, h.sent, (fun _ hi => nomatch hi), fun item' hnext => ?_⟩
    cases hnext
    exact h.kept item kept
  | frame s raw codec out finisher frames next answer finish leads =>
    exact ⟨h.serial, h.sent, h.kept, fun item hnext => nomatch leads _ hnext⟩
  | ended s codec answer => exact ⟨h.serial, h.sent, h.kept, fun _ hnext => nomatch hnext⟩
  | unanswered s e codec errors next answer leads =>
    exact ⟨h.serial, h.sent, h.kept, fun item hnext => nomatch leads _ hnext⟩
  | restart => exact ⟨h.serial, h.sent, h.kept, fun _ hnext => nomatch hnext⟩
  | accept item input codec sends answer =>
    exact ⟨h.serial, h.sent_snoc hp, h.kept, fun _ hnext => nomatch hnext⟩
  | refuse item input codec sends answer =>
    -- an item that is refused again goes on to fit: it is as old as it was
    refine ⟨h.serial, h.sent_snoc hp, fun item' hi => ?_, fun _ hnext => nomatch hnext⟩
    cases hi
    exact h.hand item hp
  | reject item input e codec next sends answer leads =>
    exact ⟨h.serial, h.sent_snoc hp, h.kept, fun item' hnext => nomatch leads _ hnext⟩

/-- Every event that may happen during a call keeps to it. -/
theorem apply (h : x₀.OneCall x) (ht : x.Traced) {e : DecodeEvent} (he : e.isWithin = true) :
    x₀.OneCall (x.apply e) := by
  cases e with
  | queue op =>
    have hserial := (x.record.queue.apply_within (of_decide_eq_true he)).1
    exact ⟨hserial.trans h.serial, h.sent, h.kept, h.hand⟩
  | setAbort abort => exact ⟨h.serial, h.sent, h.kept, h.hand⟩
  | call => cases he
  | step =>
    cases hp : x.phase with
    | none =>
      rw [show x.apply .step = x from step_none hp]
      exact h
    | some phase => exact h.move ht hp (step_move hp)

theorem run (h : x₀.OneCall x) (ht : x.Traced) {events : List DecodeEvent}
    (within : ∀ e ∈ events, e.isWithin = true) : x₀.OneCall (events.foldl Feeding.apply x) := by
  have hrun : Obeys Feeding.apply (fun _ e => e.isWithin = true) x events := .of_forall within
  have hboth := hrun.preserves (P := fun y => x₀.OneCall y ∧ y.Traced)
    (fun y e hy he => ⟨hy.1.apply hy.2 he, hy.2.apply e⟩) ⟨h, ht⟩
  exact hboth.1

theorem sentSince (h : x₀.OneCall x) {c : Sent} (hc : c ∈ x.sentSince x₀) :
    c ∈ x.sent ∧ c.live = x₀.record.queue.serial ∧ x₀.Fits c.entry := by
  obtain ⟨new, hsent, hfits⟩ := h.sent
  have hnew : c ∈ new := by
    simpa [Feeding.sentSince, hsent] using hc
  exact ⟨hsent ▸ List.mem_append_right _ hnew, hfits c hnew⟩

/-- What is over when it is sent is the item that had been kept. -/
theorem stale_kept (h : x₀.OneCall x) (ht : x₀.Traced) {c : Sent} (hc : c ∈ x.sentSince x₀)
    (hstale : c.Stale) :
    x₀.core.pending = some c.entry.item ∧ x₀.core.packetSerial = some c.entry.serial := by
  obtain ⟨-, hlive, hfits⟩ := h.sentSince hc
  rcases hfits with hpresent | ⟨hkept, hserial⟩
  · exact absurd (hpresent.trans hlive.symm) hstale
  · rw [← hserial]
    exact ⟨hkept, (ht.kept _ hkept).2.1⟩

end OneCall

/-- A call that has to give up. -/
structure GivesUp (x₀ x : Feeding κ φ) : Prop where
  halted : x.core.isAborted x.record.queue = true
  sent : x.sent = x₀.sent
  early : ∀ phase ∈ x.phase, phase = .gate

theorem GivesUp.begin (idle : x.phase = none) (halted : x.core.isAborted x.record.queue = true) :
    x.GivesUp (x.apply .call) := by
  rw [call_eq idle]
  exact ⟨halted, rfl, fun _ hp => by cases hp; rfl⟩

/-- Until the call ends, nothing but the start of a generation could let it go on. -/
theorem GivesUp.apply (h : x₀.GivesUp x) {e : DecodeEvent} (he : e.isWithin = true) :
    x₀.GivesUp (x.apply e) := by
  cases e with
  | queue op =>
    have hkeeps := (x.record.queue.apply_within (of_decide_eq_true he)).2
    refine ⟨?_, h.sent, h.early⟩
    have hhalted : x.core.abort = true ∨ x.record.queue.aborted = true := by
      simpa [DecodeCore.isAborted] using h.halted
    show (x.core.abort || (x.record.queue.apply op).2.aborted) = true
    rcases hhalted with hcore | hqueue
    · simp [hcore]
    · simp [hkeeps hqueue]
  | setAbort abort =>
    obtain rfl : abort = true := he
    exact ⟨by simp [Feeding.apply, DecodeCore.isAborted], h.sent, h.early⟩
  | call => cases he
  | step =>
    cases hp : x.phase with
    | none =>
      rw [show x.apply .step = x from step_none hp]
      exact h
    | some phase =>
      obtain rfl : phase = .gate := h.early phase hp
      have hstep : x.apply .step = { x with phase := none } := by
        simp [Feeding.apply, step, hp, track, DecodeCore.step, h.halted, Progress.next?]
      rw [hstep]
      exact ⟨h.halted, h.sent, fun _ hn => by cases hn⟩

theorem GivesUp.run (h : x₀.GivesUp x) {events : List DecodeEvent}
    (within : ∀ e ∈ events, e.isWithin = true) : x₀.GivesUp (events.foldl Feeding.apply x) := by
  have hrun : Obeys Feeding.apply (fun _ e => e.isWithin = true) x events := .of_forall within
  exact hrun.preserves (fun _ _ hy he => hy.apply he) h

/-- Feeding an item that is not a boundary sends it. -/
theorem feed_sent {item : QueueItem} (hp : x.phase = some (.feed item)) (hi : item.isBoundary = false) :
    x.step.sent = x.sent ++ [⟨⟨item, x.origin⟩, x.record.queue.serial⟩] := by
  have hm := feed_move hp
  generalize x.step = x' at hm ⊢
  cases hm with
  | pass stale passes => cases passes with | stop checks => cases checks
  | restart => cases hi
  | accept | refuse | reject => rfl

/-- What was kept goes to the codec in the fourth step of a call, if a generation has begun since. -/
theorem kept_sent (idle : x.phase = none) (running : x.core.isAborted x.record.queue = false)
    {item : QueueItem} (kept : x.core.pending = some item) (hi : item.isBoundary = false)
    (past : x.core.packetSerial ≠ some x.record.queue.serial) :
    (x.during [.step, .step, .step, .step]).sent
      = x.sent ++ [⟨⟨item, x.keptOrigin⟩, x.record.queue.serial⟩] := by
  have hgate : ({ x with phase := some .gate } : Feeding κ φ).step
      = { x with phase := some .compare } := by
    simp [step, track, DecodeCore.step, running, Progress.next?]
  have hcompare : ({ x with phase := some .compare } : Feeding κ φ).step
      = { x with phase := some .obtain } := by
    simp [step, track, DecodeCore.step, past, Progress.next?]
  have hobtain : ({ x with phase := some .obtain } : Feeding κ φ).step
      = { x with
          core := { x.core with pending := none }
          phase := some (.feed item)
          origin := x.keptOrigin } := by
    simp [step, track, DecodeCore.step, kept, Progress.next?]
  rw [during, call_eq idle]
  show (Feeding.step (Feeding.step (Feeding.step (Feeding.step _)))).sent = _
  rw [hgate, hcompare, hobtain]
  exact feed_sent rfl hi

end Feeding

open Feeding in
/-- **What is over is sent only if it was kept.** Let a call begin after any run, and let no generation begin
before it ends. What the call sends was written under the serial it came with. If that is not the serial of
the queue, the item is the one that had been kept. A call can send such an item exactly if it is let run,
an item had been kept, and the queue is no longer at the generation of the last entry taken. -/
theorem stale_sent_iff {κ φ Raw Out : Type} [Codec κ Raw] [Finisher φ Raw Out] (codec : κ) (finisher : φ)
    (continueOnError : Bool) (stream : StreamKind) (before : List DecodeEvent)
    (idle : (before.foldl apply (new codec finisher continueOnError stream)).phase = none) :
    let x := before.foldl apply (new codec finisher continueOnError stream)
    (∀ events, (∀ e ∈ events, e.isWithin = true) → ∀ c ∈ (x.during events).sentSince x,
      c.live = x.record.queue.serial ∧ c.entry ∈ (x.during events).record.written ∧
      (c.Stale → x.core.pending = some c.entry.item ∧ x.core.packetSerial = some c.entry.serial)) ∧
    ((∃ events, (∀ e ∈ events, e.isWithin = true) ∧ ∃ c ∈ (x.during events).sentSince x, c.Stale) ↔
      x.core.isAborted x.record.queue = false ∧ x.core.pending.isSome = true ∧
        x.core.packetSerial ≠ some x.record.queue.serial) := by
  intro x
  have htraced : x.Traced := (new_traced ..).run before
  have hcall : ∀ events, (∀ e ∈ events, e.isWithin = true) → x.OneCall (x.during events) :=
    fun events within => (OneCall.begin idle).run (htraced.apply .call) within
  refine ⟨fun events within c hc => ?_, ⟨?_, ?_⟩⟩
  · obtain ⟨hsent, hlive, -⟩ := (hcall events within).sentSince hc
    exact ⟨hlive, ((htraced.apply .call).run events).sent c hsent, (hcall events within).stale_kept htraced hc⟩
  · rintro ⟨events, within, c, hc, hstale⟩
    obtain ⟨-, hlive, -⟩ := (hcall events within).sentSince hc
    obtain ⟨hpending, hlast⟩ := (hcall events within).stale_kept htraced hc hstale
    refine ⟨?_, by rw [hpending]; rfl, fun hpresent => ?_⟩
    · cases hhalted : x.core.isAborted x.record.queue with
      | false => rfl
      | true =>
        have hgives : x.GivesUp (x.during events) := (GivesUp.begin idle hhalted).run within
        simp [sentSince, hgives.sent] at hc
    · rw [hpresent] at hlast
      exact hstale ((Option.some.inj hlast).symm.trans hlive.symm)
  · rintro ⟨running, hpending, past⟩
    obtain ⟨item, kept⟩ := Option.isSome_iff_exists.mp hpending
    obtain ⟨-, hlast, hmark⟩ := htraced.kept item kept
    have hsent : (x.during [.step, .step, .step, .step]).sent
        = x.sent ++ [⟨⟨item, x.keptOrigin⟩, x.record.queue.serial⟩] :=
      kept_sent idle running kept hmark past
    refine ⟨[.step, .step, .step, .step], by simp [DecodeEvent.isWithin],
      ⟨⟨item, x.keptOrigin⟩, x.record.queue.serial⟩, ?_, fun hpresent => past ?_⟩
    · rw [sentSince, hsent, List.drop_left]
      exact List.mem_singleton.mpr rfl
    · rw [hlast]
      exact congrArg some hpresent

/-- A codec refuses the second packet, then gives the frame of the first. Before the next call a generation
begins, and that call sends the refused packet under the new serial. -/
theorem stale_sent_after_restart :
    let codec : ScriptedCodec RawVideoFrame :=
      .new [.normal, .error .again] [.normal, .error (.fatal "corrupt")] (fun _ => default)
    let x := List.foldl Feeding.apply (Feeding.new codec (⟨⟨1, 1000⟩, none⟩ : VideoFinisher Float) true .video)
      ([.queue .start, .queue (.put default), .queue (.put default), .call] ++ List.replicate 29 .step
        ++ [.queue .beginGeneration])
    x.phase = none ∧
      ∃ events, (∀ e ∈ events, e.isWithin = true) ∧ ∃ c ∈ (x.during events).sentSince x, c.Stale :=
  ⟨by decide, (stale_sent_iff _ _ _ _ _ (by decide)).2.mpr ⟨by decide, by decide, by decide⟩⟩

end Playback
