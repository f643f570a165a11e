import Playback.Proofs.Decode.Feeding

/-!
# Calls that end

A call for the next frame should end by itself, or come to sleep on an empty queue, while nobody interferes.
Whether it does hangs on the codec: here it keeps finitely many frames and failures to give out, says that it
has none only when that is so, and refuses something only while it has some (`Outputs`). For such a codec
`call_ends_iff` says exactly which calls end:

> all but those that begin with a kept item, after a generation has begun, at a codec that goes on refusing
> that item.

Such a call never asks the codec for what it has left, since that is of the past generation, and never reads
the boundary that would make the codec forget it, since the kept item comes first. So it turns in a circle of
four steps (`Turns`). Every other call gets on: in each round the queue or the kept item gets shorter, or the
codec has less left (`ready_ends`).
-/

namespace Playback

/-- A codec with finitely many frames and failures to give out. What an accepted input adds, and what forgetting
everything leaves, may be any number. -/
structure Outputs (κ : Type) {Raw : Type} [Codec κ Raw] where
  /-- How many it has left. -/
  left : κ → Nat
  frame : ∀ {k k' : κ} {raw : Raw}, Codec.receive k = (.ok raw, k') → left k = left k' + 1
  failure : ∀ {k k' : κ} {detail : String},
    Codec.receive k = (.error (.fatal detail), k') → left k = left k' + 1
  /-- It says that it has none only when that is so. -/
  dry : ∀ {k k' : κ}, Codec.receive k = (.error .again, k') ∨ Codec.receive k = (.error .ended, k') →
    left k = 0 ∧ left k' = 0
  /-- It refuses something only while it has some left, and the refusal adds none. -/
  refusal : ∀ {k k' : κ} {input : Option Packet},
    Codec.send k input = (.error .again, k') → 0 < left k ∧ left k' = left k

/-- A codec after it was sent the same so often. -/
def resent {κ Raw : Type} [Codec κ Raw] (k : κ) (input : Option Packet) : Nat → κ
  | 0 => k
  | count + 1 => resent (Codec.send k input).2 input count

/-- The codec goes on refusing something, however often it is sent. -/
def Refuses {κ Raw : Type} [Codec κ Raw] (k : κ) (input : Option Packet) : Prop :=
  ∀ count, (Codec.send (resent k input count) input).1 = .error .again

namespace DecodeCore

variable {κ φ Raw Out : Type} [Codec κ Raw] [Finisher φ Raw Out]

/-- A call that stands here ends, or sleeps on an empty queue, after finitely many steps by itself. -/
inductive Ends : DecodeCore κ φ → PacketQueue → Phase → Prop where
  | sleeps {c : DecodeCore κ φ} {q : PacketQueue} {phase : Phase} (empty : q.isEmpty = true)
      (blocked : phase.isBlocked q = true) : Ends c q phase
  | returns {c : DecodeCore κ φ} {q : PacketQueue} {phase : Phase}
      (last : (c.step q phase).1.next? = none) : Ends c q phase
  | goes {c : DecodeCore κ φ} {q : PacketQueue} {phase next : Phase}
      (more : (c.step q phase).1.next? = some next)
      (rest : Ends (c.step q phase).2.1 (c.step q phase).2.2 next) : Ends c q phase

variable {c c' : DecodeCore κ φ} {q q' : PacketQueue} {phase next : Phase}

theorem Ends.go {progress : Progress Out} (h : c.step q phase = (progress, c', q'))
    (more : progress.next? = some next) (rest : c'.Ends q' next) : c.Ends q phase := by
  refine .goes (by rw [h]; exact more) ?_
  rw [h]
  exact rest

/-! ## Rounds that get on -/

/-- What does not change while the codec is asked for frames. -/
structure Alike (c c' : DecodeCore κ φ) : Prop where
  pending : c'.pending = c.pending
  packetSerial : c'.packetSerial = c.packetSerial
  abort : c'.abort = c.abort

theorem running_of_abort (running : c.isAborted q = false) (habort : c'.abort = c.abort) :
    c'.isAborted q = false := by
  rw [isAborted, habort]
  exact running

/-- Collecting frames ends if the call ends from there on, with a codec that has none or less left. -/
theorem drain_ends (outputs : Outputs κ) (running : c.isAborted q = false) {s : Serial}
    (on : ∀ c' : DecodeCore κ φ, c.Alike c' →
      outputs.left c'.codec = 0 ∨ outputs.left c'.codec < outputs.left c.codec → c'.Ends q .obtain) :
    c.Ends q (.drain s) := by
  induction hleft : outputs.left c.codec using Nat.strongRecOn generalizing c with
  | ind n ih =>
    subst hleft
    refine Ends.go (by simp only [step, running]; rfl) rfl ?_
    rcases hanswer : Codec.receive c.codec with ⟨answer, codec⟩
    cases answer with
    | ok raw =>
      have hless := outputs.frame hanswer
      rcases hfinish : Finisher.finish c.finisher raw s with ⟨out, finisher⟩
      cases out with
      | some frame => exact .returns (by simp only [step, receive, hanswer, hfinish]; rfl)
      | none =>
        refine Ends.go (by simp only [step, receive, hanswer, hfinish]; rfl) rfl ?_
        refine ih (outputs.left codec) (by omega) (running_of_abort running rfl) (fun c' halike hleft => ?_) rfl
        refine on c' ⟨halike.pending, halike.packetSerial, halike.abort⟩ ?_
        simp only at hleft
        omega
    | error e =>
      cases e with
      | again =>
        refine Ends.go (by simp only [step, receive, hanswer]; rfl) rfl ?_
        exact on _ ⟨rfl, rfl, rfl⟩ (.inl (outputs.dry (.inl hanswer)).2)
      | ended => exact .returns (by simp only [step, receive, hanswer]; rfl)
      | fatal detail =>
        have hless := outputs.failure hanswer
        cases hgoes : c.continueOnError with
        | false => exact .returns (by simp only [step, receive, hanswer, hgoes]; rfl)
        | true =>
          refine Ends.go (by simp only [step, receive, hanswer, hgoes, if_true]; rfl) rfl ?_
          exact on _ ⟨rfl, rfl, rfl⟩ (.inr (by rw [hless]; exact Nat.lt_succ_self _))

/-- Sending ends if the next round does, whether the codec is done with the item or refuses it. -/
theorem send_ends {item : QueueItem} {input : Option Packet} (sends : item.input? = some input)
    (taken : ∀ codec : κ, Ends { c with codec } q .gate)
    (refused : ∀ codec, Codec.send c.codec input = (.error .again, codec) →
      Ends { c with codec, pending := some item } q .gate) : c.Ends q (.feed item) := by
  rcases hanswer : Codec.send c.codec input with ⟨answer, codec⟩
  cases answer with
  | ok _ =>
    refine Ends.go (by simp only [step, feed_sends sends, sendItem, hanswer]; rfl) rfl ?_
    exact taken codec
  | error e =>
    cases e with
    | again =>
      refine Ends.go (by simp only [step, feed_sends sends, sendItem, hanswer]; rfl) rfl ?_
      exact refused codec hanswer
    | ended =>
      refine Ends.go (by simp only [step, feed_sends sends, sendItem, hanswer]; rfl) rfl ?_
      exact taken codec
    | fatal detail => exact .returns (by simp only [step, feed_sends sends, sendItem, hanswer]; rfl)

/-- Feeding an item ends if the next round does; the codec refuses the item only if it has something left. -/
theorem feed_ends (outputs : Outputs κ) {item : QueueItem}
    (on : ∀ c' : DecodeCore κ φ, c'.packetSerial = c.packetSerial → c'.abort = c.abort →
      c'.pending = c.pending ∨ c'.pending.isSome = true ∧ 0 < outputs.left c.codec ∧
        outputs.left c'.codec = outputs.left c.codec → c'.Ends q .gate) :
    c.Ends q (.feed item) := by
  cases hinput : item.input? with
  | none =>
    obtain rfl := QueueItem.eq_boundary hinput
    refine Ends.go (by simp only [step, feed]; rfl) rfl ?_
    exact on _ rfl rfl (.inl rfl)
  | some input =>
    refine send_ends hinput (fun codec => on _ rfl rfl (.inl rfl)) fun codec hrefused => ?_
    exact on _ rfl rfl (.inr ⟨rfl, outputs.refusal hrefused⟩)

/-- Reading ends if feeding does, whatever item of the present generation it comes to. -/
theorem poll_ends (running : c.isAborted q = false) (alone : c.pending = none)
    (on : ∀ (c' : DecodeCore κ φ) (q' : PacketQueue) (item : QueueItem),
      q'.entries.length < q.entries.length → c'.isAborted q' = false → c'.pending = none →
        c'.packetSerial = some q'.serial → c'.Ends q' (.feed item)) :
    c.Ends q .poll := by
  obtain ⟨habort, haborted⟩ : c.abort = false ∧ q.aborted = false := by simpa [isAborted] using running
  induction hentries : q.entries generalizing c q with
  | nil =>
    -- the first look gives notice, the second puts the reader to sleep
    have hlook : ∀ notified, q.look notified = (if notified then .sleep else .notify, q) := by
      simp [PacketQueue.look, PacketQueue.pop, haborted, hentries]
    refine Ends.go (by simp only [step, running]; rfl) rfl ?_
    refine Ends.go (by simp only [step, Reader.fresh, Reader.step, hlook]; rfl) rfl ?_
    refine Ends.go (by simp only [step, Reader.step, hlook]; rfl) rfl ?_
    exact .sleeps (by simp [PacketQueue.isEmpty, hentries]) (by simp [Phase.isBlocked, Reader.isBlocked])
  | cons e rest ih =>
    have hpop : q.pop.2.entries = rest ∧ q.pop.2.aborted = false := by
      simp [PacketQueue.pop, hentries, haborted]
    have hlook : q.look false = (.entry e, q.pop.2) := by
      simp [PacketQueue.look, PacketQueue.pop, haborted, hentries]
    have hrunning : ∀ c' : DecodeCore κ φ, c'.abort = c.abort → c'.isAborted q.pop.2 = false := by
      intro c' h
      simp [isAborted, h, habort, hpop.2]
    refine Ends.go (by simp only [step, running]; rfl) rfl ?_
    refine Ends.go (by simp only [step, Reader.fresh, Reader.step, hlook]; rfl) rfl ?_
    by_cases hpresent : e.serial = q.pop.2.serial
    · refine Ends.go (by simp only [step, hpresent]; rfl) rfl ?_
      exact on _ _ _ (by simp [hentries, hpop.1]) (hrunning _ rfl) alone rfl
    · -- the entry is over: the next look has a shorter queue before it
      refine Ends.go (by simp only [step, hpresent]; rfl) rfl ?_
      refine ih (hrunning _ rfl) alone (fun c' q' item hshorter => on c' q' item ?_) habort hpop.2 hpop.1
      simp only [hpop.1, hentries, List.length_cons] at hshorter ⊢
      omega

/-- What a round makes shorter: the queue, or the item that is kept. -/
def backlog (c : DecodeCore κ φ) (q : PacketQueue) : Nat :=
  2 * q.entries.length + c.pending.toList.length

theorem backlog_le (c : DecodeCore κ φ) (q : PacketQueue) : c.backlog q ≤ 2 * q.entries.length + 1 := by
  unfold backlog
  cases c.pending <;> simp

/-- Taking something new ends if every call ends that begins with a smaller backlog. -/
theorem fresh_ends (outputs : Outputs κ) (running : c.isAborted q = false) (alone : c.pending = none)
    (shorter : ∀ (c' : DecodeCore κ φ) (q' : PacketQueue), c'.backlog q' < c.backlog q →
      c'.isAborted q' = false → c'.packetSerial = some q'.serial ∨ c'.pending = none → c'.Ends q' .gate) :
    c.Ends q .obtain := by
  refine Ends.go (by simp only [step, alone]; rfl) rfl (poll_ends running alone ?_)
  intro c₁ q₁ item hentries hrunning _ hpresent
  refine feed_ends outputs fun c₂ hserial habort _ => ?_
  refine shorter c₂ q₁ ?_ (running_of_abort hrunning habort) (.inl (hserial.trans hpresent))
  have hsmall := c₂.backlog_le q₁
  have hlarge : 2 * q.entries.length ≤ c.backlog q := Nat.le_add_right _ _
  omega

/-- Feeding the kept item ends if every call ends that begins with a smaller backlog, or, while the codec has
something left, with the same backlog and as much left. -/
theorem kept_ends (outputs : Outputs κ) (running : c.isAborted q = false) {item : QueueItem}
    (kept : c.pending = some item)
    (shorter : ∀ c' : DecodeCore κ φ, c'.backlog q < c.backlog q → c'.isAborted q = false →
      c'.pending = none → c'.Ends q .gate)
    (same : ∀ c' : DecodeCore κ φ, 0 < outputs.left c.codec → outputs.left c'.codec = outputs.left c.codec →
      c'.backlog q = c.backlog q → c'.isAborted q = false → c'.packetSerial = c.packetSerial →
      c'.Ends q .gate) :
    c.Ends q .obtain := by
  refine Ends.go (by simp only [step, kept]; rfl) rfl (feed_ends outputs ?_)
  intro c₁ hserial habort hfate
  have hrunning : c₁.isAborted q = false := running_of_abort running habort
  rcases hfate with htaken | ⟨hrefused, hsome, hleft⟩
  · refine shorter c₁ ?_ hrunning htaken
    simp [backlog, htaken, kept]
  · refine same c₁ hsome hleft ?_ hrunning hserial
    obtain ⟨_, hagain⟩ := Option.isSome_iff_exists.mp hrefused
    simp [backlog, hagain, kept]

/-- **A call ends** if the last entry taken is of the present generation, or nothing is kept. -/
theorem ready_ends (outputs : Outputs κ) (running : c.isAborted q = false)
    (ready : c.packetSerial = some q.serial ∨ c.pending = none) : c.Ends q .gate := by
  -- each round leaves a smaller backlog, or the same with less left in the codec
  induction hbacklog : c.backlog q using Nat.strongRecOn generalizing c q with
  | ind size shorter =>
    induction hleft : outputs.left c.codec using Nat.strongRecOn generalizing c with
    | ind n less =>
      have hshorter : ∀ (c' : DecodeCore κ φ) (q' : PacketQueue), c'.backlog q' < c.backlog q →
          c'.isAborted q' = false → c'.packetSerial = some q'.serial ∨ c'.pending = none → c'.Ends q' .gate :=
        fun c' q' h hrunning hready => shorter _ (hbacklog ▸ h) hrunning hready rfl
      refine Ends.go (by simp only [step, running]; rfl) rfl ?_
      by_cases hpresent : c.packetSerial = some q.serial
      · refine Ends.go (by simp only [step, hpresent]; rfl) rfl (drain_ends outputs running ?_)
        intro c₁ halike hless
        have hsame : c₁.backlog q = c.backlog q := by rw [backlog, backlog, halike.pending]
        have hrunning := running_of_abort running halike.abort
        have hpresent₁ : c₁.packetSerial = some q.serial := halike.packetSerial.trans hpresent
        cases hpending : c₁.pending with
        | none => exact fresh_ends outputs hrunning hpending (hsame ▸ hshorter)
        | some item =>
          -- a refusal now means that the codec had something left, so asking for frames has got on
          refine kept_ends outputs hrunning hpending (fun c₂ h hr ha => hshorter c₂ q (hsame ▸ h) hr (.inr ha)) ?_
          intro c₂ hsome hleft₂ hbacklog₂ hrunning₂ hserial
          exact less _ (by omega) hrunning₂ (.inl (hserial.trans hpresent₁)) (by omega) rfl
      · have hpending : c.pending = none := ready.resolve_left hpresent
        refine Ends.go (by simp only [step, hpresent]; rfl) rfl ?_
        exact fresh_ends outputs running hpending hshorter

/-! ## Rounds that do not get on -/

/-- A call that begins with a kept item of a past generation comes to feeding it. -/
theorem round_ends (running : c.isAborted q = false) (past : c.packetSerial ≠ some q.serial) {item : QueueItem}
    (kept : c.pending = some item) (on : Ends { c with pending := none } q (.feed item)) : c.Ends q .gate := by
  refine Ends.go (by simp only [step, running]; rfl) rfl ?_
  refine Ends.go (by simp only [step, past]; rfl) rfl ?_
  exact Ends.go (by simp only [step, kept]; rfl) rfl on

/-- Such a call ends if it does so from where the codec has refused the item once more. -/
theorem refused_ends (outputs : Outputs κ) (running : c.isAborted q = false)
    (past : c.packetSerial ≠ some q.serial) {item : QueueItem} (kept : c.pending = some item)
    {input : Option Packet} (sends : item.input? = some input)
    (on : ∀ codec, Codec.send c.codec input = (.error .again, codec) →
      Ends { c with codec, pending := some item } q .gate) : c.Ends q .gate := by
  refine round_ends running past kept (send_ends sends (fun codec => ?_) on)
  exact ready_ends outputs (running_of_abort running rfl) (.inr rfl)

/-- If the codec takes the kept item once it was sent often enough, the call ends. -/
theorem resent_ends (outputs : Outputs κ) (running : c.isAborted q = false)
    (past : c.packetSerial ≠ some q.serial) {item : QueueItem} (kept : c.pending = some item)
    {input : Option Packet} (sends : item.input? = some input) {count : Nat}
    (taken : (Codec.send (resent c.codec input count) input).1 ≠ .error .again) : c.Ends q .gate := by
  induction count generalizing c with
  | zero =>
    refine refused_ends outputs running past kept sends fun codec hrefused => ?_
    exact absurd (congrArg Prod.fst hrefused) taken
  | succ count ih =>
    refine refused_ends outputs running past kept sends fun codec hrefused => ?_
    rw [resent, hrefused] at taken
    exact ih (running_of_abort running rfl) past rfl taken

/-- Where the item is in a call that feeds it for ever. -/
def Circling (c : DecodeCore κ φ) (item : QueueItem) : Phase → Prop
  | .gate | .compare | .obtain => c.pending = some item
  | .feed fed => fed = item
  | _ => False

/-- A call that feeds a refused item for ever. -/
structure Turns (c : DecodeCore κ φ) (q : PacketQueue) (phase : Phase) : Prop where
  running : c.isAborted q = false
  past : c.packetSerial ≠ some q.serial
  refused : ∃ item input, item.input? = some input ∧ Refuses c.codec input ∧ c.Circling item phase

/-- From each place the call comes to the next. -/
theorem Turns.step (h : c.Turns q phase) :
    ∃ next, (c.step q phase).1 = .go next ∧ (c.step q phase).2.1.Turns (c.step q phase).2.2 next := by
  obtain ⟨running, past, item, input, sends, refuses, hplace⟩ := h
  cases phase with
  | gate =>
    refine ⟨.compare, by simp [DecodeCore.step, running], ?_⟩
    exact ⟨running, past, item, input, sends, refuses, hplace⟩
  | compare =>
    refine ⟨.obtain, by simp [DecodeCore.step, past], ?_⟩
    exact ⟨running, past, item, input, sends, refuses, hplace⟩
  | obtain =>
    have hkept : c.pending = some item := hplace
    simp only [DecodeCore.step, hkept]
    exact ⟨.feed item, rfl, running, past, item, input, sends, refuses, rfl⟩
  | feed fed =>
    obtain rfl : fed = item := hplace
    rcases hanswer : Codec.send c.codec input with ⟨answer, codec⟩
    obtain rfl : answer = .error .again := by simpa [resent, hanswer] using refuses 0
    have hrest : Refuses codec input := fun count => by simpa [resent, hanswer] using refuses (count + 1)
    simp only [DecodeCore.step, feed_sends sends, sendItem, hanswer]
    exact ⟨.gate, rfl, running, past, fed, input, sends, hrest, rfl⟩
  | drain | receive | poll | read | judge => exact hplace.elim

/-- It never ends. -/
theorem Turns.endless (h : c.Turns q phase) : ¬ c.Ends q phase := by
  intro hends
  induction hends with
  | @sleeps _ _ phase empty blocked =>
    obtain ⟨item, input, _, _, hplace⟩ := h.refused
    cases phase with
    | read => exact hplace
    | _ => cases blocked
  | returns last =>
    obtain ⟨next, hgo, _⟩ := h.step
    rw [hgo] at last
    cases last
  | goes more rest ih =>
    obtain ⟨next, hgo, hturns⟩ := h.step
    rw [hgo] at more
    cases more
    exact ih hturns

end DecodeCore

/-- **A call ends, or sleeps on an empty queue, unless it feeds a refused item for ever.** Let the codec have
finitely many frames and failures to give out. A call that nobody interferes with goes on for ever exactly if
it is let run, an item was kept, a generation has begun since the last entry was taken, and the codec goes on
refusing the item. -/
theorem call_ends_iff {κ φ Raw Out : Type} [Codec κ Raw] [Finisher φ Raw Out] (outputs : Outputs κ)
    (c : DecodeCore κ φ) (q : PacketQueue) :
    c.Ends q .gate ↔ ¬ (c.isAborted q = false ∧ c.packetSerial ≠ some q.serial ∧
      ∃ item ∈ c.pending, ∃ input ∈ item.input?, Refuses c.codec input) := by
  constructor
  · rintro hends ⟨running, past, item, kept, input, sends, refuses⟩
    have hturns : c.Turns q .gate := ⟨running, past, item, input, sends, refuses, kept⟩
    exact hturns.endless hends
  · intro hnot
    cases running : c.isAborted q with
    | true => exact .returns (by simp only [DecodeCore.step, running]; rfl)
    | false =>
      by_cases hpresent : c.packetSerial = some q.serial
      · exact DecodeCore.ready_ends outputs running (.inl hpresent)
      cases kept : c.pending with
      | none => exact DecodeCore.ready_ends outputs running (.inr kept)
      | some item =>
        cases sends : item.input? with
        | none =>
          obtain rfl := QueueItem.eq_boundary sends
          refine DecodeCore.round_ends running hpresent kept ?_
          refine DecodeCore.Ends.go (by simp only [DecodeCore.step, DecodeCore.feed]; rfl) rfl ?_
          exact DecodeCore.ready_ends outputs running (.inr rfl)
        | some input =>
          have hsome : ∃ count, (Codec.send (resent c.codec input count) input).1 ≠ .error .again :=
            Classical.not_forall.mp fun refuses => hnot ⟨running, hpresent, item, kept, input, sends, refuses⟩
          obtain ⟨count, taken⟩ := hsome
          exact DecodeCore.resent_ends outputs running hpresent kept sends taken

/-- A codec that gives three answers for each packet, a failure and two frames, and takes nothing more until
it was asked for them all. -/
structure StrictCodec where
  waiting : List (Except String RawVideoFrame)
  draining : Bool

namespace StrictCodec

def send (k : StrictCodec) (input : Option Packet) : Except CodecError Unit × StrictCodec :=
  match k.waiting, input with
  | _ :: _, _ => (.error .again, k)
  | [], none => (.ok (), { k with draining := true })
  | [], some _ => (.ok (), { k with waiting := [.error "corrupt", .ok default, .ok default] })

def receive (k : StrictCodec) : Except CodecError RawVideoFrame × StrictCodec :=
  match k.waiting with
  | [] => (.error (if k.draining then .ended else .again), k)
  | .ok raw :: rest => (.ok raw, { k with waiting := rest })
  | .error detail :: rest => (.error (.fatal detail), { k with waiting := rest })

instance : Codec StrictCodec RawVideoFrame := ⟨send, receive, fun _ => ⟨[], false⟩⟩

def outputs : Outputs StrictCodec where
  left k := k.waiting.length
  frame := by
    rintro ⟨_ | ⟨_ | _, rest⟩, draining⟩ k' raw h <;> cases h
    rfl
  failure := by
    rintro ⟨_ | ⟨_ | _, rest⟩, draining⟩ k' detail h
    · cases draining <;> cases h
    · cases h
      rfl
    · cases h
  dry := by
    rintro ⟨_ | ⟨_ | _, rest⟩, draining⟩ k' h
    · cases draining <;> rcases h with h | h <;> cases h <;> exact ⟨rfl, rfl⟩
    · rcases h with h | h <;> cases h
    · rcases h with h | h <;> cases h
  refusal := by
    rintro ⟨_ | ⟨answer, rest⟩, draining⟩ k' input h
    · cases input <;> cases h
    · cases h
      exact ⟨Nat.succ_pos _, rfl⟩

/-- With something left it refuses for ever. -/
theorem refuses {k : StrictCodec} {input : Option Packet} (h : k.waiting ≠ []) : Refuses k input := by
  obtain ⟨_ | ⟨answer, rest⟩, draining⟩ := k
  · exact absurd rfl h
  · intro count
    induction count with
    | zero => rfl
    | succ count ih => exact ih

end StrictCodec

/-- A failure and one of the two frames were given out, and the second packet was refused. The next call ends,
but not if a generation begins before it. -/
theorem strict_call_endless :
    let x := List.foldl Feeding.apply
      (Feeding.new (⟨[], false⟩ : StrictCodec) (⟨⟨1, 1000⟩, none⟩ : VideoFinisher Float) true .video)
      ([.queue .start, .queue (.put default), .queue (.put default), .call] ++ List.replicate 29 .step)
    x.phase = none ∧ x.core.Ends x.record.queue .gate ∧
      ¬ (x.apply (.queue .beginGeneration)).core.Ends (x.apply (.queue .beginGeneration)).record.queue .gate := by
  intro x
  refine ⟨by decide, (call_ends_iff StrictCodec.outputs _ _).mpr (fun h => absurd h.2.1 (by decide)), fun hends => ?_⟩
  refine (call_ends_iff StrictCodec.outputs _ _).mp hends
    ⟨by decide, by decide, .packet default, by decide, some default, by decide, StrictCodec.refuses (by decide)⟩

end Playback
