import Playback.PacketQueue.Take
import Playback.Proofs.Run

/-!
# The history of a packet queue

`Recorded` is a queue with its history: every entry that was written into it, with the serial that the
queue had right after, and every entry that was taken out. The main statement, `taken_by_generation`, is
the law for whoever reads the queue, whatever the order in which others start, abort, empty and fill it:

> serials never decrease; what is taken under a serial begins with the one boundary of that generation,
> and the rest is a prefix of what was put under that serial.

A queue may only be emptied while it is aborted (`FlushWhileAborted`): otherwise it would lose the
boundary of a generation that goes on.

`apply_effect` says once what an operation does to the entries, the serial and the abort flag; the accounts
of bytes and durations play no part here. The invariant `Recorded.Orderly` looks at what was taken and what
the queue still holds as one list, which taking does not change and which, for every serial, is a prefix of
what was written.
-/

namespace Playback

/-! ## What an operation writes and takes -/

/-- The item that an operation is to write. -/
def QueueOp.item? : QueueOp → Option QueueItem
  | .start | .putBoundary | .beginGeneration => some .boundary
  | .put p => some (.packet p)
  | .putEndOfStream => some .endOfStream
  | .flush | .abort | .signal | .take => none

/-- Whether the answer lets an operation pass. -/
def QueueAnswer.accepts : QueueAnswer → Bool
  | .accepted yes => yes
  | .generation serial => serial.isSome
  | _ => true

/-- The entry that an operation was answered with. -/
def QueueAnswer.dequeued? : QueueAnswer → Option QueueEntry
  | .taken (.entry e) => some e
  | _ => Option.none

namespace PacketQueue

/-- What an operation writes: its item, if it passes, under the serial that the queue has then. -/
def written (q : PacketQueue) (op : QueueOp) : List QueueEntry :=
  if (q.apply op).1.accepts then (op.item?.map (⟨·, (q.apply op).2.serial⟩)).toList else []

/-- What an operation takes out. -/
def taken (q : PacketQueue) (op : QueueOp) : List QueueEntry :=
  (q.apply op).1.dequeued?.toList

/-- What an operation does to a queue, its accounts left aside, with what it wrote and what it took. -/
inductive Effect (q : PacketQueue) (op : QueueOp) (q' : PacketQueue) :
    List QueueEntry → List QueueEntry → Prop where
  /-- Nothing is written or taken, but the queue may be aborted now. -/
  | keep (entries : q'.entries = q.entries) (serial : q'.serial = q.serial)
      (published : q'.published = q.published) (aborted : q.aborted = true → q'.aborted = true) :
      Effect q op q' [] []
  | clear (flush : op = .flush) (entries : q'.entries = []) (serial : q'.serial = q.serial)
      (published : q'.published = q.published) (aborted : q'.aborted = q.aborted) : Effect q op q' [] []
  /-- A packet or an end mark joins the present generation. -/
  | append (item : QueueItem) (mark : item.isBoundary = false) (running : q.aborted = false)
      (aborted : q'.aborted = false) (entries : q'.entries = q.entries ++ [⟨item, q.serial⟩])
      (serial : q'.serial = q.serial) (published : q'.published = q.published) :
      Effect q op q' [⟨item, q.serial⟩] []
  /-- A generation begins, behind what the queue held or in its place. -/
  | begin (kept : List QueueEntry) (held : kept = q.entries ∨ kept = []) (begins : op.item? = some .boundary)
      (aborted : q'.aborted = false) (entries : q'.entries = kept ++ [⟨.boundary, q.serial + 1⟩])
      (serial : q'.serial = q.serial + 1) (published : q'.published = q.serial + 1) :
      Effect q op q' [⟨.boundary, q.serial + 1⟩] []
  | take (e : QueueEntry) (take : op = .take) (running : q.aborted = false)
      (aborted : q'.aborted = false) (entries : q.entries = e :: q'.entries)
      (serial : q'.serial = q.serial) (published : q'.published = q.published) : Effect q op q' [] [e]

/-- What a queue holds after an operation, it held before or was given. -/
theorem Effect.entries_subset {q q' : PacketQueue} {op : QueueOp} {wrote took : List QueueEntry}
    (h : Effect q op q' wrote took) : ∀ e ∈ q'.entries, e ∈ q.entries ∨ e ∈ wrote := by
  intro e he
  cases h with
  | keep entries => exact .inl (entries ▸ he)
  | clear flush entries => rw [entries] at he; cases he
  | append item mark running aborted entries => exact List.mem_append.mp (entries ▸ he)
  | begin kept held begins aborted entries =>
    rw [entries] at he
    rcases held with rfl | rfl
    · exact List.mem_append.mp he
    · exact .inr he
  | take e' take running aborted entries => exact .inl (entries ▸ List.mem_cons_of_mem _ he)

/-- Serials never go back. -/
theorem Effect.serial_le {q q' : PacketQueue} {op : QueueOp} {wrote took : List QueueEntry}
    (h : Effect q op q' wrote took) : q.serial ≤ q'.serial := by
  cases h with
  | keep _ serial | clear _ _ serial | append _ _ _ _ _ serial | take _ _ _ _ _ serial =>
    exact Nat.le_of_eq serial.symm
  | begin _ _ _ _ _ serial => exact serial ▸ Nat.le_succ _

theorem push_effect {q q' : PacketQueue} {op : QueueOp} {item : QueueItem} (hop : op.item? = some item)
    (entries : q'.entries = q.entries ∨ q'.entries = []) (serial : q'.serial = q.serial)
    (published : q'.published = q.published) (aborted : q'.aborted = false)
    (mark : item.isBoundary = false → q'.entries = q.entries ∧ q.aborted = false) :
    Effect q op (q'.push item) [⟨item, (q'.push item).serial⟩] [] := by
  cases hb : item.isBoundary with
  | false =>
    obtain ⟨hentries, hrunning⟩ := mark hb
    have hserial : (q'.push item).serial = q.serial := by simp [push, hb, serial]
    rw [hserial]
    exact .append item hb hrunning aborted (by simp [push, hb, hentries, serial]) hserial
      (by simp [push, hb, published])
  | true =>
    obtain rfl : item = .boundary := by cases item <;> first | rfl | cases hb
    have hserial : (q'.push .boundary).serial = q.serial + 1 := by simp [push, hb, serial]
    rw [hserial]
    exact .begin q'.entries entries hop aborted (by simp [push, hb, serial]) hserial
      (by simp [push, hb, serial])

theorem putItem_effect {q : PacketQueue} {op : QueueOp} {item : QueueItem} (hop : op.item? = some item)
    (happly : q.apply op = (.accepted (q.putItem item).1, (q.putItem item).2)) :
    Effect q op (q.apply op).2 (q.written op) (q.taken op) := by
  unfold written taken
  rw [happly, hop]
  cases ha : q.aborted with
  | true =>
    have hput : q.putItem item = (false, q) := by simp [putItem, ha]
    rw [hput]
    exact .keep rfl rfl rfl id
  | false =>
    have hput : q.putItem item = (true, q.push item) := by simp [putItem, ha]
    rw [hput]
    exact push_effect hop (.inl rfl) rfl rfl ha (fun _ => ⟨rfl, ha⟩)

theorem beginGeneration_effect (q : PacketQueue) :
    Effect q .beginGeneration (q.apply .beginGeneration).2 (q.written .beginGeneration)
      (q.taken .beginGeneration) := by
  unfold written taken
  cases ha : q.aborted with
  | true =>
    have hbegin : q.apply .beginGeneration = (.generation none, q) := by
      simp [apply, beginGeneration, ha]
    rw [hbegin]
    exact .keep rfl rfl rfl id
  | false =>
    have hbegin : q.apply .beginGeneration
        = (.generation (some (q.flush.push .boundary).serial), q.flush.push .boundary) := by
      simp [apply, beginGeneration, ha]
    rw [hbegin]
    exact push_effect rfl (.inr rfl) rfl rfl ha (fun h => by cases h)

/-- A look at a queue takes the first entry out, or leaves the queue alone. -/
theorem look_cases (q : PacketQueue) (notified : Bool) :
    (∃ e, (q.look notified).1 = .entry e ∧ Effect q .take (q.look notified).2 [] [e]) ∨
    ((∀ e, (q.look notified).1 ≠ .entry e) ∧ (q.look notified).2 = q) := by
  cases ha : q.aborted with
  | true =>
    have hlook : q.look notified = (.aborted, q) := by simp [look, ha]
    rw [hlook]
    exact .inr ⟨fun _ h => (nomatch h), rfl⟩
  | false =>
    cases he : q.entries with
    | nil =>
      have hlook : q.look notified = (if notified then .sleep else .notify, q) := by
        simp [look, pop, ha, he]
      rw [hlook]
      exact .inr ⟨fun e h => (by cases notified <;> cases h), rfl⟩
    | cons e rest =>
      have hlook : q.look notified = (.entry e, q.pop.2) := by simp [look, pop, ha, he]
      have hpop : q.pop.2.entries = rest := by simp [pop, he]
      rw [hlook]
      exact .inl ⟨e, rfl, .take e rfl ha (by simp [pop, he, ha]) (by rw [hpop, he])
        (by simp [pop, he]) (by simp [pop, he])⟩

theorem take_effect (q : PacketQueue) :
    Effect q .take (q.apply .take).2 (q.written .take) (q.taken .take) := by
  have hwritten : q.written .take = [] := by simp [written, QueueOp.item?]
  rw [hwritten]
  unfold taken
  simp only [apply, take]
  rcases q.look_cases false with ⟨e, hlook, heffect⟩ | ⟨hnone, hsame⟩
  · split <;> simp_all [QueueAnswer.dequeued?]
  · split <;> simp_all [QueueAnswer.dequeued?] <;> exact .keep rfl rfl rfl id

/-- Every operation has one of these effects. -/
theorem apply_effect (q : PacketQueue) (op : QueueOp) :
    Effect q op (q.apply op).2 (q.written op) (q.taken op) := by
  cases op with
  | start => exact push_effect rfl (.inl rfl) rfl rfl rfl (fun h => by cases h)
  | put p => exact putItem_effect rfl rfl
  | putBoundary => exact putItem_effect rfl rfl
  | putEndOfStream => exact putItem_effect rfl rfl
  | beginGeneration => exact beginGeneration_effect q
  | flush => exact .clear rfl rfl rfl rfl rfl
  | abort => exact .keep rfl rfl rfl (fun _ => rfl)
  | signal => exact .keep rfl rfl rfl id
  | take => exact take_effect q

end PacketQueue

/-- A reader's step takes the first entry out, or leaves the queue alone. -/
theorem Reader.step_cases (r : Reader) (q : PacketQueue) :
    (∃ e, (r.step q).1 = .done (.entry e) ∧ q.Effect .take (r.step q).2 [] [e]) ∨
    ((∀ e, (r.step q).1 ≠ .done (.entry e)) ∧ (r.step q).2 = q) := by
  cases r with
  | asleep since => exact .inr ⟨fun _ h => (nomatch h), rfl⟩
  | looking notified =>
    simp only [step]
    rcases q.look_cases notified with ⟨e, hlook, heffect⟩ | ⟨hnone, hsame⟩
    · split <;> simp_all
    · split <;> simp_all

/-! ## Queues with their history -/

/-- A queue with every entry that was written into it and every entry that was taken out, oldest first. -/
structure Recorded where
  queue : PacketQueue
  written : List QueueEntry
  taken : List QueueEntry

/-- The entries with a serial. -/
def generation (s : Serial) (es : List QueueEntry) : List QueueEntry :=
  es.filter (·.serial = s)

/-- What readers see of a generation besides its boundary. -/
def contents (s : Serial) (es : List QueueEntry) : List QueueItem :=
  ((generation s es).filter (!·.item.isBoundary)).map (·.item)

theorem generation_append (s : Serial) (es es' : List QueueEntry) :
    generation s (es ++ es') = generation s es ++ generation s es' :=
  List.filter_append ..

theorem mem_generation {s : Serial} {es : List QueueEntry} {e : QueueEntry} :
    e ∈ generation s es ↔ e ∈ es ∧ e.serial = s := by
  simp [generation]

theorem generation_single (item : QueueItem) (s : Serial) : generation s [⟨item, s⟩] = [⟨item, s⟩] := by
  simp [generation]

theorem generation_single_ne {item : QueueItem} {s s' : Serial} (h : s' ≠ s) :
    generation s [⟨item, s'⟩] = [] := by
  simp [generation, h]

theorem generation_eq_nil {s n : Serial} {es : List QueueEntry} (hes : ∀ e ∈ es, e.serial ≤ n)
    (h : n < s) : generation s es = [] := by
  refine List.filter_eq_nil_iff.mpr fun e he => ?_
  have hle := hes e he
  simp only [decide_eq_true_eq]
  exact Nat.ne_of_lt (Nat.lt_of_le_of_lt hle h)

namespace Recorded

/-- A new queue. -/
def new (stream : StreamKind) : Recorded :=
  ⟨.new stream, [], []⟩

/-- An operation on the queue. -/
def apply (r : Recorded) (op : QueueOp) : Recorded :=
  ⟨(r.queue.apply op).2, r.written ++ r.queue.written op, r.taken ++ r.queue.taken op⟩

/-- Whatever the queue holds was written into it. -/
theorem queued_written (r : Recorded) (h : ∀ e ∈ r.queue.entries, e ∈ r.written) (op : QueueOp) :
    ∀ e ∈ (r.apply op).queue.entries, e ∈ (r.apply op).written := by
  intro e he
  rcases (r.queue.apply_effect op).entries_subset e he with hold | hnew
  · exact List.mem_append_left _ (h e hold)
  · exact List.mem_append_right _ hnew

/-- What was taken, and behind it what the queue still holds. -/
def passed (r : Recorded) : List QueueEntry :=
  r.taken ++ r.queue.entries

/-- The queue is emptied only while it is aborted. -/
def FlushWhileAborted (r : Recorded) (op : QueueOp) : Prop :=
  op = .flush → r.queue.aborted = true

instance (r : Recorded) (op : QueueOp) : Decidable (r.FlushWhileAborted op) :=
  match op with
  | .flush => decidable_of_iff (r.queue.aborted = true) (by simp [FlushWhileAborted])
  | .start | .put _ | .putBoundary | .putEndOfStream | .beginGeneration | .abort | .signal | .take =>
    isTrue (by simp [FlushWhileAborted])

/-- Generations are written one after the other, each opened by its boundary, and passed on in that order
without gaps; of the present one nothing is lost unless the queue is aborted. -/
structure Orderly (r : Recorded) : Prop where
  published : r.queue.published = r.queue.serial
  counted : r.queue.serial = (r.written.filter (·.item.isBoundary)).length
  running : r.queue.aborted = false → 0 < r.queue.serial
  bounded : ∀ e ∈ r.written, 0 < e.serial ∧ e.serial ≤ r.queue.serial
  opened : ∀ s, 0 < s → s ≤ r.queue.serial → ∃ rest,
    generation s r.written = ⟨.boundary, s⟩ :: rest ∧ ∀ e ∈ rest, e.item.isBoundary = false
  ordered : r.passed.Pairwise (·.serial ≤ ·.serial)
  isPrefix : ∀ s, generation s r.passed <+: generation s r.written
  whole : r.queue.aborted = false →
    generation r.queue.serial r.passed = generation r.queue.serial r.written

theorem new_orderly (stream : StreamKind) : (new stream).Orderly where
  published := rfl
  counted := rfl
  running := fun h => nomatch h
  bounded := by simp [new]
  opened := fun s hs hle => absurd hle (Nat.not_le_of_lt hs)
  ordered := by simp [passed, new, PacketQueue.new]
  isPrefix := fun s => by simp [passed, new, PacketQueue.new]
  whole := fun h => nomatch h

namespace Orderly

variable {r r' : Recorded}

theorem passed_written (h : r.Orderly) {e : QueueEntry} (he : e ∈ r.passed) : e ∈ r.written := by
  have hgen : e ∈ generation e.serial r.passed := mem_generation.mpr ⟨he, rfl⟩
  exact (mem_generation.mp ((h.isPrefix e.serial).subset hgen)).1

theorem passed_le (h : r.Orderly) {e : QueueEntry} (he : e ∈ r.passed) : e.serial ≤ r.queue.serial :=
  (h.bounded e (h.passed_written he)).2

/-- Nothing of a coming generation has been passed on or written. -/
theorem passed_next (h : r.Orderly) {es : List QueueEntry} (hes : es <+: r.passed) :
    generation (r.queue.serial + 1) es = [] :=
  generation_eq_nil (fun _ he => h.passed_le (hes.subset he)) (Nat.lt_succ_self _)

theorem written_next (h : r.Orderly) : generation (r.queue.serial + 1) r.written = [] :=
  generation_eq_nil (fun e he => (h.bounded e he).2) (Nat.lt_succ_self _)

/-- A packet or an end mark joins the present generation. -/
theorem append (h : r.Orderly) {item : QueueItem} (mark : item.isBoundary = false)
    (running : r.queue.aborted = false)
    (entries : r'.queue.entries = r.queue.entries ++ [⟨item, r.queue.serial⟩])
    (serial : r'.queue.serial = r.queue.serial) (published : r'.queue.published = r.queue.published)
    (written : r'.written = r.written ++ [⟨item, r.queue.serial⟩]) (taken : r'.taken = r.taken) :
    r'.Orderly := by
  have hpassed : r'.passed = r.passed ++ [⟨item, r.queue.serial⟩] := by
    simp [passed, entries, taken]
  constructor
  · rw [published, serial, h.published]
  · simp [serial, h.counted, written, List.filter_append, mark]
  · intro _
    rw [serial]
    exact h.running running
  · intro e he
    rw [written] at he
    rw [serial]
    rcases List.mem_append.mp he with hold | hnew
    · exact h.bounded e hold
    · rw [List.mem_singleton.mp hnew]
      exact ⟨h.running running, Nat.le_refl _⟩
  · intro s hs hle
    rw [serial] at hle
    obtain ⟨rest, hrest, hmarks⟩ := h.opened s hs hle
    refine ⟨rest ++ generation s [⟨item, r.queue.serial⟩], ?_, ?_⟩
    · rw [written, generation_append, hrest, List.cons_append]
    · intro e he
      rcases List.mem_append.mp he with hold | hnew
      · exact hmarks e hold
      · rw [List.mem_singleton.mp (mem_generation.mp hnew).1]
        exact mark
  · rw [hpassed, List.pairwise_append]
    refine ⟨h.ordered, List.pairwise_singleton .., fun e he e' he' => ?_⟩
    rw [List.mem_singleton.mp he']
    exact h.passed_le he
  · intro s
    rw [hpassed, written, generation_append, generation_append]
    by_cases hs : r.queue.serial = s
    · have hwhole : generation s r.passed = generation s r.written := hs ▸ h.whole running
      exact hwhole ▸ List.prefix_refl _
    · rw [generation_single_ne hs, List.append_nil, List.append_nil]
      exact h.isPrefix s
  · intro _
    rw [hpassed, written, serial, generation_append, generation_append, h.whole running]

/-- A generation begins; what the queue held stays in front of its boundary or is dropped. -/
theorem begin (h : r.Orderly) {kept : List QueueEntry} (held : kept = r.queue.entries ∨ kept = [])
    (entries : r'.queue.entries = kept ++ [⟨.boundary, r.queue.serial + 1⟩])
    (serial : r'.queue.serial = r.queue.serial + 1) (published : r'.queue.published = r.queue.serial + 1)
    (written : r'.written = r.written ++ [⟨.boundary, r.queue.serial + 1⟩]) (taken : r'.taken = r.taken) :
    r'.Orderly := by
  obtain ⟨before, hpassed, hkept⟩ : ∃ before,
      r'.passed = before ++ [⟨.boundary, r.queue.serial + 1⟩] ∧ before <+: r.passed := by
    refine ⟨r.taken ++ kept, by simp [passed, entries, taken], ?_⟩
    rcases held with rfl | rfl
    · exact List.prefix_refl _
    · simp [passed]
  constructor
  · rw [published, serial]
  · simp [serial, h.counted, written, List.filter_append, QueueItem.isBoundary]
  · intro _
    rw [serial]
    exact Nat.succ_pos _
  · intro e he
    rw [written] at he
    rw [serial]
    rcases List.mem_append.mp he with hold | hnew
    · exact ⟨(h.bounded e hold).1, Nat.le_succ_of_le (h.bounded e hold).2⟩
    · rw [List.mem_singleton.mp hnew]
      exact ⟨Nat.succ_pos _, Nat.le_refl _⟩
  · intro s hs hle
    rw [serial] at hle
    rw [written, generation_append]
    by_cases hnew : r.queue.serial + 1 = s
    · exact ⟨[], by rw [← hnew, h.written_next, generation_single, List.nil_append], by simp⟩
    · have hold : s ≤ r.queue.serial := Nat.le_of_lt_succ (Nat.lt_of_le_of_ne hle (Ne.symm hnew))
      obtain ⟨rest, hrest, hmarks⟩ := h.opened s hs hold
      exact ⟨rest, by rw [hrest, generation_single_ne hnew, List.append_nil], hmarks⟩
  · rw [hpassed, List.pairwise_append]
    refine ⟨h.ordered.sublist hkept.sublist, List.pairwise_singleton .., fun e he e' he' => ?_⟩
    rw [List.mem_singleton.mp he']
    exact Nat.le_succ_of_le (h.passed_le (hkept.subset he))
  · intro s
    rw [hpassed, written, generation_append, generation_append]
    by_cases hs : r.queue.serial + 1 = s
    · have hnone : generation s before = generation s r.written := by
        rw [← hs, h.written_next, h.passed_next hkept]
      exact hnone ▸ List.prefix_refl _
    · rw [generation_single_ne hs, List.append_nil, List.append_nil]
      exact (hkept.filter _).trans (h.isPrefix s)
  · intro _
    rw [hpassed, written, serial, generation_append, generation_append, h.written_next,
      h.passed_next hkept]

/-- Nothing is written; what was passed on is cut to a prefix, unless the queue is not aborted. -/
theorem shorten (h : r.Orderly) (passed : r'.passed <+: r.passed)
    (whole : r'.queue.aborted = false → r'.passed = r.passed ∧ r.queue.aborted = false)
    (serial : r'.queue.serial = r.queue.serial) (published : r'.queue.published = r.queue.published)
    (written : r'.written = r.written) : r'.Orderly where
  published := by rw [published, serial, h.published]
  counted := by rw [serial, written, h.counted]
  running := fun ha => serial ▸ h.running (whole ha).2
  bounded := by rw [written, serial]; exact h.bounded
  opened := by rw [written, serial]; exact h.opened
  ordered := h.ordered.sublist passed.sublist
  isPrefix := fun s => written ▸ (passed.filter _).trans (h.isPrefix s)
  whole := fun ha => by rw [(whole ha).1, written, serial, h.whole (whole ha).2]

/-- An operation keeps the order, if it does not empty a queue that is not aborted. -/
theorem effect (h : r.Orderly) {op : QueueOp} {wrote took : List QueueEntry}
    (he : r.queue.Effect op r'.queue wrote took) (written : r'.written = r.written ++ wrote)
    (taken : r'.taken = r.taken ++ took) (rule : r.FlushWhileAborted op) : r'.Orderly := by
  cases he with
  | keep entries serial published aborted =>
    have hpassed : r'.passed = r.passed := by simp [passed, entries, taken]
    refine h.shorten (hpassed ▸ List.prefix_refl _) (fun ha => ⟨hpassed, ?_⟩) serial published
      (by rw [written, List.append_nil])
    cases hr : r.queue.aborted with
    | false => rfl
    | true => rw [aborted hr] at ha; exact ha
  | clear flush entries serial published aborted =>
    have hpassed : r'.passed <+: r.passed := by simp [passed, entries, taken]
    refine h.shorten hpassed (fun ha => ?_) serial published (by rw [written, List.append_nil])
    rw [aborted, rule flush] at ha
    cases ha
  | append item mark running aborted entries serial published =>
    exact h.append mark running entries serial published written (by rw [taken, List.append_nil])
  | begin kept held begins aborted entries serial published =>
    exact h.begin held entries serial published written (by rw [taken, List.append_nil])
  | take e take running aborted entries serial published =>
    have hpassed : r'.passed = r.passed := by simp [passed, entries, taken]
    exact h.shorten (hpassed ▸ List.prefix_refl _) (fun _ => ⟨hpassed, running⟩) serial published
      (by rw [written, List.append_nil])

theorem apply (h : r.Orderly) {op : QueueOp} (rule : r.FlushWhileAborted op) : (r.apply op).Orderly :=
  h.effect (r.queue.apply_effect op) rfl rfl rule

/-- What was taken under a serial. -/
theorem taken_generation (h : r.Orderly) (s : Serial) :
    generation s r.taken = [] ∨ ∃ rest, generation s r.taken = ⟨.boundary, s⟩ :: rest ∧
      (∀ e ∈ rest, e.item.isBoundary = false) ∧ rest.map (·.item) <+: contents s r.written := by
  have hfront : generation s r.taken <+: generation s r.written :=
    ((List.prefix_append r.taken r.queue.entries).filter _).trans (h.isPrefix s)
  cases htaken : generation s r.taken with
  | nil => exact .inl rfl
  | cons e rest =>
    rw [htaken] at hfront
    have hmem : e ∈ generation s r.written := hfront.subset (List.mem_cons_self ..)
    obtain ⟨hwritten, hs⟩ := mem_generation.mp hmem
    have hbounds := h.bounded e hwritten
    rw [hs] at hbounds
    obtain ⟨all, hall, hmarks⟩ := h.opened s hbounds.1 hbounds.2
    rw [hall, List.cons_prefix_cons] at hfront
    obtain ⟨rfl, hrest⟩ := hfront
    refine .inr ⟨rest, rfl, fun e he => hmarks e (hrest.subset he), ?_⟩
    have hcontents : contents s r.written = all.map (·.item) := by
      unfold contents
      rw [hall, List.filter_cons_of_neg (by simp [QueueItem.isBoundary]),
        List.filter_eq_self.mpr (fun e he => by simp [hmarks e he])]
    rw [hcontents]
    exact hrest.map _

/-- An entry other than a boundary is of the same generation as the entry taken before it. -/
theorem last_taken (h : r.Orderly) {e : QueueEntry} {rest : List QueueEntry}
    (entries : r.queue.entries = e :: rest) (mark : e.item.isBoundary = false) :
    r.taken.getLast?.map (·.serial) = some e.serial := by
  have hpassed : r.passed = r.taken ++ e :: rest := by rw [passed, entries]
  have hmem : e ∈ r.passed := by simp [hpassed]
  -- otherwise the entry would be the first of its generation, which is a boundary
  have hopened : generation e.serial r.taken ≠ [] := by
    intro hnone
    obtain ⟨hpos, hle⟩ := h.bounded e (h.passed_written hmem)
    obtain ⟨all, hall, -⟩ := h.opened e.serial hpos hle
    have hfront := h.isPrefix e.serial
    have hcons : generation e.serial (e :: rest) = e :: generation e.serial rest :=
      List.filter_cons_of_pos (by simp)
    rw [hpassed, generation_append, hnone, List.nil_append, hcons, hall, List.cons_prefix_cons] at hfront
    rw [hfront.1] at mark
    cases mark
  obtain ⟨first, hfirst⟩ := List.exists_mem_of_ne_nil _ hopened
  obtain ⟨htaken, hserial⟩ := mem_generation.mp hfirst
  obtain ⟨init, last, hlast⟩ : ∃ init last, r.taken = init ++ [last] :=
    ⟨_, _, (List.dropLast_concat_getLast (List.ne_nil_of_mem htaken)).symm⟩
  have hordered := h.ordered
  rw [hpassed, List.pairwise_append] at hordered
  obtain ⟨hbefore, -, hcross⟩ := hordered
  have hle : last.serial ≤ e.serial :=
    hcross last (by simp [hlast]) e (List.mem_cons_self ..)
  have hge : e.serial ≤ last.serial := by
    rw [hlast] at htaken hbefore
    rcases List.mem_append.mp htaken with hin | heq
    · rw [← hserial]
      exact (List.pairwise_append.mp hbefore).2.2 first hin last (List.mem_singleton.mpr rfl)
    · exact Nat.le_of_eq (hserial.symm.trans (congrArg QueueEntry.serial (List.mem_singleton.mp heq)))
  rw [hlast, List.getLast?_append]
  exact congrArg some (Nat.le_antisymm hle hge)

/-- Unless it takes a boundary, an operation leaves the generation of the last entry taken as it is. -/
theorem last_taken_apply (h : r.Orderly) {op : QueueOp}
    (marks : ∀ e ∈ r.queue.taken op, e.item.isBoundary = false) :
    (r.apply op).taken.getLast?.map (·.serial) = r.taken.getLast?.map (·.serial) := by
  have heffect := r.queue.apply_effect op
  show (r.taken ++ r.queue.taken op).getLast?.map (·.serial) = _
  generalize r.queue.written op = wrote, r.queue.taken op = took at heffect marks
  cases heffect with
  | keep | clear | append | begin => rw [List.append_nil]
  | take e take running aborted entries =>
    rw [h.last_taken entries (marks e (List.mem_singleton.mpr rfl)), List.getLast?_append]
    rfl

end Orderly
end Recorded

/-- **The order of generations.** Whoever takes entries out of a queue sees the serials in order. Under
each serial the first entry is the boundary of that generation, the only one, and the others are a prefix
of the packets and end marks that were put under that serial, in the order in which they were put. The
serial that clocks see is the queue's, and it counts the boundaries that were written. -/
theorem taken_by_generation (stream : StreamKind) (ops : List QueueOp)
    (rule : Obeys Recorded.apply Recorded.FlushWhileAborted (.new stream) ops) :
    let r := ops.foldl Recorded.apply (.new stream)
    (r.taken.map (·.serial)).Pairwise (· ≤ ·) ∧
    (∀ s, generation s r.taken = [] ∨ ∃ rest, generation s r.taken = ⟨.boundary, s⟩ :: rest ∧
      (∀ e ∈ rest, e.item.isBoundary = false) ∧ rest.map (·.item) <+: contents s r.written) ∧
    r.queue.published = r.queue.serial ∧
    r.queue.serial = (r.written.filter (·.item.isBoundary)).length := by
  intro r
  have h : r.Orderly := rule.preserves (fun _ _ h ha => h.apply ha) (Recorded.new_orderly stream)
  refine ⟨?_, h.taken_generation, h.published, h.counted⟩
  exact List.pairwise_map.mpr (h.ordered.sublist (List.sublist_append_left ..))

/-- A queue that is started again keeps what it held, and loses it when it is emptied. -/
theorem taken_across_restarts :
    let ops : List QueueOp := [.start, .take, .put default, .abort, .start, .putEndOfStream, .take, .take,
      .abort, .flush, .take, .start, .put default, .beginGeneration, .take]
    let r := ops.foldl Recorded.apply (.new .video)
    r.taken = [⟨.boundary, 1⟩, ⟨.packet default, 1⟩, ⟨.boundary, 2⟩, ⟨.boundary, 4⟩] ∧
      (r.taken.map (·.serial)).Pairwise (· ≤ ·) :=
  ⟨by decide, (taken_by_generation .video _ (by decide)).1⟩

end Playback
