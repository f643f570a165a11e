import Playback.Proofs.Demux.Steps
import Playback.Proofs.Schedule.Pending
import Playback.Scripted.Demux
import Playback.Scripted.Source

/-!
# The task to read

A demuxer reads in tasks. Each ends after a while and has to see to it that there is another one: at the end of a
batch, when the queues have enough, at the end of the source. Starving decoders, seeks and the start post it too, and
whoever posts it takes back the one that waits. `Turned` says what the thread may do to the task, and two invariants
follow:

* `Steady`: at most one task to read waits, and it is due within the pause of a demuxer that cannot read on;
* `Going`: between two tasks one waits, unless the demuxer was stopped or has failed. The start brings it about, and
  so does a seek that the source grants.

The queues and the clocks play no part in this: in `DemuxMove.others` other threads leave them as they like.
-/

namespace Playback

variable {R σ : Type}

/-! ## Tasks to read in a loop -/

namespace MessageQueue

theorem insert_filter_of_not {α : Type} {p : Message α → Bool} {m : Message α} (hm : p m = false)
    (l : List (Message α)) : (insert m l).filter p = l.filter p := by
  have hnone : Option.guard (p ·) m = none := by simp [Option.guard, hm]
  rw [← List.filterMap_eq_filter, insert_filterMap_none hnone, List.filterMap_eq_filter]

/-- The only selected message is the one that is put in. -/
theorem insert_filter_of_nil {α : Type} {p : Message α → Bool} {m : Message α} (hm : p m = true)
    {l : List (Message α)} (hl : l.filter p = []) : (insert m l).filter p = [m] := by
  have hperm := (insert_perm m l).filter p
  rw [List.filter_cons_of_pos hm, hl] at hperm
  exact List.perm_singleton.mp hperm

end MessageQueue

namespace Loop

/-- The tasks to read that wait, told by their id. -/
def reads (l : Loop (DemuxTask R)) : List (Message (DemuxTask R)) :=
  l.queue.messages.filter (·.taskId == DemuxTask.readId)

/-- All tasks belong to the runner of the demuxer, those to read have the id for it, and at most one of these waits,
due by the limit. -/
structure Paced (runner limit : Nat) (l : Loop (DemuxTask R)) : Prop where
  ordered : l.queue.Ordered
  own : ∀ m ∈ l.queue.messages, m.runner = some runner ∧ (m.taskId = DemuxTask.readId ↔ m.task = .read)
  once : l.reads.length ≤ 1
  soon : ∀ m ∈ l.reads, m.due ≤ limit

variable {l l' : Loop (DemuxTask R)} {runner limit now : Nat}

theorem Paced.of_reads {messages : List (Message (DemuxTask R))} (ordered : l.queue.Ordered)
    (own : ∀ m ∈ l.queue.messages, m.runner = some runner ∧ (m.taskId = DemuxTask.readId ↔ m.task = .read))
    (reads : l.reads = messages) (once : messages.length ≤ 1) (soon : ∀ m ∈ messages, m.due ≤ limit) :
    l.Paced runner limit := by
  subst reads
  exact ⟨ordered, own, once, soon⟩

theorem new_paced (name : String) (runner limit : Nat) : (Loop.new name : Loop (DemuxTask R)).Paced runner limit :=
  .of_reads MessageQueue.empty_ordered (List.forall_mem_nil _) rfl (Nat.zero_le 1) (List.forall_mem_nil _)

theorem Paced.of_queue (h : l.Paced runner limit) (same : l'.queue = l.queue) : l'.Paced runner limit :=
  .of_reads (by rw [same]; exact h.ordered) (by rw [same]; exact h.own) (by rw [reads, same]; rfl) h.once h.soon

theorem Paced.mono (h : l.Paced runner limit) {later : Nat} (hle : limit ≤ later) : l.Paced runner later :=
  ⟨h.ordered, h.own, h.once, fun m hm => Nat.le_trans (h.soon m hm) hle⟩

theorem Paced.reading (h : l.Paced runner limit) {m : Message (DemuxTask R)} (hm : m ∈ l.reads) : m.task = .read := by
  obtain ⟨hmem, hid⟩ := List.mem_filter.mp hm
  exact (h.own m hmem).2.mp (by simpa using hid)

/-- The task to read is taken back. -/
theorem Paced.withdraw (h : l.Paced runner limit) (later : Nat) :
    (l.remove runner (some DemuxTask.readId)).2.Paced runner later ∧
      (l.remove runner (some DemuxTask.readId)).2.reads = [] := by
  have hmessages := l.remove_messages runner (some DemuxTask.readId)
  have hreads : (l.remove runner (some DemuxTask.readId)).2.reads = [] := by
    unfold reads
    rw [hmessages, List.filter_filter, List.filter_eq_nil_iff]
    intro m hm
    by_cases hid : m.taskId = DemuxTask.readId <;> simp [Message.matchedBy, (h.own m hm).1, hid]
  refine ⟨.of_reads (h.ordered.remove ..) (fun m hm => ?_) hreads (Nat.zero_le 1) (List.forall_mem_nil _), hreads⟩
  rw [hmessages] at hm
  exact h.own m (List.mem_filter.mp hm).1

/-- A task is posted that the rule allows. -/
theorem Paced.post_own (h : l.Paced runner limit) (now delay : Nat) (task : DemuxTask R) {taskId : Nat}
    (hid : taskId = DemuxTask.readId ↔ task = .read) :
    ∀ m ∈ (l.post now delay task (some runner) taskId).2.queue.messages,
      m.runner = some runner ∧ (m.taskId = DemuxTask.readId ↔ m.task = .read) := by
  intro m hm
  cases hq : l.queue.quitting with
  | true =>
    rw [post_refused hq] at hm
    exact h.own m hm
  | false =>
    rw [post_running hq] at hm
    rcases MessageQueue.mem_insert.mp hm with rfl | hm
    · exact ⟨rfl, hid⟩
    · exact h.own m hm

/-- A task to read is posted where none waits. -/
theorem Paced.post_read (h : l.Paced runner limit) (none : l.reads = []) {now delay : Nat}
    (hdelay : now + min delay maxDelay ≤ limit) :
    (l.post now delay .read (some runner) DemuxTask.readId).2.Paced runner limit ∧
      (l.queue.quitting = false → (l.post now delay .read (some runner) DemuxTask.readId).2.reads
        = [⟨.read, now + min delay maxDelay, l.queue.nextOrder, some runner, DemuxTask.readId⟩]) := by
  have hordered := post_ordered h.ordered now delay .read (some runner) DemuxTask.readId
  have hown := h.post_own now delay .read (iff_of_true rfl rfl)
  cases hq : l.queue.quitting with
  | true =>
    rw [post_refused hq]
    exact ⟨h, nofun⟩
  | false =>
    have hreads : (l.post now delay .read (some runner) DemuxTask.readId).2.reads
        = [⟨.read, now + min delay maxDelay, l.queue.nextOrder, some runner, DemuxTask.readId⟩] := by
      rw [post_running hq]
      exact MessageQueue.insert_filter_of_nil rfl none
    refine ⟨.of_reads hordered hown hreads (Nat.le_refl 1) fun m hm => ?_, fun _ => hreads⟩
    rw [List.mem_singleton.mp hm]
    exact hdelay

theorem Paced.post_seek (h : l.Paced runner limit) (now : Nat) (position : R) :
    (l.post now 0 (.seek position) (some runner)).2.Paced runner limit ∧
      (l.post now 0 (.seek position) (some runner)).2.reads = l.reads := by
  have hreads : (l.post now 0 (.seek position) (some runner)).2.reads = l.reads := by
    cases hq : l.queue.quitting with
    | true => rw [post_refused hq]
    | false =>
      rw [post_running hq]
      exact MessageQueue.insert_filter_of_not rfl _
  have hid : 0 = DemuxTask.readId ↔ DemuxTask.seek position = .read := iff_of_false nofun nofun
  have hown := h.post_own now 0 (.seek position) hid
  exact ⟨.of_reads (post_ordered h.ordered ..) hown hreads h.once h.soon, hreads⟩

/-- A task is taken. If it is one to read, none is left. -/
theorem Paced.next? (h : l.Paced runner limit) {task : DemuxTask R} (hnext : l.next? now = some (task, l')) :
    l'.Paced runner limit ∧ (task = .read → l'.reads = []) ∧ (task ≠ .read → l'.reads = l.reads) := by
  obtain ⟨⟨m, q⟩, hq, heq⟩ := Option.map_eq_some_iff.mp hnext
  obtain ⟨rfl, rfl⟩ := Prod.mk.inj heq
  obtain ⟨-, hmessages, -⟩ := MessageQueue.next?_eq_some hq
  have hown := (h.own m (by rw [hmessages]; exact List.mem_cons_self ..)).2
  generalize hl' : ({ l with queue := q } : Loop (DemuxTask R)) = l'
  have hreads : l.reads = if m.taskId = DemuxTask.readId then m :: l'.reads else l'.reads := by
    rw [← hl', reads, hmessages, List.filter_cons]
    simp only [beq_iff_eq]
    rfl
  -- whatever is taken, tasks to read that are left were there before
  have hsub : l'.reads.Sublist l.reads := by
    rw [hreads]
    split
    next => exact List.sublist_cons_self ..
    next => exact List.Sublist.refl _
  refine ⟨⟨by rw [← hl']; exact h.ordered.next? hq, fun x hx => h.own x ?_, Nat.le_trans hsub.length_le h.once,
    fun x hx => h.soon x (hsub.subset hx)⟩, fun hread => ?_, fun hother => ?_⟩
  · rw [← hl'] at hx
    rw [hmessages]
    exact List.mem_cons_of_mem _ hx
  · have honce := h.once
    rw [hreads, if_pos (hown.mpr hread), List.length_cons] at honce
    exact List.eq_nil_of_length_eq_zero (Nat.le_zero.mp (Nat.le_of_succ_le_succ honce))
  · rw [hreads, if_neg fun hid => hother (hown.mp hid)]

theorem Paced.quit (h : l.Paced runner limit) : l.quit.Paced runner limit := by
  have hordered : l.quit.queue.Ordered := h.ordered.quit
  cases hq : l.queue.quitting with
  | true =>
    have hqueue : l.quit.queue = l.queue := by simp [Loop.quit, MessageQueue.quit, hq]
    have hreads : l.quit.reads = l.reads := by rw [reads, hqueue, reads]
    exact .of_reads hordered (by rw [hqueue]; exact h.own) hreads h.once h.soon
  | false =>
    have hdrained : l.quit.queue.messages = [] := l.quit_drained fun hq' => by rw [hq] at hq'; cases hq'
    have hreads : l.quit.reads = [] := by rw [reads, hdrained]; rfl
    exact .of_reads hordered (by rw [hdrained]; exact List.forall_mem_nil _) hreads (Nat.zero_le 1)
      (List.forall_mem_nil _)

end Loop

/-! ## What the thread does to the task -/

namespace Demuxer

/-- What a step of the thread may do to the task to read and to the marks that it hangs on. -/
inductive Turned (now : Nat) (d : Demuxer R σ) : Demuxer R σ → Prop where
  /-- There is nothing to do; the thread may notice that it shall end. -/
  | rests (loop : Loop (DemuxTask R)) (queue : loop.queue = d.loop.queue) (idle : d.loop.next? now = none) :
      Turned now d { d with loop }
  /-- The task is taken, and a batch begins unless the demuxer was stopped or has failed. -/
  | takes (loop : Loop (DemuxTask R)) (next : d.loop.next? now = some (.read, loop)) :
      Turned now d { d with
        loop, reading := if d.stopped || d.failed then none else some DemuxTask.batch }
  /-- The batch goes on. -/
  | reads (source : σ) (left videoPackets audioPackets : Nat) (eof : Bool) :
      Turned now d { d with source, reading := some left, eof, videoPackets, audioPackets }
  /-- The batch ends, and the task is posted again. -/
  | posts (source : σ) (eof : Bool) (delay : Nat) (pause : delay ≤ d.retryDelay) :
      Turned now d ({ d with source, reading := none, eof }.postRead now delay)
  | fails (source : σ) : Turned now d { d with source, reading := none, failed := true }
  /-- A seek is refused or fails. -/
  | denies (position : R) (loop : Loop (DemuxTask R)) (next : d.loop.next? now = some (.seek position, loop))
      (source : σ) : Turned now d { d with loop, source }
  | grants (position : R) (loop : Loop (DemuxTask R)) (next : d.loop.next? now = some (.seek position, loop))
      (source : σ) : Turned now d ({ d with loop, source, eof := false, failed := false }.postRead now 0)

section

variable [Scalar R] [Source σ R]

theorem readOne_turned (d : Demuxer R σ) (queues : List StreamQueue) (m : MediaClock R) (now left : Nat) :
    Turned now d (d.readOne queues m now left).demuxer := by
  unfold readOne
  dsimp only
  split
  next => exact .posts d.source d.eof 0 (Nat.zero_le _)
  next left =>
    split
    next => exact .posts d.source d.eof d.retryDelay (Nat.le_refl _)
    next =>
      split
      next p source _ =>
        by_cases hknown : queues.any (·.queue.stream = p.stream) = true
        · obtain ⟨videoPackets, audioPackets, hstore⟩ := store_known hknown { d with source, reading := some left }
          rw [hstore]
          exact .reads source left videoPackets audioPackets false
        · unfold store
          rw [if_neg hknown]
          exact .reads source left d.videoPackets d.audioPackets d.eof
      next source _ =>
        split
        next => exact .posts source true d.retryDelay (Nat.le_refl _)
        next => exact .posts source true d.retryDelay (Nat.le_refl _)
      next e source _ => exact .fails source

theorem step_turned (d : Demuxer R σ) (queues : List StreamQueue) (m : MediaClock R) (now : Nat) :
    Turned now d (d.step queues m now).demuxer := by
  unfold step
  split
  next left _ => exact d.readOne_turned queues m now left
  next hreading =>
    split
    next loop hnext => exact .takes loop hnext
    next position loop hnext =>
      by_cases h : ∃ source, sought? d.source position = some (.ok (), source)
      · obtain ⟨source, hgranted⟩ := h
        rw [seek_granted (d := { d with loop }) hgranted]
        exact .grants position loop hnext source
      · obtain ⟨source, event, hseek, -⟩ := seek_denied (d := { d with loop })
          (fun source hgranted => h ⟨source, hgranted⟩) queues m now
        rw [hseek]
        exact .denies position loop hnext source
    next hnone =>
      dsimp only
      split
      next => exact .rests d.loop.finish rfl hnone
      next => exact .rests d.loop rfl hnone

end

/-! ## What steps keep -/

/-- At most one task to read waits, due within the pause. The thread of a stopped demuxer is to end. -/
structure Steady (config : BufferConfig R) (now : Nat) (d : Demuxer R σ) : Prop where
  fixed : d.config = config
  paced : d.loop.Paced d.runner (now + min (millis config.readRetryInterval) maxDelay)
  ended : d.loop.queue.quitting = d.stopped

/-- Between two tasks one to read waits, unless the demuxer was stopped or has failed. -/
def Going (d : Demuxer R σ) : Prop :=
  d.reading = none → d.stopped = false → d.failed = false → d.loop.reads ≠ []

variable {d d' : Demuxer R σ} {config : BufferConfig R} {now : Nat}

@[simp] theorem postRead_stopped (d : Demuxer R σ) (now delay : Nat) : (d.postRead now delay).stopped = d.stopped :=
  rfl

theorem new_steady (source : σ) (config : BufferConfig R) (now : Nat) : (new source config).Steady config now :=
  ⟨rfl, (Loop.new_paced "demuxer" 1 _).of_queue rfl, rfl⟩

theorem Steady.postRead (h : d.Steady config now) {delay : Nat} (pause : delay ≤ d.retryDelay) :
    (d.postRead now delay).Steady config now ∧ (d.stopped = false → (d.postRead now delay).loop.reads
      = [⟨.read, now + min delay maxDelay, d.loop.queue.nextOrder, some d.runner, DemuxTask.readId⟩]) := by
  have hpause : delay ≤ millis config.readRetryInterval := h.fixed ▸ pause
  obtain ⟨hpaced, hnone⟩ := h.paced.withdraw (now + min (millis config.readRetryInterval) maxDelay)
  obtain ⟨hpaced', hreads⟩ := hpaced.post_read hnone
    (show now + min delay maxDelay ≤ now + min (millis config.readRetryInterval) maxDelay by omega)
  exact ⟨⟨h.fixed, hpaced', (Loop.post_quitting ..).trans h.ended⟩, fun hstopped => hreads (h.ended.trans hstopped)⟩

theorem Steady.going_postRead (h : d.Steady config now) {delay : Nat} (pause : delay ≤ d.retryDelay) :
    (d.postRead now delay).Going := by
  intro _ hstopped _
  rw [postRead_stopped] at hstopped
  rw [(h.postRead pause).2 hstopped]
  exact List.cons_ne_nil _ _

theorem Steady.requestSeek (h : d.Steady config now) (position : R) :
    (d.requestSeek now position).Steady config now ∧ (d.Going → (d.requestSeek now position).Going) := by
  obtain ⟨hpaced, hreads⟩ := h.paced.post_seek now position
  refine ⟨⟨h.fixed, hpaced, (Loop.post_quitting ..).trans h.ended⟩, fun going hreading hstopped hfailed => ?_⟩
  rw [show (d.requestSeek now position).loop.reads = d.loop.reads from hreads]
  exact going hreading hstopped hfailed

theorem Steady.notify (h : d.Steady config now) :
    (d.notify now).Steady config now ∧ (d.Going → (d.notify now).Going) := by
  unfold Demuxer.notify
  split
  next => exact ⟨h, id⟩
  next => exact ⟨(h.postRead (Nat.zero_le _)).1, fun _ => h.going_postRead (Nat.zero_le _)⟩

theorem Steady.later (h : d.Steady config now) {later : Nat} (hle : now ≤ later) : d.Steady config later :=
  ⟨h.fixed, h.paced.mono (Nat.add_le_add_right hle _), h.ended⟩

theorem Steady.stop (h : d.Steady config now) : d.stop.Steady config now ∧ d.stop.Going := by
  refine ⟨⟨h.fixed, ?_, Loop.quit_quitting _⟩, fun _ hstopped => nomatch hstopped⟩
  -- every task is the runner's own, so all of them are taken back
  have hremoved : (d.loop.remove d.runner).2.queue.messages = [] := by
    rw [d.loop.remove_messages, List.filter_eq_nil_iff]
    intro m hm
    simpa [Message.matchedBy] using (h.paced.own m hm).1
  have hreads : (d.loop.remove d.runner).2.reads = [] := by rw [Loop.reads, hremoved]; rfl
  refine Loop.Paced.quit (.of_reads (h.paced.ordered.remove ..) ?_ hreads (Nat.zero_le 1) (List.forall_mem_nil _))
  rw [hremoved]
  exact List.forall_mem_nil _

/-- The thread keeps both. -/
theorem Turned.keeps (turned : Turned now d d') (h : d.Steady config now) :
    d'.Steady config now ∧ (d.Going → d'.Going) := by
  cases turned with
  | rests loop queue =>
    have hreads : loop.reads = d.loop.reads := by rw [Loop.reads, queue]; rfl
    refine ⟨⟨h.fixed, h.paced.of_queue queue, by rw [queue]; exact h.ended⟩, fun going => ?_⟩
    unfold Going
    rw [hreads]
    exact going
  | takes loop next =>
    obtain ⟨hpaced, -, -⟩ := h.paced.next? next
    refine ⟨⟨h.fixed, hpaced, (Loop.next?_quitting next).trans h.ended⟩, fun _ hreading hstopped hfailed => ?_⟩
    -- a task that is taken begins a batch, and otherwise there is nothing to show
    have hstopped' : d.stopped = false := hstopped
    have hfailed' : d.failed = false := hfailed
    simp [hstopped', hfailed'] at hreading
  | reads => exact ⟨⟨h.fixed, h.paced, h.ended⟩, fun _ hreading => nomatch hreading⟩
  | posts source eof delay pause =>
    have hdone : Steady config now { d with source, reading := none, eof } := ⟨h.fixed, h.paced, h.ended⟩
    exact ⟨(hdone.postRead pause).1, fun _ => hdone.going_postRead pause⟩
  | fails => exact ⟨⟨h.fixed, h.paced, h.ended⟩, fun _ _ _ hfailed => nomatch hfailed⟩
  | denies position loop next source =>
    obtain ⟨hpaced, -, hother⟩ := h.paced.next? next
    refine ⟨⟨h.fixed, hpaced, (Loop.next?_quitting next).trans h.ended⟩, fun going hreading hstopped hfailed => ?_⟩
    show loop.reads ≠ []
    rw [hother nofun]
    exact going hreading hstopped hfailed
  | grants position loop next source =>
    have htaken : Steady config now { d with loop, source, eof := false, failed := false } :=
      ⟨h.fixed, (h.paced.next? next).1, (Loop.next?_quitting next).trans h.ended⟩
    exact ⟨(htaken.postRead (Nat.zero_le _)).1, fun _ => htaken.going_postRead (Nat.zero_le _)⟩

/-- A thread with a task to read does not rest once that is due. -/
theorem Steady.awake (h : d.Steady config now) (running : d.stopped = false) {m : Message (DemuxTask R)}
    (hm : m ∈ d.loop.reads) {time : Nat} (due : m.due ≤ time) : d.isResting time = false := by
  cases hnext : d.loop.next? time with
  | none =>
    have hlater := Loop.later h.paced.ordered (h.ended.trans running) hnext m (List.mem_filter.mp hm).1
    omega
  | some => simp [isResting, hnext]

end Demuxer

/-! ## Runs -/

/-- What happens to a demuxer. -/
inductive DemuxMove (R : Type) where
  | start
  /-- A step of the demuxer's thread. -/
  | step
  /-- A decoder found its queue empty. -/
  | notify
  /-- The end of such a wake-up, whatever has happened since the mark of the end was looked at. -/
  | wake
  | requestSeek (position : R)
  /-- Others leave the queues and clocks like this. -/
  | others (queues : List StreamQueue) (clock : MediaClock R)
  | advance (nanos : Nat)
  | stop

namespace DemuxRun

variable [Scalar R]

def new (source : σ) (config : BufferConfig R) (queues : List StreamQueue) (clock : MediaClock R) (now : Nat) :
    DemuxRun R σ :=
  ⟨.new source config, queues, clock, now, []⟩

variable [Source σ R]

def move (r : DemuxRun R σ) : DemuxMove R → DemuxRun R σ
  | .start => { r with demuxer := r.demuxer.start r.now }
  | .step =>
    let d := r.demuxer.step r.queues r.clock r.now
    { r with demuxer := d.demuxer, queues := d.queues, clock := d.clock, events := d.event.toList ++ r.events }
  | .notify => { r with demuxer := r.demuxer.notify r.now }
  | .wake => { r with demuxer := r.demuxer.postRead r.now 0 }
  | .requestSeek position => { r with demuxer := r.demuxer.requestSeek r.now position }
  | .others queues clock => { r with queues, clock }
  | .advance nanos => { r with now := r.now + nanos }
  | .stop => { r with demuxer := r.demuxer.stop }

def moves (r : DemuxRun R σ) (ms : List (DemuxMove R)) : DemuxRun R σ :=
  ms.foldl move r

/-- The thread is about to carry out a seek that the source grants. -/
def Granted (r : DemuxRun R σ) (position : R) : Prop :=
  r.demuxer.reading = none ∧ (∃ loop, r.demuxer.loop.next? r.now = some (.seek position, loop)) ∧
    ∃ source, Demuxer.sought? r.demuxer.source position = some (.ok (), source)

variable {r : DemuxRun R σ} {config : BufferConfig R}

theorem move_steady (h : r.demuxer.Steady config r.now) (m : DemuxMove R) :
    (r.move m).demuxer.Steady config (r.move m).now ∧
      (r.demuxer.Going ∨ m = .start → (r.move m).demuxer.Going) := by
  have hpost := (h.postRead (Nat.zero_le r.demuxer.retryDelay)).1
  have hgoing := h.going_postRead (Nat.zero_le r.demuxer.retryDelay)
  cases m with
  | start | wake => exact ⟨hpost, fun _ => hgoing⟩
  | step =>
    obtain ⟨hsteady, hkeeps⟩ := (r.demuxer.step_turned r.queues r.clock r.now).keeps h
    exact ⟨hsteady, fun going => hkeeps (going.resolve_right nofun)⟩
  | notify =>
    obtain ⟨hsteady, hkeeps⟩ := h.notify
    exact ⟨hsteady, fun going => hkeeps (going.resolve_right nofun)⟩
  | requestSeek position =>
    obtain ⟨hsteady, hkeeps⟩ := h.requestSeek position
    exact ⟨hsteady, fun going => hkeeps (going.resolve_right nofun)⟩
  | others => exact ⟨h, fun going => going.resolve_right nofun⟩
  | advance nanos => exact ⟨h.later (Nat.le_add_right ..), fun going => going.resolve_right nofun⟩
  | stop => exact ⟨h.stop.1, fun _ => h.stop.2⟩

theorem moves_steady (ms : List (DemuxMove R)) (h : r.demuxer.Steady config r.now) :
    (r.moves ms).demuxer.Steady config (r.moves ms).now ∧
      (r.demuxer.Going ∨ .start ∈ ms → (r.moves ms).demuxer.Going) := by
  induction ms generalizing r with
  | nil => exact ⟨h, fun going => going.resolve_right List.not_mem_nil⟩
  | cons m ms ih =>
    obtain ⟨hsteady, hgoing⟩ := move_steady h m
    obtain ⟨hsteady', hgoing'⟩ := ih hsteady
    refine ⟨hsteady', fun going => hgoing' ?_⟩
    rcases going with hbefore | hstart
    · exact .inl (hgoing (.inl hbefore))
    · rcases List.mem_cons.mp hstart with rfl | hlater
      · exact .inl (hgoing (.inr rfl))
      · exact .inr hlater

end DemuxRun

/-- **Reading goes on, once at a time.** In every run, at most one task to read waits in the loop of a demuxer. Between
two tasks of a demuxer that was started, was not stopped and has not failed exactly one does; it is due by now and the
pause of a demuxer that cannot read on, and by then the thread does not rest. A seek that the source grants ends a
failure, with a task that is due at once. -/
theorem read_is_pending [Scalar R] [Source σ R] (source : σ) (config : BufferConfig R) (queues : List StreamQueue)
    (clock : MediaClock R) (now : Nat) (ms : List (DemuxMove R)) :
    let r := (DemuxRun.new source config queues clock now).moves ms
    let d := r.demuxer
    let limit := r.now + min (millis config.readRetryInterval) maxDelay
    d.loop.reads.length ≤ 1 ∧
    (.start ∈ ms → d.reading = none → d.stopped = false → d.failed = false →
      (∃ m, d.loop.reads = [m] ∧ m.task = .read ∧ m.due ≤ limit) ∧ d.isResting limit = false) ∧
    (∀ position, r.Granted position →
      let d' := (r.move .step).demuxer
      d'.failed = false ∧ d'.reading = none ∧ ∃ m, d'.loop.reads = [m] ∧ m.task = .read ∧ m.due = r.now) := by
  intro r d limit
  obtain ⟨hsteady, hgoing⟩ := DemuxRun.moves_steady (r := .new source config queues clock now) ms
    (Demuxer.new_steady source config now)
  refine ⟨hsteady.paced.once, fun hstart hreading hstopped hfailed => ?_, fun position hgranted => ?_⟩
  · have hsome : d.loop.reads ≠ [] := hgoing (.inr hstart) hreading hstopped hfailed
    obtain ⟨m, hm⟩ : ∃ m, d.loop.reads = [m] := by
      have hpos := List.length_pos_iff.mpr hsome
      have honce : d.loop.reads.length ≤ 1 := hsteady.paced.once
      exact List.length_eq_one_iff.mp (by omega)
    have hmem : m ∈ d.loop.reads := by rw [hm]; exact List.mem_singleton_self m
    have hdue : m.due ≤ limit := hsteady.paced.soon m hmem
    exact ⟨⟨m, hm, hsteady.paced.reading hmem, hdue⟩, hsteady.awake hstopped hmem hdue⟩
  · obtain ⟨hreading, ⟨loop, hnext⟩, target, hsought⟩ := hgranted
    have hstep : (r.move .step).demuxer
        = { d with loop, source := target, eof := false, failed := false }.postRead r.now 0 := by
      show (d.step r.queues r.clock r.now).demuxer = _
      have hseek : d.step r.queues r.clock r.now = { d with loop }.seek r.queues r.clock r.now position := by
        unfold Demuxer.step
        split
        next left hbusy => exact nomatch hreading.symm.trans hbusy
        next =>
          rw [hnext]
      rw [hseek, Demuxer.seek_granted (d := { d with loop }) hsought]
    have htaken : Demuxer.Steady config r.now { d with loop, source := target, eof := false, failed := false } :=
      ⟨hsteady.fixed, (hsteady.paced.next? hnext).1, (Loop.next?_quitting hnext).trans hsteady.ended⟩
    -- a task was taken, so the loop was not to end
    have hrunning : d.stopped = false := by
      rw [← hsteady.ended]
      obtain ⟨⟨m, q⟩, hq, -⟩ := Option.map_eq_some_iff.mp hnext
      exact (MessageQueue.next?_eq_some hq).1
    have hreads := (htaken.postRead (Nat.zero_le _)).2 hrunning
    rw [hstep]
    exact ⟨rfl, hreading, _, hreads, rfl, rfl⟩

/-- A source whose first read fails, and which can seek. -/
def brokenSource : ScriptedSource Float where
  packets := #[]
  info := .unknown
  audio := none
  video := none
  seekable := true
  failAt := some (0, .io "broken")
  seekError := none
  gaps := []
  next := 0
  seeks := []

/-- A demuxer that was started fails in its first batch, half a millisecond before it is asked for a seek. -/
def failingMoves : List (DemuxMove Float) := [.start, .step, .step, .advance 500000, .requestSeek 0.0]

def failingRun (ms : List (DemuxMove Float)) : DemuxRun Float (ScriptedSource Float) :=
  (DemuxRun.new brokenSource .default [⟨(PacketQueue.new .audio).start, ⟨1, 1000⟩⟩] (.new .audioMaster id 0.0)
    0).moves ms

theorem read_pending_after_failure :
    ((failingRun failingMoves).demuxer.failed = true ∧ (failingRun failingMoves).demuxer.loop.reads.length = 0) ∧
    (∃ m, ((failingRun failingMoves).move .step).demuxer.loop.reads = [m] ∧ m.due = (failingRun failingMoves).now) ∧
    ∃ m, (failingRun (failingMoves ++ [.step])).demuxer.loop.reads = [m] ∧
      m.due ≤ (failingRun (failingMoves ++ [.step])).now + 10000000 := by
  refine ⟨by decide +kernel, ?_, ?_⟩
  · have hgranted : (failingRun failingMoves).Granted 0.0 := ⟨by decide +kernel, ⟨_, rfl⟩, ⟨_, rfl⟩⟩
    obtain ⟨-, -, m, hm, -, hdue⟩ := (read_is_pending brokenSource .default
      [⟨(PacketQueue.new .audio).start, ⟨1, 1000⟩⟩] (.new .audioMaster id 0.0) 0 failingMoves).2.2 0.0 hgranted
    exact ⟨m, hm, hdue⟩
  · obtain ⟨⟨m, hm, -, hdue⟩, -⟩ := (read_is_pending brokenSource .default
      [⟨(PacketQueue.new .audio).start, ⟨1, 1000⟩⟩] (.new .audioMaster id 0.0) 0 (failingMoves ++ [.step])).2.1
      (by simp [failingMoves]) (by decide +kernel) (by decide +kernel) (by decide +kernel)
    exact ⟨m, hm, hdue⟩

end Playback
