import Mathlib.Algebra.GroupWithZero.Nat
import Mathlib.Algebra.Order.BigOperators.Group.List
import Mathlib.Data.List.Induction
import Playback.Exact
import Playback.Proofs.Demux.Piecewise
import Playback.Proofs.PacketQueue.Accounts

/-!
# How much the queues hold

A demuxer reads on only while its queues hold no more bytes than the limit, and this is looked at before each packet.
What is put in afterwards comes on top: the packet, or a mark for the end in every queue. So the bytes of all queues
together stay within the limit and the larger of the two (`byteBound`), as long as no seek is under way.

A seek puts a boundary in place of all that a queue holds, but it does so in one queue after the other. Until it comes
to the last ones, these still hold what they held, and the boundaries come on top; an aborted queue it passes over, and
the boundaries stay on top. Two accounts are kept for that. `Contained.within` has the queues that a seek has come to
apart from the others. `Contained.spare` is about what queues hold beyond one entry each (`excess`): no seek adds to
that, whatever is aborted.

Decoders take entries out between any two looks and writes of the thread (`BufferAct`).
-/

namespace Playback

variable {R σ : Type}

/-! ## One queue -/

namespace PacketQueue

variable {q : PacketQueue}

/-- A queue holds nothing, or at least what an entry takes besides its payload. -/
theorem Accurate.empty_or (h : q.Accurate) : q.size = 0 ∨ QueueEntry.overhead ≤ q.size := by
  rw [h.size]
  cases q.entries with
  | nil => exact .inl rfl
  | cons e es =>
    refine .inr ?_
    rw [bytesOf, List.map_cons, List.sum_cons, QueueEntry.size]
    omega

/-- What a change may do to a queue: it adds so many bytes at most, and does not make an aborted queue run. -/
structure Adds (bytes : Nat) (q q' : PacketQueue) : Prop where
  accurate : q'.Accurate
  size : q'.size ≤ q.size + bytes
  running : q'.aborted = false → q.aborted = false

theorem Accurate.putItem_adds (h : q.Accurate) (item : QueueItem) :
    q.Adds (QueueEntry.overhead + item.payload) (q.putItem item).2 := by
  refine ⟨h.putItem item, ?_, ?_⟩
  all_goals
    unfold PacketQueue.putItem
    split
  next => exact Nat.le_add_right _ _
  next =>
    show q.size + (item.payload + QueueEntry.overhead) ≤ _
    omega
  next => exact id
  next => exact id

theorem Accurate.look_adds (h : q.Accurate) (notified : Bool) : q.Adds 0 (q.look notified).2 := by
  refine ⟨h.look notified, ?_, ?_⟩
  all_goals
    unfold PacketQueue.look PacketQueue.pop
    split
  next => exact Nat.le_refl _
  next =>
    cases q.entries with
    | nil => exact Nat.le_refl _
    | cons e rest => exact Nat.sub_le _ _
  next => exact id
  next =>
    cases q.entries with
    | nil => exact id
    | cons e rest => exact id

theorem Accurate.abort_adds (h : q.Accurate) : q.Adds 0 q.abort :=
  ⟨⟨h.size, h.duration⟩, Nat.le_refl _, nofun⟩

/-- A queue that runs in a new generation did so before, and is left with its boundary. -/
theorem beginGeneration_running (running : q.beginGeneration.2.aborted = false) :
    q.beginGeneration.2.size = QueueEntry.overhead ∧ q.aborted = false := by
  cases haborted : q.aborted with
  | true => simp [beginGeneration, haborted] at running
  | false => exact ⟨by simp [beginGeneration, haborted, push, flush, QueueEntry.size, QueueItem.payload], rfl⟩

/-- Beyond one entry a new generation leaves nothing, or what an aborted queue holds. -/
theorem beginGeneration_excess (q : PacketQueue) :
    q.beginGeneration.2.size - QueueEntry.overhead ≤ q.size - QueueEntry.overhead := by
  cases hrunning : q.beginGeneration.2.aborted with
  | true =>
    rw [beginGeneration] at hrunning ⊢
    split
    next => exact Nat.le_refl _
    next h => simp [h, push, flush] at hrunning
  | false =>
    rw [(beginGeneration_running hrunning).1, Nat.sub_self]
    exact Nat.zero_le _

end PacketQueue

/-! ## All queues -/

namespace Demuxer

variable {queues : List StreamQueue}

/-- What the queues hold beyond one entry without payload each. -/
def excess (queues : List StreamQueue) : Nat :=
  (queues.map fun q => q.queue.size - QueueEntry.overhead).sum

theorem totalSize_cons (q : StreamQueue) (queues : List StreamQueue) :
    totalSize (q :: queues) = q.queue.size + totalSize queues :=
  rfl

theorem totalSize_append (front rest : List StreamQueue) :
    totalSize (front ++ rest) = totalSize front + totalSize rest := by
  induction front with
  | nil => exact (Nat.zero_add _).symm
  | cons q front ih => rw [List.cons_append, totalSize_cons, totalSize_cons, ih, Nat.add_assoc]

theorem excess_cons (q : StreamQueue) (queues : List StreamQueue) :
    excess (q :: queues) = (q.queue.size - QueueEntry.overhead) + excess queues :=
  List.sum_cons

theorem excess_append (front rest : List StreamQueue) : excess (front ++ rest) = excess front + excess rest := by
  simp [excess]

theorem totalSize_le_excess (queues : List StreamQueue) :
    totalSize queues ≤ excess queues + QueueEntry.overhead * queues.length := by
  induction queues with
  | nil => exact Nat.zero_le _
  | cons q queues ih =>
    rw [totalSize_cons, excess_cons, List.length_cons, Nat.mul_succ]
    omega

/-- Where there is something beyond one entry, there is that entry, too. -/
theorem excess_add_le (accurate : ∀ q ∈ queues, q.queue.Accurate) :
    excess queues + QueueEntry.overhead ≤ max QueueEntry.overhead (totalSize queues) := by
  induction queues with
  | nil => exact Nat.le_max_left _ _
  | cons q queues ih =>
    obtain ⟨hq, hqueues⟩ := List.forall_mem_cons.mp accurate
    -- an empty queue leaves it to the others, any other has that entry itself
    have hrest := ih hqueues
    rw [totalSize_cons, excess_cons]
    rcases hq.empty_or with hempty | hsome
    · omega
    · omega

/-- A change that takes from every queue at most takes from all together. -/
theorem onAll_adds {f : PacketQueue → PacketQueue} (takes : ∀ q : PacketQueue, q.Accurate → q.Adds 0 (f q))
    (accurate : ∀ q ∈ queues, q.queue.Accurate) :
    (∀ q ∈ onAll f queues, q.queue.Accurate) ∧ totalSize (onAll f queues) ≤ totalSize queues ∧
      excess (onAll f queues) ≤ excess queues ∧
      ((∀ q ∈ onAll f queues, q.queue.aborted = false) → ∀ q ∈ queues, q.queue.aborted = false) := by
  induction queues with
  | nil => exact ⟨nofun, Nat.le_refl _, Nat.le_refl _, fun _ => nofun⟩
  | cons q queues ih =>
    obtain ⟨hq, hqueues⟩ := List.forall_mem_cons.mp accurate
    obtain ⟨haccurate, htotal, hexcess, hrunning⟩ := ih hqueues
    obtain ⟨haccurate', hsize, hrunning'⟩ := takes q.queue hq
    have hcons : onAll f (q :: queues) = { q with queue := f q.queue } :: onAll f queues := rfl
    rw [hcons, totalSize_cons, totalSize_cons, excess_cons, excess_cons]
    refine ⟨List.forall_mem_cons.mpr ⟨haccurate', haccurate⟩, ?_, ?_, fun h => ?_⟩
    · exact Nat.add_le_add hsize htotal
    · show (f q.queue).size - QueueEntry.overhead + excess (onAll f queues) ≤ _
      omega
    · obtain ⟨hfirst, hothers⟩ := List.forall_mem_cons.mp h
      exact List.forall_mem_cons.mpr ⟨hrunning' hfirst, hrunning hothers⟩

/-- A change of one queue stands between what stays. -/
theorem onStream_split (kind : StreamKind) (f : PacketQueue → PacketQueue) (queues : List StreamQueue) :
    onStream kind f queues = queues ∨ ∃ front q rest, queues = front ++ q :: rest ∧
      onStream kind f queues = front ++ { q with queue := f q.queue } :: rest := by
  induction queues with
  | nil => exact .inl rfl
  | cons q queues ih =>
    unfold onStream
    split
    next => exact .inr ⟨[], q, queues, rfl, rfl⟩
    next =>
      rcases ih with hsame | ⟨front, q', rest, hqueues, hchanged⟩
      · exact .inl (by rw [hsame])
      · exact .inr ⟨q :: front, q', rest, by rw [hqueues]; rfl, by rw [hchanged]; rfl⟩

/-- Queues as a thread may have seen them, one after the other: since then entries may have been taken out. -/
def Saw (seen queues : List StreamQueue) : Prop :=
  List.Forall₂ (fun s q => s.queue.stream = q.queue.stream ∧ q.queue.size ≤ s.queue.size) seen queues

instance (seen queues : List StreamQueue) : Decidable (Saw seen queues) :=
  inferInstanceAs (Decidable (List.Forall₂ _ _ _))

theorem Saw.totalSize_le {seen : List StreamQueue} (h : Saw seen queues) : totalSize queues ≤ totalSize seen := by
  induction h with
  | nil => exact Nat.le_refl _
  | cons hq _ ih =>
    rw [totalSize_cons, totalSize_cons]
    omega

theorem Saw.refl (queues : List StreamQueue) : Saw queues queues :=
  List.forall₂_same.mpr fun _ _ => ⟨rfl, Nat.le_refl _⟩

/-- A demuxer that reads on does so within the limit. -/
theorem needsMore_within [Scalar R] {config : BufferConfig R} (finite : config.infinite = false)
    (more : needsMore config queues = true) : totalSize queues ≤ config.maxQueueBytes := by
  rw [needsMore, finite, Bool.false_or, Bool.and_eq_true, decide_eq_true_eq] at more
  exact more.1

end Demuxer

/-! ## The bound -/

/-- The queues that a seek under way has come to. -/
def Writing.renewed : Writing R → Nat
  | .sweep (.generation _) next => next
  | _ => 0

/-- The bytes that queues hold in the end of every step: the limit, and on top of it a packet of so many bytes or a
boundary in each of so many queues. -/
def byteBound (config : BufferConfig R) (payload streams : Nat) : Nat :=
  config.maxQueueBytes + max (QueueEntry.overhead + payload) (QueueEntry.overhead * streams)

/-- A change in the queues of a stream. -/
def changeIn (kind : StreamKind) (f : PacketQueue → PacketQueue) (queues : List StreamQueue) : List StreamQueue :=
  Demuxer.onAll (fun q => if q.stream = kind then f q else q) queues

namespace DemuxThread

/-- What is known while there is something left to write. -/
def Pending (config : BufferConfig R) (payload : Nat) (queues : List StreamQueue) : Writing R → Prop
  | .nothing => True
  | .packet p => Demuxer.totalSize queues ≤ config.maxQueueBytes ∧ p.size ≤ payload
  | .sweep .ends next =>
    next ≤ queues.length ∧ Demuxer.totalSize queues ≤ config.maxQueueBytes + QueueEntry.overhead * next
  | .sweep (.generation _) next => next ≤ queues.length

/-- The queues count their bytes. While none is aborted, those that a seek has come to have a boundary at most, and the
others are within the bound. In any case they keep one entry's room in what they hold beyond an entry each. -/
structure Contained (config : BufferConfig R) (payload streams : Nat) (t : DemuxThread R (Logged σ)) : Prop where
  fixed : t.demuxer.config = config
  count : t.queues.length = streams
  accurate : ∀ q ∈ t.queues, q.queue.Accurate
  within : (∀ q ∈ t.queues, q.queue.aborted = false) →
    Demuxer.totalSize (t.queues.take t.writing.renewed) ≤ QueueEntry.overhead * t.writing.renewed ∧
      Demuxer.totalSize (t.queues.drop t.writing.renewed) ≤ byteBound config payload streams
  spare : Demuxer.excess t.queues + QueueEntry.overhead ≤ byteBound config payload streams
  pending : Pending config payload t.queues t.writing

variable {config : BufferConfig R} {payload streams : Nat} {t t' : DemuxThread R (Logged σ)}

theorem overhead_le_byteBound (config : BufferConfig R) (payload streams : Nat) :
    QueueEntry.overhead ≤ byteBound config payload streams := by
  unfold byteBound
  omega

/-- Where no seek is under way, the bound is all there is to show. -/
theorem Contained.of_total (fixed : t.demuxer.config = config) (count : t.queues.length = streams)
    (accurate : ∀ q ∈ t.queues, q.queue.Accurate)
    (total : Demuxer.totalSize t.queues ≤ byteBound config payload streams) (still : t.writing.renewed = 0)
    (pending : Pending config payload t.queues t.writing) : t.Contained config payload streams := by
  have hexcess := Demuxer.excess_add_le accurate
  have hbound := overhead_le_byteBound config payload streams
  refine ⟨fixed, count, accurate, fun _ => ?_, by omega, pending⟩
  rw [still]
  exact ⟨Nat.zero_le _, total⟩

/-- The thread and others leave the queues alone. -/
theorem Contained.same (h : t.Contained config payload streams) (fixed : t'.demuxer.config = t.demuxer.config)
    (queues : t'.queues = t.queues) (writing : t'.writing = t.writing) : t'.Contained config payload streams := by
  obtain ⟨hfixed, hcount, haccurate, hwithin, hspare, hpending⟩ := h
  rw [← queues] at hcount haccurate hwithin hspare hpending
  rw [← writing] at hwithin hpending
  exact ⟨fixed.trans hfixed, hcount, haccurate, hwithin, hspare, hpending⟩

/-- Others take entries out, or abort a queue. -/
theorem Contained.takes (h : t.Contained config payload streams) (kind : StreamKind) {f : PacketQueue → PacketQueue}
    (takes : ∀ q : PacketQueue, q.Accurate → q.Adds 0 (f q)) :
    ({ t with queues := changeIn kind f t.queues } : DemuxThread R (Logged σ)).Contained config payload streams := by
  have htakes (q : PacketQueue) (hq : q.Accurate) : q.Adds 0 (if q.stream = kind then f q else q) := by
    split
    next => exact takes q hq
    next => exact ⟨hq, Nat.le_refl _, id⟩
  obtain ⟨haccurate, htotal, hexcess, hrunning⟩ := Demuxer.onAll_adds htakes h.accurate
  have hlength : (changeIn kind f t.queues).length = t.queues.length := List.length_map _
  refine ⟨h.fixed, hlength.trans h.count, haccurate, fun running => ?_, ?_, ?_⟩
  · obtain ⟨hfront, hrest⟩ := h.within (hrunning running)
    -- the queues that a seek has come to change on their own, and so do the others
    have hpart {part : List StreamQueue} (sub : part ⊆ t.queues) :
        Demuxer.totalSize (changeIn kind f part) ≤ Demuxer.totalSize part :=
      (Demuxer.onAll_adds htakes fun q hq => h.accurate q (sub hq)).2.1
    have htake := hpart (List.take_subset t.writing.renewed t.queues)
    have hdrop := hpart (List.drop_subset t.writing.renewed t.queues)
    unfold changeIn Demuxer.onAll at htake hdrop ⊢
    rw [List.map_take] at htake
    rw [List.map_drop] at hdrop
    exact ⟨Nat.le_trans htake hfront, Nat.le_trans hdrop hrest⟩
  · exact Nat.le_trans (Nat.add_le_add_right hexcess _) h.spare
  · have hpending := h.pending
    show Pending config payload (changeIn kind f t.queues) t.writing
    cases hwriting : t.writing with
    | nothing => trivial
    | packet p =>
      rw [hwriting] at hpending
      exact ⟨Nat.le_trans htotal hpending.1, hpending.2⟩
    | sweep s next =>
      rw [hwriting] at hpending
      cases s with
      | ends => exact ⟨hlength ▸ hpending.1, Nat.le_trans htotal hpending.2⟩
      | generation target => exact Nat.le_trans hpending (Nat.le_of_eq hlength.symm)

/-- A change in one queue that adds to it keeps the bound if all queues together did. -/
theorem Contained.adds (h : t.Contained config payload streams) {front rest : List StreamQueue} {q : StreamQueue}
    (split : t.queues = front ++ q :: rest) {bytes : Nat} {q' : PacketQueue} (change : q.queue.Adds bytes q')
    {writing : Writing R} (still : writing.renewed = 0)
    (total : Demuxer.totalSize t.queues + bytes ≤ byteBound config payload streams)
    (pending : Pending config payload (front ++ { q with queue := q' } :: rest) writing) :
    ({ t with queues := front ++ { q with queue := q' } :: rest, writing } : DemuxThread R (Logged σ)).Contained
      config payload streams := by
  have hcount := h.count
  have haccurate := h.accurate
  rw [split] at hcount haccurate total
  obtain ⟨hfront, hrest⟩ := List.forall_mem_append.mp haccurate
  refine .of_total h.fixed ?_ ?_ ?_ still pending
  · rw [← hcount, List.length_append, List.length_append]
    rfl
  · exact List.forall_mem_append.mpr
      ⟨hfront, List.forall_mem_cons.mpr ⟨change.accurate, (List.forall_mem_cons.mp hrest).2⟩⟩
  · have hsize := change.size
    rw [Demuxer.totalSize_append, Demuxer.totalSize_cons] at total ⊢
    show Demuxer.totalSize front + (q'.size + Demuxer.totalSize rest) ≤ _
    omega

/-- The end is marked in the next queue. -/
theorem Contained.marks (h : t.Contained config payload streams) {front rest : List StreamQueue} {q : StreamQueue}
    (split : t.queues = front ++ q :: rest) (writing : t.writing = .sweep .ends front.length) :
    ({ t with
      queues := front ++ { q with queue := q.queue.putEndOfStream.2 } :: rest
      writing := .sweep .ends (front.length + 1) } : DemuxThread R (Logged σ)).Contained config payload streams := by
  have hcount := h.count
  have hpending := h.pending
  rw [split, List.length_append, List.length_cons] at hcount
  rw [writing] at hpending
  obtain ⟨-, htotal⟩ := hpending
  have hadds : q.queue.Adds QueueEntry.overhead q.queue.putEndOfStream.2 :=
    (h.accurate q (split ▸ List.mem_append_right _ (List.mem_cons_self ..))).putItem_adds .endOfStream
  have hroom : Demuxer.totalSize t.queues + QueueEntry.overhead
      ≤ config.maxQueueBytes + QueueEntry.overhead * (front.length + 1) := by
    rw [Nat.mul_succ]
    omega
  have hbound : QueueEntry.overhead * (front.length + 1) ≤ QueueEntry.overhead * streams :=
    Nat.mul_le_mul_left _ (by omega)
  refine h.adds split hadds rfl ?_ ⟨?_, ?_⟩
  · unfold byteBound
    omega
  · rw [List.length_append, List.length_cons]
    omega
  · have hsize := hadds.size
    rw [split, Demuxer.totalSize_append, Demuxer.totalSize_cons] at hroom
    rw [Demuxer.totalSize_append, Demuxer.totalSize_cons]
    show _ + (q.queue.putEndOfStream.2.size + _) ≤ _
    omega

/-- A seek comes to the next queue. -/
theorem Contained.renews (h : t.Contained config payload streams) {target : R} {front rest : List StreamQueue}
    {q : StreamQueue} (split : t.queues = front ++ q :: rest)
    (writing : t.writing = .sweep (.generation target) front.length) :
    ({ t with
      queues := front ++ { q with queue := q.queue.beginGeneration.2 } :: rest
      writing := .sweep (.generation target) (front.length + 1) } : DemuxThread R (Logged σ)).Contained
      config payload streams := by
  obtain ⟨hfixed, hcount, haccurate, hwithin, hspare, -⟩ := h
  rw [writing, split] at hwithin
  rw [split] at hcount haccurate hspare
  dsimp only [Writing.renewed] at hwithin
  rw [List.take_left, List.drop_left] at hwithin
  obtain ⟨hfront, hothers⟩ := List.forall_mem_append.mp haccurate
  obtain ⟨hq, hrest⟩ := List.forall_mem_cons.mp hothers
  refine ⟨hfixed, ?_, ?_, fun running => ?_, ?_, ?_⟩
  · rw [← hcount, List.length_append, List.length_append]
    rfl
  · exact List.forall_mem_append.mpr ⟨hfront, List.forall_mem_cons.mpr ⟨hq.beginGeneration, hrest⟩⟩
  · obtain ⟨hfront', hothers'⟩ := List.forall_mem_append.mp running
    obtain ⟨hq', hrest'⟩ := List.forall_mem_cons.mp hothers'
    obtain ⟨hsize, hran⟩ := PacketQueue.beginGeneration_running hq'
    obtain ⟨htaken, hleft⟩ := hwithin
      (List.forall_mem_append.mpr ⟨hfront', List.forall_mem_cons.mpr ⟨hran, hrest'⟩⟩)
    have hsplit : front ++ { q with queue := q.queue.beginGeneration.2 } :: rest
        = (front ++ [{ q with queue := q.queue.beginGeneration.2 }]) ++ rest := by simp
    have hlength : front.length + 1 = (front ++ [{ q with queue := q.queue.beginGeneration.2 }]).length := by simp
    dsimp only [Writing.renewed]
    rw [hsplit, hlength, List.take_left, List.drop_left, ← hlength, Demuxer.totalSize_append, Demuxer.totalSize_cons,
      Nat.mul_succ]
    rw [Demuxer.totalSize_cons] at hleft
    show Demuxer.totalSize front + (q.queue.beginGeneration.2.size + 0) ≤ _ ∧ _
    omega
  · rw [Demuxer.excess_append, Demuxer.excess_cons] at hspare ⊢
    have hexcess := q.queue.beginGeneration_excess
    show Demuxer.excess front + (q.queue.beginGeneration.2.size - QueueEntry.overhead + Demuxer.excess rest) + _ ≤ _
    omega
  · show front.length + 1 ≤ (front ++ { q with queue := q.queue.beginGeneration.2 } :: rest).length
    rw [List.length_append, List.length_cons]
    omega

/-- Nothing is left to do, and no seek under way. -/
theorem Contained.done (h : t.Contained config payload streams)
    (total : (∀ q ∈ t.queues, q.queue.aborted = false) →
      Demuxer.totalSize t.queues ≤ byteBound config payload streams)
    (fixed : t'.demuxer.config = t.demuxer.config) (queues : t'.queues = t.queues) (done : t'.writing = .nothing) :
    t'.Contained config payload streams := by
  obtain ⟨hfixed, hcount, haccurate, -, hspare, -⟩ := h
  rw [← queues] at hcount haccurate hspare total
  refine ⟨fixed.trans hfixed, hcount, haccurate, fun running => ?_, hspare, by rw [done]; trivial⟩
  rw [done]
  exact ⟨Nat.zero_le _, total running⟩

variable [Scalar R]

/-- The thread has come to all queues. -/
theorem Contained.finish (h : t.Contained config payload streams) {s : Sweep R} {next : Nat}
    (writing : t.writing = .sweep s next) (last : t.queues.length ≤ next) (now : Nat) :
    (t.finish now s).Contained config payload streams := by
  have hcount := h.count
  have hpending := h.pending
  rw [writing] at hpending
  cases s with
  | ends =>
    obtain ⟨hnext, htotal⟩ := hpending
    have hbound : QueueEntry.overhead * next ≤ QueueEntry.overhead * streams := Nat.mul_le_mul_left _ (by omega)
    refine h.done (fun _ => ?_) rfl rfl rfl
    unfold byteBound
    omega
  | generation target =>
    refine h.done (fun running => ?_) rfl rfl rfl
    -- every queue is one that the seek has come to
    obtain ⟨htaken, -⟩ := h.within running
    rw [writing] at htaken
    dsimp only [Writing.renewed] at htaken
    rw [Nat.le_antisymm hpending last, List.take_length, hcount] at htaken
    unfold byteBound
    omega

theorem Contained.write (h : t.Contained config payload streams) (now : Nat) :
    (t.write now).Contained config payload streams := by
  unfold DemuxThread.write
  cases hwriting : t.writing with
  | nothing => exact h
  | packet p =>
    have hpending := h.pending
    rw [hwriting] at hpending
    obtain ⟨htotal, hsize⟩ := hpending
    have hbound : Demuxer.totalSize t.queues + (QueueEntry.overhead + p.size) ≤ byteBound config payload streams := by
      unfold byteBound
      omega
    dsimp only
    rcases Demuxer.onStream_split p.stream (fun q => (q.put p).2) t.queues with hsame | ⟨front, q, rest, hsplit, hput⟩
    · -- no queue takes the packet
      rw [hsame]
      exact h.done (fun _ => by omega) rfl rfl rfl
    · rw [hput]
      have hq := h.accurate q (hsplit ▸ List.mem_append_right _ (List.mem_cons_self ..))
      exact h.adds hsplit (hq.putItem_adds (.packet p)) rfl hbound trivial
  | sweep s next =>
    dsimp only
    split
    next hnext =>
      have hsplit : t.queues = t.queues.take next ++ t.queues[next] :: t.queues.drop (next + 1) := by
        rw [List.getElem_cons_drop, List.take_append_drop]
      have hlength : (t.queues.take next).length = next := List.length_take_of_le (Nat.le_of_lt hnext)
      have hnow : t.writing = .sweep s (t.queues.take next).length := by rw [hwriting, hlength]
      rw [List.modify_eq_take_cons_drop hnext]
      cases s with
      | ends =>
        have hmarks := h.marks hsplit hnow
        rwa [hlength] at hmarks
      | generation target =>
        have hrenews := h.renews hsplit hnow
        rwa [hlength] at hrenews
    next hlast => exact h.finish hwriting (Nat.le_of_not_lt hlast) now

/-- A thread that begins to write what joins a generation saw the queues within the limit. -/
theorem Contained.begin [Source σ R] (h : t.Contained config payload streams) (finite : config.infinite = false)
    (done : t.writing = .nothing) {seen : List StreamQueue} (saw : Demuxer.Saw seen t.queues) (now : Nat)
    (small : ∀ p ∈ (t.begin seen now).demuxer.source.packets, p.size ≤ payload) :
    (t.begin seen now).Contained config payload streams := by
  obtain ⟨hconfig, -, hbegun⟩ := t.demuxer.beginStep_begins seen now
  have hwithin (more : Demuxer.needsMore t.demuxer.config seen = true) :
      Demuxer.totalSize t.queues ≤ config.maxQueueBytes :=
    Nat.le_trans saw.totalSize_le (h.fixed ▸ Demuxer.needsMore_within (h.fixed ▸ finite) more)
  have hstill := h.within
  rw [done] at hstill
  unfold DemuxThread.begin at small ⊢
  generalize t.demuxer.beginStep seen now = r at hconfig hbegun small ⊢
  obtain ⟨demuxer, writing⟩ := r
  have hfixed : demuxer.config = config := hconfig.trans h.fixed
  cases hbegun with
  | nothing => exact ⟨hfixed, h.count, h.accurate, hstill, h.spare, trivial⟩
  | packet p more given => exact ⟨hfixed, h.count, h.accurate, hstill, h.spare, hwithin more, small p given⟩
  | ends more => exact ⟨hfixed, h.count, h.accurate, hstill, h.spare, Nat.zero_le _, hwithin more⟩
  | generation target => exact ⟨hfixed, h.count, h.accurate, hstill, h.spare, Nat.zero_le _⟩

end DemuxThread

/-! ## Runs -/

/-- What happens to a demuxer and its queues. -/
inductive BufferAct (R : Type) where
  | start (now : Nat)
  /-- A decoder found its queue empty. -/
  | notify (now : Nat)
  /-- The end of such a wake-up, whatever has happened since the mark of the end was looked at. -/
  | wake (now : Nat)
  | requestSeek (now : Nat) (position : R)
  /-- A reader looks into the queue of a stream. -/
  | look (kind : StreamKind) (notified : Bool)
  /-- The queue of a stream is aborted. -/
  | abort (kind : StreamKind)
  /-- The thread begins a step, if it is done with the last one. -/
  | begin (now : Nat) (seen : List StreamQueue)
  /-- The thread goes on with its step, in the next queue. -/
  | write (now : Nat)
  | stop

namespace DemuxThread

variable [Scalar R]

/-- A new demuxer, with started queues for these streams. -/
def new (source : σ) (config : BufferConfig R) (clock : MediaClock R) (streams : List (StreamKind × Ratio)) :
    DemuxThread R σ where
  demuxer := .new source config
  queues := streams.map fun (kind, timeBase) => ⟨(PacketQueue.new kind).start, timeBase⟩
  clock
  writing := .nothing

omit [Scalar R] in
theorem new_contained (source : Logged σ) (config : BufferConfig R) (clock : MediaClock R)
    (kinds : List (StreamKind × Ratio)) (payload : Nat) :
    (new source config clock kinds).Contained config payload kinds.length := by
  have hcount : (new source config clock kinds).queues.length = kinds.length := List.length_map _
  have hstarted : ∀ q ∈ (new source config clock kinds).queues,
      q.queue.Accurate ∧ q.queue.size = QueueEntry.overhead := by
    intro q hq
    obtain ⟨⟨kind, timeBase⟩, -, rfl⟩ := List.mem_map.mp hq
    exact ⟨(PacketQueue.new_accurate kind).apply .start, rfl⟩
  have htotal : Demuxer.totalSize (new source config clock kinds).queues ≤ QueueEntry.overhead * kinds.length := by
    have hsum := Demuxer.totalSize_le_excess (new source config clock kinds).queues
    have hexcess : Demuxer.excess (new source config clock kinds).queues = 0 := by
      rw [Demuxer.excess, List.sum_eq_zero]
      intro x hx
      obtain ⟨q, hq, rfl⟩ := List.mem_map.mp hx
      rw [(hstarted q hq).2, Nat.sub_self]
    rwa [hexcess, Nat.zero_add, hcount] at hsum
  refine .of_total rfl hcount (fun q hq => (hstarted q hq).1) ?_ rfl trivial
  unfold byteBound
  omega

theorem write_packets (t : DemuxThread R (Logged σ)) (now : Nat) :
    (t.write now).demuxer.source = t.demuxer.source := by
  unfold write
  split
  next => rfl
  next => rfl
  next s _ _ =>
    split
    next => rfl
    next => cases s <;> rfl

variable [Source σ R]

def act (t : DemuxThread R σ) : BufferAct R → DemuxThread R σ
  | .start now => { t with demuxer := t.demuxer.start now }
  | .notify now => { t with demuxer := t.demuxer.notify now }
  | .wake now => { t with demuxer := t.demuxer.postRead now 0 }
  | .requestSeek now position => { t with demuxer := t.demuxer.requestSeek now position }
  | .look kind notified => { t with queues := changeIn kind (fun q => (q.look notified).2) t.queues }
  | .abort kind => { t with queues := changeIn kind PacketQueue.abort t.queues }
  | .begin now seen =>
    match t.writing with
    | .nothing => if Demuxer.Saw seen t.queues then t.begin seen now else t
    | _ => t
  | .write now => t.write now
  | .stop => { t with demuxer := t.demuxer.stop }

def acts (t : DemuxThread R σ) (as : List (BufferAct R)) : DemuxThread R σ :=
  as.foldl act t

/-- The same acts, the thread seeing the queues as it finds them when it begins a step. -/
def seeing (t : DemuxThread R σ) : List (BufferAct R) → List (BufferAct R)
  | [] => []
  | .begin now _ :: as => .begin now t.queues :: (t.act (.begin now t.queues)).seeing as
  | a :: as => a :: (t.act a).seeing as

theorem acts_write (t : DemuxThread R σ) (now count : Nat) :
    t.acts (List.replicate count (.write now)) = t.writes now count := by
  induction count generalizing t with
  | zero => rfl
  | succ count ih => exact ih (t.write now)

/-- A step that nobody comes in between of is that of `Demuxer.step`. -/
theorem acts_step {t : DemuxThread R σ} (done : t.writing = .nothing) (now : Nat) :
    t.acts (.begin now t.queues :: List.replicate (t.queues.length + 1) (.write now))
      = (t.demuxer.step t.queues t.clock now).thread := by
  have hbegin : t.act (.begin now t.queues) = t.begin t.queues now := by
    simp only [act, done, if_pos (Demuxer.Saw.refl t.queues)]
  show (t.act (.begin now t.queues)).acts _ = _
  rw [hbegin, acts_write, begin_writes]

variable {config : BufferConfig R} {payload streams : Nat} {t : DemuxThread R (Logged σ)}

theorem act_contained (h : t.Contained config payload streams) (finite : config.infinite = false) (a : BufferAct R)
    (small : ∀ p ∈ (t.act a).demuxer.source.packets, p.size ≤ payload) :
    (t.act a).Contained config payload streams := by
  cases a with
  | start | wake | requestSeek | stop => exact h.same rfl rfl rfl
  | notify now =>
    obtain ⟨loop, hnotify⟩ := t.demuxer.notify_eq now
    have hconfig : (t.demuxer.notify now).config = t.demuxer.config := by rw [hnotify]
    exact h.same hconfig rfl rfl
  | look kind notified => exact h.takes kind fun q hq => hq.look_adds notified
  | abort kind => exact h.takes kind fun q hq => hq.abort_adds
  | begin now seen =>
    simp only [act] at small ⊢
    split
    next hdone =>
      rw [hdone] at small
      dsimp only at small
      split
      next hsaw => exact h.begin finite hdone hsaw now (by rwa [if_pos hsaw] at small)
      next => exact h
    next => exact h
  | write now => exact h.write now

theorem act_packets (t : DemuxThread R (Logged σ)) (a : BufferAct R) :
    t.demuxer.source.packets ⊆ (t.act a).demuxer.source.packets := by
  cases a with
  | start | wake | requestSeek | stop | look | abort => exact List.Subset.refl _
  | notify now =>
    obtain ⟨loop, hnotify⟩ := t.demuxer.notify_eq now
    show t.demuxer.source.packets ⊆ (t.demuxer.notify now).source.packets
    rw [hnotify]
    exact List.Subset.refl _
  | begin now seen =>
    simp only [act]
    split
    next =>
      split
      next => exact (t.demuxer.beginStep_begins seen now).packets
      next => exact List.Subset.refl _
    next => exact List.Subset.refl _
  | write now =>
    show t.demuxer.source.packets ⊆ (t.write now).demuxer.source.packets
    rw [write_packets]
    exact List.Subset.refl _

theorem acts_contained (source : Logged σ) {config : BufferConfig R} (finite : config.infinite = false)
    (clock : MediaClock R) (kinds : List (StreamKind × Ratio)) (payload : Nat) (as : List (BufferAct R))
    (small : ∀ p ∈ ((new source config clock kinds).acts as).demuxer.source.packets, p.size ≤ payload) :
    ((new source config clock kinds).acts as).Contained config payload kinds.length := by
  -- from the end, because what the source gave so far is part of what it gives in the end
  induction as using List.reverseRecOn with
  | nil => exact new_contained source config clock kinds payload
  | append_singleton as a ih =>
    rw [acts, List.foldl_concat] at small ⊢
    exact act_contained (ih fun p hp => small p (act_packets _ a hp)) finite a small

end DemuxThread

/-- **The queues hold a bounded number of bytes.** Let the looks and writes of the thread, wake-ups, seeks, readers and
the abortion of queues follow each other in any way. While no queue is aborted, the queues that a seek under way has
come to have a boundary each at most, and the others together are within the limit, and a packet or a mark for each
stream on top; so, unless a seek has come to some queues and not to the others, that is the bound for all of them. In
any case there is a boundary more for every queue but one at most.

What the queues count is what their entries take. A step that nobody comes in between of is that of `Demuxer.step`, and
the account of the source changes nothing. -/
theorem buffers_are_bounded [Scalar R] [Source σ R] (source : σ) (config : BufferConfig R)
    (finite : config.infinite = false) (clock : MediaClock R) (kinds : List (StreamKind × Ratio)) (payload : Nat)
    (as : List (BufferAct R)) :
    let t := (DemuxThread.new (⟨source, [], []⟩ : Logged σ) config clock kinds).acts as
    let bound := config.maxQueueBytes + max (QueueEntry.overhead + payload) (QueueEntry.overhead * kinds.length)
    (∀ p ∈ t.demuxer.source.packets, p.size ≤ payload) →
    ((∀ q ∈ t.queues, q.queue.aborted = false) →
      Demuxer.totalSize (t.queues.take t.writing.renewed) ≤ QueueEntry.overhead * t.writing.renewed ∧
      Demuxer.totalSize (t.queues.drop t.writing.renewed) ≤ bound ∧
      (t.writing.renewed = 0 ∨ t.writing.renewed = kinds.length → Demuxer.totalSize t.queues ≤ bound)) ∧
    Demuxer.totalSize t.queues ≤ bound + QueueEntry.overhead * (kinds.length - 1) ∧
    (∀ q ∈ t.queues, q.queue.size = (q.queue.entries.map QueueEntry.size).sum) ∧
    (t.writing = .nothing → ∀ now,
      t.acts (.begin now t.queues :: List.replicate (t.queues.length + 1) (.write now))
        = (t.demuxer.step t.queues t.clock now).thread) ∧
    ∀ now, t.demuxer.plain.step t.queues t.clock now = (t.demuxer.step t.queues t.clock now).plain := by
  intro t bound small
  have h : t.Contained config payload kinds.length :=
    DemuxThread.acts_contained ⟨source, [], []⟩ finite clock kinds payload as small
  refine ⟨fun running => ?_, ?_, fun q hq => (h.accurate q hq).size, fun done now => t.acts_step done now,
    fun now => t.demuxer.step_plain ..⟩
  · obtain ⟨htaken, hleft⟩ := h.within running
    refine ⟨htaken, hleft, fun whole => ?_⟩
    rcases whole with hnone | hall
    · rwa [hnone] at hleft
    · rw [hall, ← h.count, List.take_length, h.count] at htaken
      omega
  · -- one entry of each queue stands beside the excess, for one of which the bound has room
    have htotal := Demuxer.totalSize_le_excess t.queues
    have hspare := h.spare
    rw [h.count] at htotal
    change _ ≤ bound at hspare
    cases hstreams : kinds.length with
    | zero =>
      rw [hstreams] at htotal
      omega
    | succ others =>
      rw [hstreams, Nat.mul_succ] at htotal
      rw [Nat.add_sub_cancel]
      omega

/-! Two packets for one of two queues, whose boundaries just keep within the limit. The boundary of the other queue is
taken out, so that both packets come in, the second of them on top of the limit: nothing for video, 364 bytes for audio.
Then there comes a seek, which comes to the video queue first. -/

def twoForAudio : ScriptedSource Exact where
  packets := #[packetAtStart .audio, { packetAtStart .audio with data := List.replicate 100 0 }]
  info := .unknown
  audio := none
  video := none
  seekable := true
  failAt := none
  seekError := none
  gaps := []
  next := 0
  seeks := []

def tight : BufferConfig Exact :=
  { BufferConfig.default with maxQueueBytes := 176 }

def videoAndAudio : List (StreamKind × Ratio) :=
  [(.video, ⟨1, 1000⟩), (.audio, ⟨1, 1000⟩)]

def forAudio : DemuxThread Exact (Logged (ScriptedSource Exact)) :=
  .new ⟨twoForAudio, [], []⟩ tight (.new .audioMaster id 0.0) videoAndAudio

/-- Both packets are read, and a seek is due. -/
def seekDue : List (BufferAct Exact) :=
  [.start 0, .look .video false, .begin 0 [], .begin 0 [], .write 0, .begin 0 [], .write 0, .begin 0 [],
    .requestSeek 0 0.0]

/-- A seek has come to the first queue. -/
def halfSought : List (BufferAct Exact) :=
  forAudio.seeing (seekDue ++ [.begin 0 [], .write 0])

/-- A seek has passed over the second queue. -/
def passedOver : List (BufferAct Exact) :=
  forAudio.seeing (seekDue ++ [.abort .audio, .begin 0 [], .write 0, .write 0, .write 0])

/-- While a seek is under way, and for good where it passes over an aborted queue, there is a boundary more. -/
theorem bound_exceeded_in_seek :
    let bound := tight.maxQueueBytes + max (QueueEntry.overhead + 100) (QueueEntry.overhead * videoAndAudio.length)
    let t := forAudio.acts halfSought
    let u := forAudio.acts passedOver
    (∀ p ∈ t.demuxer.source.packets ++ u.demuxer.source.packets, p.size ≤ 100) ∧
    (∀ q ∈ t.queues, q.queue.aborted = false) ∧ ¬ Demuxer.totalSize t.queues ≤ bound ∧
    u.writing = .nothing ∧ ¬ Demuxer.totalSize u.queues ≤ bound := by
  decide +kernel

/-- Half way through the seek the video queue has its boundary, and the audio queue is within the bound. -/
theorem bounded_half_sought :
    let t := forAudio.acts halfSought
    (∀ p ∈ t.demuxer.source.packets, p.size ≤ 100) ∧ (∀ q ∈ t.queues, q.queue.aborted = false) ∧
    Demuxer.totalSize (t.queues.take 1) ≤ 88 ∧ Demuxer.totalSize (t.queues.drop 1) ≤ 364 ∧
    Demuxer.totalSize t.queues ≤ 452 := by
  have hsmall : ∀ p ∈ (forAudio.acts halfSought).demuxer.source.packets, p.size ≤ 100 := by decide +kernel
  have hrunning : ∀ q ∈ (forAudio.acts halfSought).queues, q.queue.aborted = false := by decide +kernel
  have hrenewed : (forAudio.acts halfSought).writing.renewed = 1 := by decide +kernel
  obtain ⟨hwithin, htotal, -⟩ :=
    buffers_are_bounded twoForAudio tight rfl (.new .audioMaster id 0.0) videoAndAudio 100 halfSought hsmall
  obtain ⟨htaken, hleft, -⟩ := hwithin hrunning
  change Demuxer.totalSize ((forAudio.acts halfSought).queues.take (forAudio.acts halfSought).writing.renewed) ≤ _
    at htaken
  change Demuxer.totalSize ((forAudio.acts halfSought).queues.drop (forAudio.acts halfSought).writing.renewed) ≤ _
    at hleft
  rw [hrenewed] at htaken hleft
  exact ⟨hsmall, hrunning, htaken, hleft, htotal⟩

end Playback
