import Mathlib.Algebra.GroupWithZero.Nat
import Mathlib.Algebra.Ring.Int.Defs
import Playback.PacketQueue.Take

/-!
# The accounts of a packet queue

A queue counts bytes and ticks beside its entries: both grow with what is put in, shrink with what is taken out,
and are set to zero when the queue is emptied. They never drift (`accounts_kept`):

> the bytes are those of the entries, so that none are taken off that are not there; the ticks are those of the
> entries, as a 64-bit number; and a write is refused exactly while the queue is aborted, and then changes nothing.

Entries of several generations may be in the queue at once, and durations may be negative; neither matters.
Readers that wait take their steps between the operations (`QueueMove`).
-/

namespace Playback

/-! ## The counters -/

/-- The bytes that entries count for. -/
def bytesOf (es : List QueueEntry) : Nat :=
  (es.map QueueEntry.size).sum

/-- The ticks of the packets among entries. -/
def ticksOf (es : List QueueEntry) : Int :=
  (es.map (·.item.duration)).sum

/-- What fits a 64-bit number does not wrap around. -/
theorem wrap64_of_fits {i : Int} (low : -0x8000000000000000 ≤ i) (high : i < 0x8000000000000000) : wrap64 i = i :=
  Int.bmod_eq_of_le (by omega) (by omega)

namespace PacketQueue

variable {q : PacketQueue}

/-- The counters are those of the entries. -/
structure Accurate (q : PacketQueue) : Prop where
  size : q.size = bytesOf q.entries
  duration : q.duration = wrap64 (ticksOf q.entries)

theorem new_accurate (stream : StreamKind) : (new stream).Accurate :=
  ⟨rfl, rfl⟩

theorem push_size (h : q.size = bytesOf q.entries) (item : QueueItem) :
    (q.push item).size = bytesOf (q.push item).entries := by
  show q.size + (item.payload + QueueEntry.overhead) = _
  simp [push, bytesOf, h, QueueEntry.size]

theorem pop_size (h : q.size = bytesOf q.entries) : q.pop.2.size = bytesOf q.pop.2.entries := by
  unfold pop
  split
  next => exact h
  next e rest hentries =>
    show q.size - e.size = bytesOf rest
    rw [h, hentries, bytesOf, List.map_cons, List.sum_cons, Nat.add_sub_cancel_left]
    rfl

theorem Accurate.push (h : q.Accurate) (item : QueueItem) : (q.push item).Accurate where
  size := push_size h.size item
  duration := by
    show wrap64 (q.duration + item.duration) = _
    simp [PacketQueue.push, ticksOf, h.duration, wrap64, Int.bmod_add_bmod]

theorem Accurate.pop (h : q.Accurate) : q.pop.2.Accurate := by
  refine ⟨pop_size h.size, ?_⟩
  unfold PacketQueue.pop
  split
  next => exact h.duration
  next e rest hentries =>
    show wrap64 (q.duration - e.item.duration) = wrap64 (ticksOf rest)
    have hticks : ticksOf q.entries = e.item.duration + ticksOf rest := by rw [hentries]; rfl
    rw [h.duration, hticks, wrap64, wrap64, wrap64, Int.bmod_sub_bmod,
      show e.item.duration + ticksOf rest - e.item.duration = ticksOf rest from by omega]

theorem flush_accurate (q : PacketQueue) : q.flush.Accurate :=
  ⟨rfl, rfl⟩

theorem Accurate.look (h : q.Accurate) (notified : Bool) : (q.look notified).2.Accurate := by
  have hpop := h.pop
  unfold PacketQueue.look
  split
  next => exact h
  next =>
    split
    next heq => rwa [heq] at hpop
    next heq => rwa [heq] at hpop

theorem Accurate.take (h : q.Accurate) : q.take.2.Accurate := by
  have hlook := h.look false
  unfold PacketQueue.take
  split
  next heq => rwa [heq] at hlook
  next heq => rwa [heq] at hlook
  next heq => rwa [heq] at hlook

theorem Accurate.putItem (h : q.Accurate) (item : QueueItem) : (q.putItem item).2.Accurate := by
  unfold PacketQueue.putItem
  split
  next => exact h
  next => exact h.push item

theorem Accurate.beginGeneration (h : q.Accurate) : q.beginGeneration.2.Accurate := by
  unfold PacketQueue.beginGeneration
  split
  next => exact h
  next => exact q.flush_accurate.push .boundary

theorem Accurate.apply (h : q.Accurate) (op : QueueOp) : (q.apply op).2.Accurate := by
  cases op with
  | start => exact Accurate.push (q := { q with aborted := false }) ⟨h.size, h.duration⟩ .boundary
  | put p => exact h.putItem (.packet p)
  | putBoundary => exact h.putItem .boundary
  | putEndOfStream => exact h.putItem .endOfStream
  | beginGeneration => exact h.beginGeneration
  | flush => exact q.flush_accurate
  | abort | signal => exact ⟨h.size, h.duration⟩
  | take => exact h.take

theorem Accurate.step (h : q.Accurate) (reader : Reader) : (reader.step q).2.Accurate := by
  cases reader with
  | asleep since => exact h
  | looking notified =>
    have hlook := h.look notified
    unfold Reader.step
    dsimp only
    split <;> next heq => rwa [heq] at hlook

end PacketQueue

/-! ## Refused writes -/

/-- Whether an operation writes only while the queue is not aborted. -/
def QueueOp.isWrite : QueueOp → Bool
  | .put _ | .putBoundary | .putEndOfStream | .beginGeneration => true
  | .start | .flush | .abort | .signal | .take => false

/-- Whether the answer says that nothing was written. -/
def QueueAnswer.refuses : QueueAnswer → Bool
  | .accepted yes => !yes
  | .generation serial => serial.isNone
  | _ => false

namespace PacketQueue

variable {q : PacketQueue} {op : QueueOp}

theorem apply_aborted (aborted : q.aborted = true) (write : op.isWrite = true) :
    (q.apply op).1.refuses = true ∧ (q.apply op).2 = q := by
  cases op with
  | put | putBoundary | putEndOfStream | beginGeneration =>
    simp [apply, put, putBoundary, putEndOfStream, putItem, beginGeneration, aborted, QueueAnswer.refuses]
  | start | flush | abort | signal | take => cases write

theorem apply_running (running : q.aborted = false) (write : op.isWrite = true) :
    (q.apply op).1.refuses = false := by
  cases op with
  | put | putBoundary | putEndOfStream | beginGeneration =>
    simp [apply, put, putBoundary, putEndOfStream, putItem, beginGeneration, running, QueueAnswer.refuses]
  | start | flush | abort | signal | take => cases write

end PacketQueue

/-! ## Histories -/

/-- What those who use a queue do to it: an operation, or a step of a reader that waits. -/
inductive QueueMove where
  | op (op : QueueOp)
  | step (reader : Reader)

def PacketQueue.move (q : PacketQueue) : QueueMove → PacketQueue
  | .op op => (q.apply op).2
  | .step reader => (reader.step q).2

/-- **Accounts and refused writes.** At any time the bytes of a queue are those of its entries, payload and
overhead, and are enough for the first entry to be taken off. The ticks are the sum of the durations of its
packets, if that is a 64-bit number. A write is refused exactly if the queue is aborted, and then the queue
stays as it is. -/
theorem accounts_kept (stream : StreamKind) (moves : List QueueMove) :
    let q := moves.foldl PacketQueue.move (.new stream)
    q.size = (q.entries.map fun e => e.item.payload + 88).sum ∧
    (-0x8000000000000000 ≤ ticksOf q.entries → ticksOf q.entries < 0x8000000000000000 →
      q.duration = ticksOf q.entries) ∧
    (∀ e ∈ q.entries.head?, e.size ≤ q.size) ∧
    (∀ op : QueueOp, op.isWrite = true → ((q.apply op).1.refuses = true ↔ q.aborted = true)) ∧
    (q.aborted = true → ∀ op : QueueOp, op.isWrite = true → (q.apply op).2 = q) := by
  intro q
  have hq : q.Accurate := by
    refine List.foldlRecOn moves PacketQueue.move (PacketQueue.new_accurate stream) fun q h move _ => ?_
    cases move with
    | op op => exact h.apply op
    | step reader => exact h.step reader
  refine ⟨hq.size, fun low high => ?_, fun e he => ?_, fun op write => ?_, fun aborted op write => ?_⟩
  · rw [hq.duration]
    exact wrap64_of_fits low high
  · obtain ⟨rest, hentries⟩ := List.head?_eq_some_iff.mp he
    rw [hq.size, hentries, bytesOf, List.map_cons, List.sum_cons]
    exact Nat.le_add_right _ _
  · cases haborted : q.aborted with
    | true => simp [(PacketQueue.apply_aborted haborted write).1]
    | false => simp [PacketQueue.apply_running haborted write]
  · exact (PacketQueue.apply_aborted aborted write).2

end Playback
