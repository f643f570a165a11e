import Mathlib.Data.List.Basic
import Playback.Schedule.Loop

/-!
# What waits in a message queue

A queue is `Ordered` if its messages stand in the order in which they are to be taken and every new message
gets a place after all of them. Every operation keeps that. So a selection of the messages, given by a
function `f` to an option, changes in the simplest way when a message is put in: a message that is not
selected changes nothing (`insert_filterMap_none`), and one that is due no earlier than the selected ones
comes after them (`insert_filterMap_last`).
-/

namespace Playback

variable {α β : Type}

theorem Message.before_iff {a b : Message α} :
    a.before b = true ↔ a.due < b.due ∨ (a.due = b.due ∧ a.order < b.order) := by
  simp [before]

theorem Message.before_trans {a b c : Message α} (hab : a.before b = true) (hbc : b.before c = true) :
    a.before c = true := by
  rw [before_iff] at *
  omega

/-- Of two messages with different places one comes first. -/
theorem Message.before_of_not {a b : Message α} (hne : a.order ≠ b.order) (h : ¬ a.before b = true) :
    b.before a = true := by
  rw [before_iff] at *
  omega

namespace MessageQueue

theorem mem_insert {m x : Message α} {l : List (Message α)} : x ∈ insert m l ↔ x = m ∨ x ∈ l := by
  induction l with
  | nil => simp [insert]
  | cons first rest ih =>
    unfold insert
    split
    next => simp
    next => simp [ih, or_left_comm]

theorem insert_perm (m : Message α) (l : List (Message α)) : (insert m l).Perm (m :: l) := by
  induction l with
  | nil => exact .refl _
  | cons first rest ih =>
    unfold insert
    split
    next => exact .refl _
    next => exact (ih.cons first).trans (.swap m first rest)

theorem insert_pairwise {m : Message α} {l : List (Message α)}
    (hl : l.Pairwise fun a b => a.before b = true) (hne : ∀ x ∈ l, m.order ≠ x.order) :
    (insert m l).Pairwise fun a b => a.before b = true := by
  induction l with
  | nil => simp [insert]
  | cons first rest ih =>
    obtain ⟨hfirst, hrest⟩ := List.pairwise_cons.mp hl
    unfold insert
    split
    next hbefore =>
      refine List.pairwise_cons.mpr ⟨fun x hx => ?_, hl⟩
      rcases List.mem_cons.mp hx with rfl | hx
      · exact hbefore
      · exact Message.before_trans hbefore (hfirst x hx)
    next hnot =>
      refine List.pairwise_cons.mpr ⟨fun x hx => ?_, ih hrest fun y hy => hne y (List.mem_cons_of_mem _ hy)⟩
      rcases mem_insert.mp hx with rfl | hx
      · exact Message.before_of_not (hne first (List.mem_cons_self ..)) hnot
      · exact hfirst x hx

theorem insert_filterMap_none {f : Message α → Option β} {m : Message α} (hm : f m = none)
    (l : List (Message α)) : (insert m l).filterMap f = l.filterMap f := by
  induction l with
  | nil => simp [insert, hm]
  | cons first rest ih =>
    unfold insert
    split
    next => rw [List.filterMap_cons, hm]
    next => rw [List.filterMap_cons, List.filterMap_cons, ih]

/-- A message that comes before none of the selected ones is selected after them. -/
theorem insert_filterMap_last {f : Message α → Option β} {m : Message α} {l : List (Message α)}
    (hl : l.Pairwise fun a b => a.before b = true)
    (hlast : ∀ x ∈ l, (f x).isSome = true → ¬ m.before x = true) :
    (insert m l).filterMap f = l.filterMap f ++ (f m).toList := by
  induction l with
  | nil => cases h : f m <;> simp [insert, h]
  | cons first rest ih =>
    obtain ⟨hfirst, hrest⟩ := List.pairwise_cons.mp hl
    unfold insert
    split
    next hbefore =>
      -- nothing from here on is selected, since `m` comes before all of it
      have hnone : (first :: rest).filterMap f = [] := by
        rw [List.filterMap_eq_nil_iff]
        intro x hx
        have hx' : m.before x = true := by
          rcases List.mem_cons.mp hx with rfl | hmem
          · exact hbefore
          · exact Message.before_trans hbefore (hfirst x hmem)
        exact Option.not_isSome_iff_eq_none.mp fun hs => hlast x hx hs hx'
      rw [List.filterMap_cons, hnone]
      cases h : f m <;> simp
    next =>
      rw [List.filterMap_cons, List.filterMap_cons, ih hrest fun x hx => hlast x (List.mem_cons_of_mem _ hx)]
      cases h : f first <;> simp

/-- The messages stand in order, and every new one comes after those that are due at the same time. -/
structure Ordered (q : MessageQueue α) : Prop where
  sorted : q.messages.Pairwise fun a b => a.before b = true
  fresh : ∀ m ∈ q.messages, m.order < q.nextOrder

theorem empty_ordered : (empty : MessageQueue α).Ordered :=
  ⟨List.Pairwise.nil, fun _ hm => nomatch hm⟩

theorem enqueue_running {q : MessageQueue α} (m : Message α) (running : q.quitting = false) :
    q.enqueue m = (true, { q with
      messages := insert { m with order := q.nextOrder } q.messages
      nextOrder := q.nextOrder + 1 }) := by
  simp [enqueue, running]

theorem enqueue_refused {q : MessageQueue α} (m : Message α) (quitting : q.quitting = true) :
    q.enqueue m = (false, q) := by
  simp [enqueue, quitting]

theorem Ordered.enqueue {q : MessageQueue α} (h : q.Ordered) (m : Message α) : (q.enqueue m).2.Ordered := by
  cases hq : q.quitting with
  | true => rw [enqueue_refused m hq]; exact h
  | false =>
    rw [enqueue_running m hq]
    refine ⟨insert_pairwise h.sorted fun x hx => ?_, fun x hx => ?_⟩
    · have hx' := h.fresh x hx
      show q.nextOrder ≠ x.order
      omega
    · show x.order < q.nextOrder + 1
      rcases mem_insert.mp hx with rfl | hx
      · exact Nat.lt_succ_self _
      · exact Nat.lt_succ_of_lt (h.fresh x hx)

theorem remove_messages (q : MessageQueue α) (runner : Nat) (taskId : Option Nat) :
    (q.remove runner taskId).2.messages = q.messages.filter fun m => !(m.matchedBy runner taskId) := by
  simp [remove, List.partition_eq_filter_filter, Function.comp_def]

theorem Ordered.remove {q : MessageQueue α} (h : q.Ordered) (runner : Nat) (taskId : Option Nat) :
    (q.remove runner taskId).2.Ordered := by
  have hmessages := q.remove_messages runner taskId
  refine ⟨?_, fun m hm => ?_⟩
  · rw [hmessages]
    exact h.sorted.filter _
  · rw [hmessages] at hm
    exact h.fresh m (List.mem_filter.mp hm).1

theorem Ordered.quit {q : MessageQueue α} (h : q.Ordered) : q.quit.2.Ordered := by
  unfold MessageQueue.quit
  split
  next => exact h
  next => exact ⟨List.Pairwise.nil, fun _ hm => nomatch hm⟩

theorem next?_eq_some {q q' : MessageQueue α} {now : Nat} {m : Message α} (h : q.next? now = some (m, q')) :
    q.quitting = false ∧ q.messages = m :: q'.messages ∧ q' = { q with messages := q'.messages } := by
  unfold next? at h
  split at h
  next => cases h
  next hq =>
    split at h
    next => cases h
    next first rest hmessages =>
      split at h
      next =>
        obtain ⟨rfl, rfl⟩ := Prod.mk.inj (Option.some.inj h)
        exact ⟨by simpa using hq, hmessages, rfl⟩
      next => cases h

theorem next?_due {q q' : MessageQueue α} {now : Nat} {m : Message α} (h : q.next? now = some (m, q')) :
    m.due ≤ now := by
  unfold next? at h
  split at h
  next => cases h
  next =>
    split at h
    next => cases h
    next =>
      split at h
      next hdue =>
        obtain ⟨rfl, rfl⟩ := Prod.mk.inj (Option.some.inj h)
        exact hdue
      next => cases h

/-- If nothing can be taken, the time of no message has come. -/
theorem Ordered.later {q : MessageQueue α} (h : q.Ordered) (running : q.quitting = false) {now : Nat}
    (hnone : q.next? now = none) : ∀ m ∈ q.messages, now < m.due := by
  intro m hm
  unfold MessageQueue.next? at hnone
  rw [running] at hnone
  cases hmessages : q.messages with
  | nil => rw [hmessages] at hm; cases hm
  | cons first rest =>
    rw [hmessages] at hnone hm
    have hfirst : now < first.due := by simpa using hnone
    have hsorted := h.sorted
    rw [hmessages] at hsorted
    rcases List.mem_cons.mp hm with rfl | hm
    · exact hfirst
    · -- the messages behind the first one are due no earlier
      have hbefore := Message.before_iff.mp ((List.pairwise_cons.mp hsorted).1 m hm)
      omega

theorem Ordered.next? {q q' : MessageQueue α} (h : q.Ordered) {now : Nat} {m : Message α}
    (hnext : q.next? now = some (m, q')) : q'.Ordered := by
  obtain ⟨-, hmessages, hrest⟩ := next?_eq_some hnext
  have hsorted := h.sorted
  rw [hmessages] at hsorted
  refine ⟨(List.pairwise_cons.mp hsorted).2, fun x hx => ?_⟩
  rw [hrest]
  exact h.fresh x (by rw [hmessages]; exact List.mem_cons_of_mem _ hx)

end MessageQueue

namespace Loop

theorem remove_messages (l : Loop α) (runner : Nat) (taskId : Option Nat) :
    (l.remove runner taskId).2.queue.messages = l.queue.messages.filter fun m => !(m.matchedBy runner taskId) :=
  l.queue.remove_messages runner taskId

theorem post_refused {l : Loop α} (quitting : l.queue.quitting = true) (now delay : Nat) (task : α)
    (runner : Option Nat) (taskId : Nat) : l.post now delay task runner taskId = (false, l) := by
  unfold post
  rw [MessageQueue.enqueue_refused _ quitting]

theorem post_running {l : Loop α} (running : l.queue.quitting = false) (now delay : Nat) (task : α)
    (runner : Option Nat) (taskId : Nat) :
    l.post now delay task runner taskId = (true, { l with queue := { l.queue with
      messages := MessageQueue.insert ⟨task, now + min delay maxDelay, l.queue.nextOrder, runner, taskId⟩
        l.queue.messages
      nextOrder := l.queue.nextOrder + 1 } }) := by
  unfold post
  rw [MessageQueue.enqueue_running _ running]
  rfl

theorem post_accepted (l : Loop α) (now delay : Nat) (task : α) (runner : Option Nat) (taskId : Nat) :
    (l.post now delay task runner taskId).1 = !l.queue.quitting := by
  cases h : l.queue.quitting with
  | true => rw [post_refused h]; rfl
  | false => rw [post_running h]; rfl

theorem post_ordered {l : Loop α} (h : l.queue.Ordered) (now delay : Nat) (task : α) (runner : Option Nat)
    (taskId : Nat) : (l.post now delay task runner taskId).2.queue.Ordered :=
  h.enqueue _

theorem quit_quitting (l : Loop α) : l.quit.queue.quitting = true := by
  unfold quit MessageQueue.quit
  split
  next hq => exact hq
  next => rfl

theorem quit_drained {l : Loop α} (h : l.queue.quitting = true → l.queue.messages = []) :
    l.quit.queue.messages = [] := by
  unfold quit MessageQueue.quit
  split
  next hq => exact h hq
  next => rfl

theorem post_quitting (l : Loop α) (now delay : Nat) (task : α) (runner : Option Nat) (taskId : Nat) :
    (l.post now delay task runner taskId).2.queue.quitting = l.queue.quitting := by
  cases hq : l.queue.quitting with
  | true => rw [post_refused hq]; exact hq
  | false => rw [post_running hq]; exact hq

theorem next?_quitting {l l' : Loop α} {now : Nat} {task : α} (h : l.next? now = some (task, l')) :
    l'.queue.quitting = l.queue.quitting := by
  obtain ⟨⟨m, q⟩, hq, heq⟩ := Option.map_eq_some_iff.mp h
  obtain ⟨rfl, rfl⟩ := Prod.mk.inj heq
  obtain ⟨-, -, hrest⟩ := MessageQueue.next?_eq_some hq
  rw [hrest]

theorem later {l : Loop α} (h : l.queue.Ordered) (running : l.queue.quitting = false) {now : Nat}
    (hnone : l.next? now = none) : ∀ m ∈ l.queue.messages, now < m.due :=
  h.later running (Option.map_eq_none_iff.mp hnone)

/-! ## What is asked for -/

/-- What the tasks that wait ask for, in the order in which they are taken; `f` tells what a task asks for. -/
def asked (l : Loop α) (f : α → Option β) : List β :=
  l.queue.messages.filterMap (f ·.task)

/-- The messages stand in order, and the tasks that ask for something may be taken at once; no one takes them
back. -/
structure Prompt (now : Nat) (l : Loop α) (f : α → Option β) : Prop where
  ordered : l.queue.Ordered
  due : ∀ m ∈ l.queue.messages, (f m.task).isSome = true → m.due ≤ now ∧ m.taskId = 0

section Prompt

variable {l l' : Loop α} {f : α → Option β} {now : Nat}

theorem Prompt.mono (h : l.Prompt now f) {later : Nat} (hle : now ≤ later) : l.Prompt later f :=
  ⟨h.ordered, fun m hm ho => ⟨Nat.le_trans (h.due m hm ho).1 hle, (h.due m hm ho).2⟩⟩

/-- A task that asks for nothing changes nothing for those that do. -/
theorem Prompt.post_other (h : l.Prompt now f) (delay : Nat) {task : α} (runner : Option Nat) (taskId : Nat)
    (other : f task = none) : (l.post now delay task runner taskId).2.Prompt now f ∧
      (l.post now delay task runner taskId).2.asked f = l.asked f := by
  have hordered := post_ordered h.ordered now delay task runner taskId
  cases hq : l.queue.quitting with
  | true =>
    rw [post_refused hq]
    exact ⟨h, rfl⟩
  | false =>
    rw [post_running hq] at hordered ⊢
    refine ⟨⟨hordered, fun m hm ho => ?_⟩, MessageQueue.insert_filterMap_none other _⟩
    rcases MessageQueue.mem_insert.mp hm with rfl | hm
    · rw [show f _ = none from other] at ho
      cases ho
    · exact h.due m hm ho

/-- What is asked for now comes after all that was asked for before. -/
theorem Prompt.post_asking (h : l.Prompt now f) {task : α} {b : β} (hb : f task = some b) (runner : Option Nat)
    (running : l.queue.quitting = false) : (l.post now 0 task runner).2.Prompt now f ∧
      (l.post now 0 task runner).2.asked f = l.asked f ++ [b] := by
  have hordered := post_ordered h.ordered now 0 task runner 0
  rw [post_running running] at hordered ⊢
  refine ⟨⟨hordered, fun m hm ho => ?_⟩, ?_⟩
  · rcases MessageQueue.mem_insert.mp hm with rfl | hm
    · exact ⟨by simp, rfl⟩
    · exact h.due m hm ho
  · have hlast := MessageQueue.insert_filterMap_last (f := (f ·.task))
      (m := ⟨task, now + min 0 maxDelay, l.queue.nextOrder, runner, 0⟩) h.ordered.sorted fun x hx ho hbefore => by
        -- those that wait are due by now and were put in before
        have hdue := (h.due x hx ho).1
        have horder := h.ordered.fresh x hx
        rw [Message.before_iff] at hbefore
        dsimp only at hbefore
        omega
    rwa [show (f task).toList = [b] by rw [hb]; rfl] at hlast

/-- What asks for something has no id by which it could be taken back. -/
theorem Prompt.remove (h : l.Prompt now f) (runner taskId : Nat) (hid : taskId ≠ 0) :
    (l.remove runner (some taskId)).2.Prompt now f ∧ (l.remove runner (some taskId)).2.asked f = l.asked f := by
  have hmessages := l.remove_messages runner (some taskId)
  refine ⟨⟨h.ordered.remove runner (some taskId), fun m hm ho => ?_⟩, ?_⟩
  · rw [hmessages] at hm
    exact h.due m (List.mem_filter.mp hm).1 ho
  · unfold asked
    rw [hmessages, List.filterMap_filter]
    refine List.filterMap_congr fun m hm => ?_
    cases ho : f m.task with
    | none => simp
    | some b =>
      have hzero := (h.due m hm (by rw [ho]; rfl)).2
      simp [Message.matchedBy, hzero, hid]

/-- Ending a loop drops what waits, unless it has ended before. -/
theorem Prompt.quit (h : l.Prompt now f) :
    l.quit.Prompt now f ∧ (l.quit.asked f = [] ∨ l.quit.asked f = l.asked f) := by
  have hordered : l.quit.queue.Ordered := h.ordered.quit
  cases hq : l.queue.quitting with
  | true =>
    have hqueue : l.quit.queue = l.queue := by simp [Loop.quit, MessageQueue.quit, hq]
    refine ⟨⟨hordered, ?_⟩, .inr (by rw [asked, hqueue, asked])⟩
    rw [hqueue]
    exact h.due
  | false =>
    have hdrained : l.quit.queue.messages = [] := l.quit_drained fun hq' => by rw [hq] at hq'; cases hq'
    refine ⟨⟨hordered, ?_⟩, .inl (by rw [asked, hdrained]; rfl)⟩
    rw [hdrained]
    exact List.forall_mem_nil _

theorem Prompt.next? (h : l.Prompt now f) {task : α} (hnext : l.next? now = some (task, l')) :
    l'.Prompt now f ∧ l.asked f = (f task).toList ++ l'.asked f := by
  obtain ⟨⟨m, q⟩, hq, heq⟩ := Option.map_eq_some_iff.mp hnext
  obtain ⟨rfl, rfl⟩ := Prod.mk.inj heq
  obtain ⟨-, hmessages, hrest⟩ := MessageQueue.next?_eq_some hq
  refine ⟨⟨h.ordered.next? hq, fun x hx ho => ?_⟩, ?_⟩
  · exact h.due x (by rw [hmessages]; exact List.mem_cons_of_mem _ hx) ho
  · unfold asked
    rw [hmessages, List.filterMap_cons]
    cases f m.task <;> rfl

end Prompt

/-! ## Messages that wait -/

section Messages

variable {l l' : Loop α} {m : Message α}

/-- What waits after a task was posted: what waited before, and that task. -/
theorem mem_post {now delay : Nat} {task : α} {runner : Option Nat} {taskId : Nat}
    (hm : m ∈ (l.post now delay task runner taskId).2.queue.messages) :
    m ∈ l.queue.messages ∨ (m.task = task ∧ m.due = now + min delay maxDelay) := by
  cases hq : l.queue.quitting with
  | true =>
    rw [post_refused hq] at hm
    exact .inl hm
  | false =>
    rw [post_running hq] at hm
    rcases MessageQueue.mem_insert.mp hm with rfl | hm
    · exact .inr ⟨rfl, rfl⟩
    · exact .inl hm

theorem mem_remove {runner : Nat} {taskId : Option Nat} (hm : m ∈ (l.remove runner taskId).2.queue.messages) :
    m ∈ l.queue.messages := by
  rw [l.remove_messages] at hm
  exact (List.mem_filter.mp hm).1

theorem mem_quit (hm : m ∈ l.quit.queue.messages) : m ∈ l.queue.messages := by
  unfold quit MessageQueue.quit at hm
  split at hm
  next => exact hm
  next => cases hm

/-- What is taken waited, and so did all that waits afterwards. -/
theorem mem_next? {now : Nat} {task : α} (h : l.next? now = some (task, l')) :
    (∃ m ∈ l.queue.messages, m.task = task) ∧ l'.queue.messages ⊆ l.queue.messages := by
  obtain ⟨⟨m, q⟩, hq, heq⟩ := Option.map_eq_some_iff.mp h
  obtain ⟨rfl, rfl⟩ := Prod.mk.inj heq
  obtain ⟨-, hmessages, -⟩ := MessageQueue.next?_eq_some hq
  rw [hmessages]
  exact ⟨⟨m, List.mem_cons_self .., rfl⟩, List.subset_cons_self ..⟩

end Messages

/-! ## Tasks of a kind -/

/-- Whether all tasks that wait are of a kind. -/
def Holds (l : Loop α) (kind : α → Bool) : Prop :=
  ∀ m ∈ l.queue.messages, kind m.task = true

instance (l : Loop α) (kind : α → Bool) : Decidable (l.Holds kind) :=
  inferInstanceAs (Decidable (∀ m ∈ l.queue.messages, kind m.task = true))

variable {l : Loop α} {kind : α → Bool}

theorem Holds.post (h : l.Holds kind) (now delay : Nat) {task : α} (runner : Option Nat) (taskId : Nat)
    (hkind : kind task = true) : (l.post now delay task runner taskId).2.Holds kind := by
  intro m hm
  rcases mem_post hm with hm | ⟨rfl, -⟩
  · exact h m hm
  · exact hkind

theorem Holds.remove (h : l.Holds kind) (runner : Nat) (taskId : Option Nat) :
    (l.remove runner taskId).2.Holds kind :=
  fun m hm => h m (mem_remove hm)

/-- What is taken is of the kind, and so is what is left. -/
theorem Holds.next? (h : l.Holds kind) {now : Nat} {task : α} {l' : Loop α}
    (hnext : l.next? now = some (task, l')) : kind task = true ∧ l'.Holds kind := by
  obtain ⟨⟨m, hm, rfl⟩, hrest⟩ := mem_next? hnext
  exact ⟨h m hm, fun x hx => h x (hrest hx)⟩

/-! ## How many tasks of a kind wait -/

/-- How many tasks of a kind wait. -/
def waiting (l : Loop α) (kind : α → Bool) : Nat :=
  l.queue.messages.countP (kind ·.task)

/-- A task that was accepted is one more of its kind. -/
theorem waiting_post (l : Loop α) (kind : α → Bool) (now delay : Nat) (task : α) (runner : Option Nat) (taskId : Nat) :
    (l.post now delay task runner taskId).2.waiting kind
      = l.waiting kind + ((l.post now delay task runner taskId).1 && kind task).toNat := by
  cases hq : l.queue.quitting with
  | true => rw [post_refused hq]; rfl
  | false =>
    rw [post_running hq]
    show List.countP _ (MessageQueue.insert _ _) = l.waiting kind + (kind task).toNat
    rw [(MessageQueue.insert_perm _ _).countP_eq, List.countP_cons]
    cases kind task <;> rfl

theorem waiting_remove_le (l : Loop α) (kind : α → Bool) (runner : Nat) (taskId : Option Nat) :
    (l.remove runner taskId).2.waiting kind ≤ l.waiting kind := by
  unfold waiting
  rw [l.remove_messages]
  exact List.filter_sublist.countP_le

theorem waiting_quit_le (l : Loop α) (kind : α → Bool) : l.quit.waiting kind ≤ l.waiting kind := by
  unfold waiting quit MessageQueue.quit
  split
  next => exact Nat.le_refl _
  next => exact Nat.zero_le _

/-- A task that is taken waits no more. -/
theorem waiting_next? {l l' : Loop α} (kind : α → Bool) {now : Nat} {task : α} (h : l.next? now = some (task, l')) :
    l.waiting kind = l'.waiting kind + (kind task).toNat := by
  obtain ⟨⟨m, q⟩, hq, heq⟩ := Option.map_eq_some_iff.mp h
  obtain ⟨rfl, rfl⟩ := Prod.mk.inj heq
  obtain ⟨-, hmessages, -⟩ := MessageQueue.next?_eq_some hq
  unfold waiting
  rw [hmessages, List.countP_cons]
  cases kind m.task <;> rfl

end Loop
end Playback
