import Mathlib.Data.List.Pairwise
import Playback.Proofs.Schedule.Ledger

/-!
# The order in which tasks run

A loop takes its tasks in the order of their deadlines, and those with one deadline in the order in which
they were put in. Tasks are put in and taken back all the time, also by the tasks that run, so that this
order is not that of any list that exists at some moment. What holds of a whole run (`tasks_in_order`):

> no task runs before its deadline; of two tasks of a loop that both run, the one put in first runs first
> unless it is due later; and what is taken is due first of all that waits.

The invariant `Ledger.InOrder` says it of pairs: nothing that has run, and nothing that waits, comes too
late for something that ran before it (`Ticket.Precedes`).
-/

namespace Playback

variable {α : Type}

/-- Of two tasks of a loop, the one put in first, if it is due no later. -/
def Ticket.Precedes (x y : Ticket α) : Prop :=
  x.loop = y.loop ∧ x.message.order < y.message.order ∧ x.message.due ≤ y.message.due

/-- The message that comes before another one is the more urgent one. -/
theorem Message.urgency_of_before {a b : Message α} (h : a.before b = true) : a.urgency b = .gt :=
  if_pos h

/-- The first message comes before all others. -/
theorem MessageQueue.Ordered.first {q : MessageQueue α} (h : q.Ordered) {m : Message α}
    {rest : List (Message α)} (first : q.messages = m :: rest) {x : Message α} (hx : x ∈ q.messages) :
    x = m ∨ m.before x = true := by
  have hsorted := h.sorted
  rw [first] at hsorted hx
  rcases List.mem_cons.mp hx with rfl | hrest
  · exact .inl rfl
  · exact .inr ((List.pairwise_cons.mp hsorted).1 x hrest)

/-- Two members of a list stand in it in one order or in the other. -/
theorem pair_sublist {β : Type} {l : List β} {x y : β} (hx : x ∈ l) (hy : y ∈ l) (hne : x ≠ y) :
    [x, y].Sublist l ∨ [y, x].Sublist l := by
  have hpairs : l.Pairwise fun a b => [a, b].Sublist l ∨ [b, a].Sublist l :=
    List.pairwise_iff_forall_sublist.mpr .inl
  have : Std.Symm fun a b => [a, b].Sublist l ∨ [b, a].Sublist l := ⟨fun _ _ => Or.symm⟩
  exact hpairs.forall hx hy hne

/-- A task that a loop takes is that of its first message. -/
theorem Roster.next?_eq_some {r : Roster α} {i : Nat} {task : α} {s : Scheduler α}
    (h : r.scheduler.next? i = some (task, s)) : ∃ l m rest, r.loop? i = some l ∧
      l.queue.messages = m :: rest ∧ m.task = task ∧
      r.executes (.take i) = [⟨⟨i, m⟩, r.scheduler.now⟩] := by
  obtain ⟨l, present, h⟩ := Option.bind_eq_some_iff.mp h
  obtain ⟨⟨task', l'⟩, hnext, h⟩ := Option.bind_eq_some_iff.mp h
  obtain ⟨⟨m, q⟩, hqueue, htask⟩ := Option.map_eq_some_iff.mp hnext
  cases h
  cases htask
  obtain ⟨-, first, -⟩ := MessageQueue.next?_eq_some hqueue
  exact ⟨l, m, q.messages, present, first, rfl, by simp [executes, show r.loop? i = some l from present, hqueue]⟩

/-- What an act runs is the first message of a loop. -/
theorem Roster.Deed.executed {r r' : Roster α} {a : ScheduleAct α} {e : Entries α} (h : r.Deed a r' e) :
    e.ran = [] ∧ e.executed = [] ∨ ∃ i l m rest, e.executed = [⟨⟨i, m⟩, r.scheduler.now⟩] ∧
      e.accepted = [] ∧ r.loop? i = some l ∧ l.queue.messages = m :: rest ∧ m.due ≤ r.scheduler.now := by
  cases h with
  | executes i l m rest present _ first due => exact .inr ⟨i, l, m, rest, rfl, rfl, present, first, due⟩
  | _ => exact .inl ⟨rfl, rfl⟩

namespace Ledger

variable {w : Ledger α}

/-- Tasks ran when they were due, and nothing comes too late. -/
structure InOrder (w : Ledger α) : Prop where
  balanced : w.Balanced
  due : ∀ e ∈ w.entries.executed, e.ticket.message.due ≤ e.time
  waiting : ∀ x ∈ w.entries.ran, ∀ y ∈ w.pending, ¬ y.Precedes x
  ordered : w.entries.ran.Pairwise fun x y => ¬ y.Precedes x

theorem empty_inOrder : (empty : Ledger α).InOrder where
  balanced := empty_balanced
  due := fun _ he => by cases he
  waiting := fun _ hx => by cases hx
  ordered := .nil

namespace InOrder

/-- A task that is put in now precedes nothing that has run. -/
theorem not_precedes (h : w.InOrder) {a : ScheduleAct α} {p : Posting α}
    (hp : p ∈ (w.roster.entries a).accepted) {x : Ticket α} (hx : x ∈ w.entries.ran) :
    ¬ p.ticket.Precedes x := by
  rintro ⟨hloop, horder, -⟩
  obtain ⟨q, hq, rfl⟩ := h.balanced.ran_accepted hx
  have hnumbers := (h.balanced.act a).increasing
  have hlt : q.order < p.order :=
    (List.pairwise_append.mp hnumbers).2.2 q hq p hp hloop.symm
  replace horder : p.order < q.order := horder
  omega

theorem act (h : w.InOrder) (a : ScheduleAct α) : (w.act a).InOrder := by
  have hdeed := w.roster.act_deed a
  have hran := w.ran_act a
  rcases hdeed.executed with ⟨hnone, hnone'⟩ | ⟨i, l, m, rest, hexec, hacc, present, first, due⟩
  · -- nothing runs, but something may be put in
    rw [hnone, List.append_nil] at hran
    refine ⟨h.balanced.act a, ?_, ?_, ?_⟩
    · show ∀ e ∈ w.entries.executed ++ (w.roster.entries a).executed, _
      rw [hnone', List.append_nil]
      exact h.due
    · rw [hran]
      intro x hx y hy
      rcases mem_pending_act hy with hold | ⟨p, hp, rfl⟩
      · exact h.waiting x hx y hold
      · exact h.not_precedes hp hx
    · rw [hran]
      exact h.ordered
  · -- the first task of a loop runs
    have hnew : (w.roster.entries a).ran = [⟨i, m⟩] := by rw [Entries.ran, hexec]; rfl
    have htaken : (⟨i, m⟩ : Ticket α) ∈ w.pending :=
      Roster.mem_pending.mpr ⟨l, present, by rw [first]; exact List.mem_cons_self ..⟩
    have hpending : ∀ y ∈ (w.act a).pending, y ∈ w.pending := by
      intro y hy
      rcases mem_pending_act hy with hold | ⟨p, hp, -⟩
      · exact hold
      · rw [hacc] at hp
        cases hp
    refine ⟨h.balanced.act a, ?_, ?_, ?_⟩
    · show ∀ e ∈ w.entries.executed ++ (w.roster.entries a).executed, _
      intro e he
      rcases List.mem_append.mp he with hold | he
      · exact h.due e hold
      · rw [hexec] at he
        rw [List.mem_singleton.mp he]
        exact due
    · rw [hran, hnew]
      intro x hx y hy
      rcases List.mem_append.mp hx with hold | hx
      · exact h.waiting x hold y (hpending y hy)
      · rw [List.mem_singleton.mp hx]
        rintro ⟨hloop, horder, hdue⟩
        obtain ⟨l', present', hmem⟩ := Roster.mem_pending.mp (hpending y hy)
        replace hloop : y.loop = i := hloop
        rw [hloop, present] at present'
        cases present'
        dsimp only at horder hdue
        rcases (h.balanced.ordered i l present).first first hmem with heq | hbefore
        · rw [heq] at horder
          omega
        · rw [Message.before_iff] at hbefore
          omega
    · rw [hran, hnew]
      refine List.pairwise_append.mpr ⟨h.ordered, List.pairwise_singleton .., fun x hx y hy => ?_⟩
      rw [List.mem_singleton.mp hy]
      exact h.waiting x hx _ htaken

theorem acts (h : w.InOrder) (as : List (ScheduleAct α)) : (w.acts as).InOrder :=
  List.foldlRecOn as Ledger.act h fun _ hw a _ => hw.act a

end InOrder

/-- **The order of tasks.** In every run: a task runs no earlier than the time at which it was posted and its
delay, of which at most a day counts. If two tasks of a loop both run, the one that was put in first runs
first, unless its deadline is later. And whenever a loop takes a task, that task is the most urgent of all
that wait in the loop: it comes first by deadline and place. -/
theorem tasks_in_order (as : List (ScheduleAct α)) :
    let w := (empty : Ledger α).acts as
    (∀ e ∈ w.entries.executed, ∃ p ∈ w.entries.accepted,
      p.ticket = e.ticket ∧ p.time + min p.delay maxDelay ≤ e.time) ∧
    (∀ p q, [p, q].Sublist w.entries.accepted → p.loop = q.loop → p.deadline ≤ q.deadline →
      p.ticket ∈ w.entries.ran → q.ticket ∈ w.entries.ran →
        [p.ticket, q.ticket].Sublist w.entries.ran) ∧
    (∀ i task s, w.roster.scheduler.next? i = some (task, s) → ∃ t ∈ w.pending,
      t.loop = i ∧ t.message.task = task ∧
      (w.act (.take i)).entries.executed = w.entries.executed ++ [⟨t, w.roster.scheduler.now⟩] ∧
      ∀ u ∈ w.pending, u.loop = i → u ≠ t →
        t.message.before u.message = true ∧ t.message.urgency u.message = .gt) := by
  intro w
  have h : w.InOrder := empty_inOrder.acts as
  refine ⟨fun e he => ?_, fun p q hpq hloop hdue hp hq => ?_, fun i task s hnext => ?_⟩
  · obtain ⟨p, hp, hticket⟩ := h.balanced.ran_accepted (List.mem_map.mpr ⟨e, he, rfl⟩)
    have hlate := h.due e he
    rw [← hticket] at hlate
    exact ⟨p, hp, hticket, hlate⟩
  · have horder : p.order < q.order :=
      List.pairwise_iff_forall_sublist.mp h.balanced.increasing hpq hloop
    have hne : p.ticket ≠ q.ticket := by
      intro heq
      have : p.order = q.order := congrArg (·.message.order) heq
      omega
    rcases pair_sublist hp hq hne with hsub | hsub
    · exact hsub
    · exact absurd ⟨hloop, horder, hdue⟩ (List.pairwise_iff_forall_sublist.mp h.ordered hsub)
  · obtain ⟨l, m, rest, present, first, htask, hexec⟩ := Roster.next?_eq_some hnext
    refine ⟨⟨i, m⟩, ?_, rfl, htask, congrArg (w.entries.executed ++ ·) hexec, fun u hu hloop hne => ?_⟩
    · exact Roster.mem_pending.mpr ⟨l, present, by rw [first]; exact List.mem_cons_self ..⟩
    · obtain ⟨l', present', hmem⟩ := Roster.mem_pending.mp hu
      rw [hloop, present] at present'
      cases present'
      rcases (h.balanced.ordered i l present).first first hmem with heq | hbefore
      · exact absurd (by rw [← hloop, ← heq]) hne
      · exact ⟨hbefore, Message.urgency_of_before hbefore⟩

/-- Tasks of three runners and of none on one loop: the run jumps over several deadlines, and tasks are put
in and taken back in between. -/
def mixedRun : List (ScheduleAct String) :=
  [.addLoop "main", .attach 0, .clone 0, .post 0 50 1 "slow", .post 1 10 1 "first", .post 1 10 2 "second",
    .postLoop 0 0 "now", .take 0, .postLoop 0 30 "posted by a task", .advance 60, .post 0 0 7 "late",
    .remove 1 (some 2), .take 0, .take 0, .drop 1, .take 0, .take 0, .quit 0, .postLoop 0 0 "refused"]

theorem mixed_run_in_order :
    let w := (empty : Ledger String).acts mixedRun
    let slow : Posting String := ⟨0, 0, "slow", 0, 50, some 0, some 1, 1⟩
    let late : Posting String := ⟨0, 5, "late", 60, 0, some 0, some 1, 7⟩
    w.entries.ran.map (·.message.task) = ["now", "first", "posted by a task", "slow", "late"] ∧
    [slow, late].Sublist w.entries.accepted ∧ slow.deadline ≤ late.deadline ∧
    [slow.ticket, late.ticket].Sublist w.entries.ran := by
  intro w slow late
  have hposted : [slow, late].Sublist w.entries.accepted := by decide +kernel
  have hdue : slow.deadline ≤ late.deadline := by decide +kernel
  have hran : slow.ticket ∈ w.entries.ran ∧ late.ticket ∈ w.entries.ran := by decide +kernel
  refine ⟨by decide +kernel, hposted, hdue, ?_⟩
  exact (tasks_in_order mixedRun).2.1 slow late hposted rfl hdue hran.1 hran.2

end Ledger
end Playback
