import Playback.Proofs.Schedule.Acts

/-!
# The ledger of a scheduler

A `Ledger` is a roster with the record of what happened to tasks since the beginning. The record is the sum
of the answers that the acts gave (`Roster.entries`); what waits is read off the queues (`Roster.pending`).
The books always balance (`Ledger.Balanced`):

> what has ended and what waits is, each task once, what was accepted.

It comes from one step (`Deed.pending_perm`): an act moves tasks between these places and loses none.
-/

namespace Playback

variable {α : Type}

/-- The tasks that wait in a loop. -/
def Loop.tickets (l : Loop α) (i : Nat) : List (Ticket α) :=
  l.queue.messages.map (⟨i, ·⟩)

namespace Roster

/-- The tasks that wait, loop by loop. -/
def pending (r : Roster α) : List (Ticket α) :=
  r.scheduler.loops.zipIdx.flatMap fun (l, i) => l.tickets i

variable {r : Roster α}

theorem mem_pending {t : Ticket α} :
    t ∈ r.pending ↔ ∃ l, r.loop? t.loop = some l ∧ t.message ∈ l.queue.messages := by
  unfold pending
  rw [List.mem_flatMap]
  constructor
  · rintro ⟨⟨l, i⟩, hl, ht⟩
    obtain ⟨m, hm, rfl⟩ := List.mem_map.mp ht
    exact ⟨l, List.mem_zipIdx_iff_getElem?.mp hl, hm⟩
  · rintro ⟨l, hl, hm⟩
    exact ⟨(l, t.loop), List.mem_zipIdx_iff_getElem?.mpr hl, List.mem_map.mpr ⟨t.message, hm, rfl⟩⟩

/-- The place of a loop among what waits. -/
theorem pending_split {i : Nat} {l : Loop α} (present : r.loop? i = some l) :
    ∃ before after, r.pending = before ++ l.tickets i ++ after ∧
      ∀ l', (r.setLoop i l').pending = before ++ l'.tickets i ++ after := by
  have hi : i < r.scheduler.loops.length := (List.getElem?_eq_some_iff.mp present).1
  have hlen : (r.scheduler.loops.take i).length = i := List.length_take_of_le (Nat.le_of_lt hi)
  have hparts (l' : Loop α) : (r.setLoop i l').pending
      = (r.scheduler.loops.take i).zipIdx.flatMap (fun (l, i) => l.tickets i) ++ l'.tickets i
        ++ ((r.scheduler.loops.drop (i + 1)).zipIdx (i + 1)).flatMap (fun (l, i) => l.tickets i) := by
    unfold pending setLoop
    simp only [List.set_eq_take_append_cons_drop, if_pos hi, List.zipIdx_append, hlen, List.zipIdx_cons,
      List.flatMap_append, List.flatMap_cons, Nat.zero_add, List.append_assoc]
  have hsame : r.setLoop i l = r := by
    obtain ⟨hi', hl⟩ := List.getElem?_eq_some_iff.mp present
    unfold setLoop
    rw [← hl, List.set_getElem_self]
  exact ⟨_, _, by rw [← hparts l, hsame], hparts⟩

theorem pending_addLoop (name : String) :
    (Roster.mk (r.scheduler.addLoop name).2 r.runners).pending = r.pending := by
  simp [pending, Scheduler.addLoop, List.zipIdx_append, Loop.tickets, Loop.new, MessageQueue.empty]

theorem loop?_setLoop_self {i : Nat} {l : Loop α} (present : r.loop? i = some l) (l' : Loop α) :
    (r.setLoop i l').loop? i = some l' :=
  List.getElem?_set_self (List.getElem?_eq_some_iff.mp present).1

theorem loop?_setLoop_ne {i j : Nat} (hne : i ≠ j) (l' : Loop α) : (r.setLoop i l').loop? j = r.loop? j :=
  List.getElem?_set_ne hne

end Roster

/-! ## What an act does to a loop -/

/-- What acts do to a loop: its queue stays in order, its counters grow, and it does not come back once it
is ending. -/
structure Loop.Advances (l l' : Loop α) : Prop where
  ordered : l.queue.Ordered → l'.queue.Ordered
  nextOrder : l.queue.nextOrder ≤ l'.queue.nextOrder
  quitting : l.queue.quitting = true → l'.queue.quitting = true
  runners : l.runners ≤ l'.runners

theorem Loop.Advances.refl (l : Loop α) : l.Advances l :=
  ⟨id, Nat.le_refl _, id, Nat.le_refl _⟩

namespace Roster

open scoped List

variable {r r' : Roster α} {a : ScheduleAct α} {e : Entries α}

/-- What may be at the place of a loop before and after an act. -/
inductive Turns : Option (Loop α) → Option (Loop α) → Prop where
  | free : Turns none none
  | new (name : String) : Turns none (some (.new name))
  | stays (l l' : Loop α) (advances : l.Advances l') : Turns (some l) (some l')

theorem Turns.same : (o : Option (Loop α)) → Turns o o
  | none => .free
  | some l => .stays l l (.refl l)

theorem turns_setLoop {i : Nat} {l l' : Loop α} (present : r.loop? i = some l) (advances : l.Advances l')
    (j : Nat) : Turns (r.loop? j) ((r.setLoop i l').loop? j) := by
  by_cases hij : i = j
  · subst hij
    rw [present, loop?_setLoop_self present]
    exact .stays l l' advances
  · rw [loop?_setLoop_ne hij]
    exact .same _

theorem Deed.turns (h : Deed r a r' e) (j : Nat) : Turns (r.loop? j) (r'.loop? j) := by
  cases h with
  | nothing | waits | detaches | retires => exact .same _
  | adds name =>
    by_cases hj : j < r.scheduler.loops.length
    · have hsame : Roster.loop? ⟨(r.scheduler.addLoop name).2, r.runners⟩ j = r.loop? j :=
        List.getElem?_append_left hj
      rw [hsame]
      exact .same _
    · have hnone : r.loop? j = none := List.getElem?_eq_none (Nat.le_of_not_lt hj)
      have hnext : Roster.loop? ⟨(r.scheduler.addLoop name).2, r.runners⟩ j
          = [Loop.new name][j - r.scheduler.loops.length]? := List.getElem?_append_right (Nat.le_of_not_lt hj)
      rw [hnone, hnext]
      cases j - r.scheduler.loops.length with
      | zero => exact .new name
      | succ d => exact .free
  | attaches _ i l _ present =>
    refine turns_setLoop present ?_ j
    exact ⟨id, Nat.le_refl _, id, Nat.le_succ _⟩
  | posts _ p l _ present running order =>
    refine turns_setLoop present ?_ j
    refine ⟨fun hord => ?_, Nat.le_succ _, fun hq => hq, Nat.le_refl _⟩
    have hqueue := hord.enqueue p.ticket.message
    rw [MessageQueue.enqueue_running _ running, ← order] at hqueue
    rwa [← order]
  | takesBack _ k i id l taskId _ _ present =>
    refine turns_setLoop present ?_ j
    refine ⟨fun hord => ?_, Nat.le_refl _, fun hq => hq, Nat.le_refl _⟩
    have hqueue := hord.remove id taskId
    rwa [MessageQueue.remove, List.partition_eq_filter_filter] at hqueue
  | executes i l m rest present running first =>
    refine turns_setLoop present ?_ j
    refine ⟨fun hord => ⟨?_, fun x hx => ?_⟩, Nat.le_refl _, fun hq => hq, Nat.le_refl _⟩
    · have hsorted := hord.sorted
      rw [first] at hsorted
      exact (List.pairwise_cons.mp hsorted).2
    · exact hord.fresh x (by rw [first]; exact List.mem_cons_of_mem _ hx)
  | quits i l present =>
    refine turns_setLoop present ?_ j
    exact ⟨fun _ => ⟨List.Pairwise.nil, fun _ hm => by cases hm⟩, Nat.le_refl _, fun _ => rfl, Nat.le_refl _⟩
  | marks _ i l l' _ present queue runners =>
    refine turns_setLoop present ?_ j
    exact ⟨fun hord => queue ▸ hord, Nat.le_of_eq (by rw [queue]),
      fun hq => by rw [queue]; exact hq, Nat.le_of_eq (by rw [runners])⟩

theorem Deed.present (h : Deed r a r' e) {j : Nat} {l : Loop α} (present : r.loop? j = some l) :
    ∃ l', r'.loop? j = some l' ∧ l.Advances l' := by
  have hturns := h.turns j
  rw [present] at hturns
  generalize r'.loop? j = after at hturns ⊢
  cases hturns with
  | stays l l' advances => exact ⟨l', rfl, advances⟩

/-- What a loop gives away and takes in. -/
theorem pending_perm_setLoop {i : Nat} {l l' : Loop α} (present : r.loop? i = some l)
    {gone added : List (Ticket α)} (h : (gone ++ l'.tickets i).Perm (l.tickets i ++ added)) :
    (gone ++ (r.setLoop i l').pending).Perm (r.pending ++ added) := by
  obtain ⟨before, after, hpending, hset⟩ := pending_split present
  have hfront : (before ++ l'.tickets i ++ after).Perm (l'.tickets i ++ (before ++ after)) := by
    rw [List.append_assoc]
    exact List.perm_append_comm_assoc ..
  have hback : (l.tickets i ++ (before ++ (after ++ added))).Perm
      (before ++ (l.tickets i ++ (after ++ added))) := List.perm_append_comm_assoc ..
  rw [hpending, hset]
  calc (gone ++ (before ++ l'.tickets i ++ after))
    _ ~ gone ++ (l'.tickets i ++ (before ++ after)) := hfront.append_left gone
    _ = gone ++ l'.tickets i ++ (before ++ after) := (List.append_assoc ..).symm
    _ ~ l.tickets i ++ added ++ (before ++ after) := h.append_right _
    _ = l.tickets i ++ (added ++ (before ++ after)) := List.append_assoc ..
    _ ~ l.tickets i ++ (before ++ after ++ added) := List.perm_append_comm.append_left _
    _ = l.tickets i ++ (before ++ (after ++ added)) := by rw [List.append_assoc before]
    _ ~ before ++ (l.tickets i ++ (after ++ added)) := hback
    _ = before ++ l.tickets i ++ after ++ added := by simp only [List.append_assoc]

/-- No task is lost: what ended by an act and what waits then is what waited before and what was accepted by
it. -/
theorem Deed.pending_perm (h : Deed r a r' e) :
    (e.ended ++ r'.pending).Perm (r.pending ++ e.accepted.map Posting.ticket) := by
  have hsame : (Entries.empty.ended ++ r.pending).Perm
      (r.pending ++ (Entries.empty : Entries α).accepted.map Posting.ticket) := by
    simp [Entries.empty, Entries.ended, Entries.ran]
  cases h with
  | nothing | waits | detaches | retires => exact hsame
  | adds name => rw [pending_addLoop]; exact hsame
  | attaches _ i l _ present =>
    exact pending_perm_setLoop present (by simp [Loop.attach, Loop.tickets, Entries.ended, Entries.empty, Entries.ran])
  | marks _ i l l' _ present queue =>
    exact pending_perm_setLoop present (by simp [Loop.tickets, queue, Entries.ended, Entries.empty, Entries.ran])
  | posts _ p l _ present running order =>
    refine pending_perm_setLoop present ?_
    have hinsert := (MessageQueue.insert_perm p.ticket.message l.queue.messages).map (Ticket.mk p.loop)
    exact hinsert.trans (List.perm_append_singleton ..).symm
  | takesBack _ k i id l taskId _ _ present =>
    refine pending_perm_setLoop present ?_
    have hparts := (List.filter_append_perm (·.matchedBy id taskId) l.queue.messages).map (Ticket.mk i)
    simpa [Loop.tickets, Entries.ended, Entries.ran, Function.comp_def] using hparts
  | executes i l m rest present running first =>
    exact pending_perm_setLoop present (by simp [Loop.tickets, first, Entries.ended, Entries.ran])
  | quits i l present =>
    exact pending_perm_setLoop present (by simp [Loop.tickets, Entries.ended, Entries.ran])

/-- A task that is accepted gets the next place in the order of putting in. -/
theorem Deed.accepted (h : Deed r a r' e) : e.accepted = [] ∨ ∃ p l l', e.accepted = [p] ∧
    r.loop? p.loop = some l ∧ p.order = l.queue.nextOrder ∧
    r'.loop? p.loop = some l' ∧ l'.queue.nextOrder = l.queue.nextOrder + 1 := by
  cases h with
  | posts _ p l _ present _ order =>
    exact .inr ⟨p, l, _, rfl, present, order, loop?_setLoop_self present _, rfl⟩
  | _ => exact .inl rfl

end Roster

/-! ## Books -/

/-- A roster with the record of what happened to tasks since the beginning. -/
structure Ledger (α : Type) where
  roster : Roster α
  entries : Entries α

namespace Ledger

open scoped List

def empty : Ledger α := ⟨.empty, .empty⟩

def act (w : Ledger α) (a : ScheduleAct α) : Ledger α :=
  ⟨w.roster.act a, w.entries.append (w.roster.entries a)⟩

def acts (w : Ledger α) (as : List (ScheduleAct α)) : Ledger α :=
  as.foldl act w

/-- The tasks that wait. -/
def pending (w : Ledger α) : List (Ticket α) :=
  w.roster.pending

/-- Loops take tasks in the order of putting in, and every task that was accepted has ended or waits. -/
structure Balanced (w : Ledger α) : Prop where
  ordered : ∀ i l, w.roster.loop? i = some l → l.queue.Ordered
  numbered : ∀ p ∈ w.entries.accepted, ∃ l, w.roster.loop? p.loop = some l ∧ p.order < l.queue.nextOrder
  increasing : w.entries.accepted.Pairwise fun p q => p.loop = q.loop → p.order < q.order
  balance : (w.entries.ended ++ w.pending).Perm (w.entries.accepted.map Posting.ticket)

theorem empty_balanced : (empty : Ledger α).Balanced where
  ordered := fun i l h => by simp [empty, Roster.loop?, Roster.empty, Scheduler.empty] at h
  numbered := fun _ hp => by cases hp
  increasing := .nil
  balance := .refl _

theorem perm_interchange {β : Type} (a b c d : List β) :
    (a ++ b ++ (c ++ d)).Perm (a ++ c ++ (b ++ d)) := by
  simp only [List.append_assoc]
  exact (List.perm_append_comm_assoc b c d).append_left a

theorem ended_append (e e' : Entries α) : (e.append e').ended.Perm (e.ended ++ e'.ended) := by
  simp only [Entries.ended, Entries.append, Entries.ran, List.map_append]
  exact ((perm_interchange ..).append_right _).trans (perm_interchange ..)

namespace Balanced

variable {w : Ledger α}

theorem act (h : w.Balanced) (a : ScheduleAct α) : (w.act a).Balanced := by
  have hdeed := w.roster.act_deed a
  refine ⟨fun i l' hl' => ?_, fun p hp => ?_, ?_, ?_⟩
  · have hturns := hdeed.turns i
    have hordered := h.ordered i
    rw [show (w.roster.act a).loop? i = some l' from hl'] at hturns
    generalize w.roster.loop? i = before at hturns hordered
    cases hturns with
    | new => exact MessageQueue.empty_ordered
    | stays l l' advances => exact advances.ordered (hordered l rfl)
  · rcases List.mem_append.mp hp with hold | hnew
    · obtain ⟨l, hl, horder⟩ := h.numbered p hold
      obtain ⟨l', hl', advances⟩ := hdeed.present hl
      exact ⟨l', hl', Nat.lt_of_lt_of_le horder advances.nextOrder⟩
    · rcases hdeed.accepted with hnone | ⟨q, l, l', hq, hl, horder, hl', hnext⟩
      · rw [hnone] at hnew
        cases hnew
      · rw [hq] at hnew
        rw [List.mem_singleton.mp hnew]
        exact ⟨l', hl', by omega⟩
  · refine List.pairwise_append.mpr ⟨h.increasing, ?_, fun p hp q hq hloop => ?_⟩
    · rcases hdeed.accepted with hnone | ⟨q, _, _, hq, -⟩
      · rw [hnone]; exact .nil
      · rw [hq]; exact List.pairwise_singleton ..
    · rcases hdeed.accepted with hnone | ⟨q', l, l', hq', hl, horder, -⟩
      · rw [hnone] at hq
        cases hq
      · rw [hq'] at hq
        rw [List.mem_singleton.mp hq] at hloop ⊢
        obtain ⟨l₀, hl₀, hlt⟩ := h.numbered p hp
        rw [hloop, hl] at hl₀
        cases hl₀
        omega
  · calc (w.act a).entries.ended ++ (w.act a).pending
      _ ~ w.entries.ended ++ (w.roster.entries a).ended ++ (w.act a).pending :=
        (ended_append ..).append_right _
      _ = w.entries.ended ++ ((w.roster.entries a).ended ++ (w.act a).pending) := List.append_assoc ..
      _ ~ w.entries.ended ++ (w.pending ++ (w.roster.entries a).accepted.map Posting.ticket) :=
        hdeed.pending_perm.append_left _
      _ = w.entries.ended ++ w.pending ++ (w.roster.entries a).accepted.map Posting.ticket :=
        (List.append_assoc ..).symm
      _ ~ w.entries.accepted.map Posting.ticket ++ (w.roster.entries a).accepted.map Posting.ticket :=
        h.balance.append_right _
      _ = (w.act a).entries.accepted.map Posting.ticket := List.map_append.symm

/-- A task was accepted once. -/
theorem nodup (h : w.Balanced) : (w.entries.accepted.map Posting.ticket).Nodup := by
  refine List.pairwise_map.mpr (h.increasing.imp fun {p q} hpq heq => ?_)
  have hloop : p.loop = q.loop := congrArg Ticket.loop heq
  have horder : p.order = q.order := congrArg (·.message.order) heq
  have := hpq hloop
  omega

end Balanced

variable {w : Ledger α}

/-- What ended or waits was accepted. -/
theorem Balanced.mem_accepted (h : w.Balanced) {t : Ticket α} (ht : t ∈ w.entries.ended ++ w.pending) :
    ∃ p ∈ w.entries.accepted, p.ticket = t :=
  List.mem_map.mp (h.balance.mem_iff.mp ht)

theorem Balanced.ran_accepted (h : w.Balanced) {t : Ticket α} (ht : t ∈ w.entries.ran) :
    ∃ p ∈ w.entries.accepted, p.ticket = t := by
  refine h.mem_accepted ?_
  simp [Entries.ended, ht]

theorem ran_act (w : Ledger α) (a : ScheduleAct α) :
    (w.act a).entries.ran = w.entries.ran ++ (w.roster.entries a).ran :=
  List.map_append

/-- What waits after an act waited before it or was accepted by it. -/
theorem mem_pending_act {a : ScheduleAct α} {t : Ticket α} (ht : t ∈ (w.act a).pending) :
    t ∈ w.pending ∨ ∃ p ∈ (w.roster.entries a).accepted, p.ticket = t := by
  have hperm := (w.roster.act_deed a).pending_perm
  have hmem := hperm.mem_iff.mp (List.mem_append_right _ ht)
  rcases List.mem_append.mp hmem with hold | hnew
  · exact .inl hold
  · exact .inr (List.mem_map.mp hnew)

end Ledger
end Playback
