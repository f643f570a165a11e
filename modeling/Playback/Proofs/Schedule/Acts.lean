import Playback.Proofs.Schedule.Pending
import Playback.Schedule.Scheduler

/-!
# What can happen to loops and runners

An act is one atomic thing that happens to a scheduler: a runner is made or ends, a task is posted, tasks
are taken back, the thread of a loop takes its next task, a loop ends, time goes by. It does not matter who
does it: what a task does while it runs is a number of acts after the one that took it, with acts of
others in between. So a list of acts is a run of all loops, in any order.

Runners are known by number, in the order in which they were made (`Roster`): two runners are two numbers,
whatever their ids. `Roster.entries` reads off the answers of an act what it did to tasks, and `act_deed`
says once all that an act can do (`Deed`).
-/

namespace Playback

variable {α : Type}

/-- Something that happens to loops and their runners. -/
inductive ScheduleAct (α : Type) where
  | addLoop (name : String)
  /-- Makes a runner for a loop; a task does so for the loop it runs on. -/
  | attach (loop : Nat)
  | clone (runner : Nat)
  | detached
  | postLoop (loop delay : Nat) (task : α)
  | post (runner delay taskId : Nat) (task : α)
  | remove (runner : Nat) (taskId : Option Nat)
  | reset (runner : Nat)
  | drop (runner : Nat)
  /-- The thread of a loop takes its next task, which then runs. -/
  | take (loop : Nat)
  | quit (loop : Nat)
  /-- The thread of a loop looks whether the loop has ended. -/
  | notice (loop : Nat)
  | advance (nanos : Nat)

/-- The runner whose tasks an act takes back, and the id of the tasks if one is given. -/
def ScheduleAct.request? : ScheduleAct α → Option (Nat × Option Nat)
  | .remove runner taskId => some (runner, taskId)
  | .reset runner | .drop runner => some (runner, none)
  | _ => none

/-- A scheduler with the runners that were made, in that order. One that was dropped is gone. -/
structure Roster (α : Type) where
  scheduler : Scheduler α
  runners : List (Option TaskRunner)

/-! ## What becomes of tasks -/

deriving instance DecidableEq for Message

/-- A task in the queue of a loop. -/
structure Ticket (α : Type) where
  loop : Nat
  message : Message α
deriving DecidableEq

/-- A task that a loop has accepted, as it was posted. -/
structure Posting (α : Type) where
  loop : Nat
  /-- Its place in the order of putting in. -/
  order : Nat
  task : α
  /-- The time at which it was posted. -/
  time : Nat
  delay : Nat
  /-- The runner through which it was posted, if any. -/
  owner : Option Nat
  /-- The id of that runner. -/
  runnerId : Option Nat
  taskId : Nat
deriving DecidableEq

namespace Posting

/-- The time of posting and the delay, of which at most a day counts. -/
def deadline (p : Posting α) : Nat :=
  p.time + min p.delay maxDelay

/-- The message that the loop is to hold for it. -/
def ticket (p : Posting α) : Ticket α :=
  ⟨p.loop, ⟨p.task, p.deadline, p.order, p.runnerId, p.taskId⟩⟩

end Posting

/-- A task that was taken to be run. -/
structure Execution (α : Type) where
  ticket : Ticket α
  time : Nat
deriving DecidableEq

/-- A task that was taken back, with the request. -/
structure Removal (α : Type) where
  ticket : Ticket α
  runner : Nat
  taskId : Option Nat
deriving DecidableEq

/-- What happened to tasks, oldest first. -/
structure Entries (α : Type) where
  accepted : List (Posting α)
  executed : List (Execution α)
  removed : List (Removal α)
  /-- The tasks that were dropped because their loop ended. -/
  dropped : List (Ticket α)
deriving DecidableEq

namespace Entries

def empty : Entries α := ⟨[], [], [], []⟩

def append (e e' : Entries α) : Entries α :=
  ⟨e.accepted ++ e'.accepted, e.executed ++ e'.executed, e.removed ++ e'.removed, e.dropped ++ e'.dropped⟩

/-- The tasks that were run, in that order. -/
def ran (e : Entries α) : List (Ticket α) :=
  e.executed.map (·.ticket)

/-- The tasks that are waiting no more. -/
def ended (e : Entries α) : List (Ticket α) :=
  e.ran ++ e.removed.map (·.ticket) ++ e.dropped

end Entries

namespace Roster

def empty : Roster α := ⟨.empty, []⟩

def loop? (r : Roster α) (i : Nat) : Option (Loop α) :=
  r.scheduler.loops[i]?

def runner? (r : Roster α) (k : Nat) : Option TaskRunner :=
  r.runners[k]?.join

/-- A runner that was made gets the next number. -/
def enlist (r : Roster α) (made : TaskRunner × Scheduler α) : Roster α :=
  ⟨made.2, r.runners ++ [some made.1]⟩

def act (r : Roster α) : ScheduleAct α → Roster α
  | .addLoop name => { r with scheduler := (r.scheduler.addLoop name).2 }
  | .attach loop => r.enlist (r.scheduler.attach loop)
  | .clone k => (r.runner? k).elim r fun t => r.enlist (r.scheduler.clone t)
  | .detached => r.enlist (.detached, r.scheduler)
  | .postLoop loop delay task => { r with scheduler := (r.scheduler.postLoop loop delay task).2 }
  | .post k delay taskId task =>
    (r.runner? k).elim r fun t => { r with scheduler := (r.scheduler.post t delay taskId task).2 }
  | .remove k taskId =>
    (r.runner? k).elim r fun t => { r with scheduler := (r.scheduler.remove t taskId).2 }
  | .reset k =>
    (r.runner? k).elim r fun t =>
      ⟨(r.scheduler.reset t).2, r.runners.set k (some (r.scheduler.reset t).1)⟩
  | .drop k => (r.runner? k).elim r fun t => ⟨r.scheduler.drop t, r.runners.set k none⟩
  | .take loop => { r with scheduler := ((r.scheduler.next? loop).map (·.2)).getD r.scheduler }
  | .quit loop => { r with scheduler := r.scheduler.quit loop }
  | .notice loop => { r with scheduler := r.scheduler.settleLoop loop }
  | .advance nanos => { r with scheduler := r.scheduler.advance nanos }

/-- A task that is posted now. -/
def posting (r : Roster α) (loop delay : Nat) (task : α) (owner runnerId : Option Nat) (taskId : Nat) :
    Posting α where
  loop
  order := ((r.loop? loop).map (·.queue.nextOrder)).getD 0
  task
  time := r.scheduler.now
  delay
  owner
  runnerId
  taskId

/-- The task that a loop accepts by an act. -/
def accepts (r : Roster α) : ScheduleAct α → List (Posting α)
  | .postLoop loop delay task =>
    if (r.scheduler.postLoop loop delay task).1 then [r.posting loop delay task none none 0] else []
  | .post k delay taskId task =>
    match r.runner? k with
    | some ⟨some loop, id⟩ =>
      if (r.scheduler.post ⟨some loop, id⟩ delay taskId task).1 then
        [r.posting loop delay task (some k) (some id) taskId]
      else []
    | _ => []
  | _ => []

/-- The task that is taken to be run. -/
def executes (r : Roster α) : ScheduleAct α → List (Execution α)
  | .take i =>
    (((r.loop? i).bind fun l => l.queue.next? r.scheduler.now).map
      fun (m, _) => ⟨⟨i, m⟩, r.scheduler.now⟩).toList
  | _ => []

/-- The tasks that are taken back. -/
def takesBack (r : Roster α) (a : ScheduleAct α) : List (Removal α) :=
  match a.request? with
  | none => []
  | some (k, taskId) =>
    match r.runner? k with
    | some ⟨some i, id⟩ =>
      (((r.loop? i).map fun l => (l.queue.remove id taskId).1).getD []).map
        fun m => ⟨⟨i, m⟩, k, taskId⟩
    | _ => []

/-- The tasks that are dropped with the loop. -/
def drops (r : Roster α) : ScheduleAct α → List (Ticket α)
  | .quit i => (((r.loop? i).map fun l => l.queue.quit.1).getD []).map (⟨i, ·⟩)
  | _ => []

/-- What an act does to tasks. -/
def entries (r : Roster α) (a : ScheduleAct α) : Entries α :=
  ⟨r.accepts a, r.executes a, r.takesBack a, r.drops a⟩

/-- Puts a loop into the place of another one. -/
def setLoop (r : Roster α) (i : Nat) (l : Loop α) : Roster α :=
  { r with scheduler := { r.scheduler with loops := r.scheduler.loops.set i l } }

/-! ## One act -/

/-- Whether a runner can take nothing back: it has no loop. -/
def Idle (r : Roster α) (k : Nat) : Prop :=
  ∀ i id, r.runner? k = some ⟨some i, id⟩ → r.loop? i = none

/-- What an act comes to, with what it does to tasks. -/
inductive Deed (r : Roster α) : ScheduleAct α → Roster α → Entries α → Prop where
  | nothing (a : ScheduleAct α) (idle : ∀ k taskId, a.request? = some (k, taskId) → r.Idle k) :
      Deed r a r .empty
  | waits (nanos : Nat) : Deed r (.advance nanos) { r with scheduler := r.scheduler.advance nanos } .empty
  | adds (name : String) :
      Deed r (.addLoop name) { r with scheduler := (r.scheduler.addLoop name).2 } .empty
  /-- A runner is made for a loop, with an id that no other runner of the loop has. -/
  | attaches (a : ScheduleAct α) (i : Nat) (l : Loop α) (other : a.request? = none)
      (present : r.loop? i = some l) :
      Deed r a { r.setLoop i l.attach.2 with runners := r.runners ++ [some ⟨some i, l.runners + 1⟩] } .empty
  | detaches (a : ScheduleAct α) (other : a.request? = none) :
      Deed r a { r with runners := r.runners ++ [some .detached] } .empty
  | posts (a : ScheduleAct α) (p : Posting α) (l : Loop α) (other : a.request? = none)
      (present : r.loop? p.loop = some l) (running : l.queue.quitting = false)
      (order : p.order = l.queue.nextOrder) (time : p.time = r.scheduler.now)
      (owned : (p.owner = none ∧ p.runnerId = none) ∨ ∃ k id,
        p.owner = some k ∧ p.runnerId = some id ∧ r.runner? k = some ⟨some p.loop, id⟩) :
      Deed r a
        (r.setLoop p.loop { l with queue := { l.queue with
          messages := MessageQueue.insert p.ticket.message l.queue.messages
          nextOrder := l.queue.nextOrder + 1 } })
        ⟨[p], [], [], []⟩
  /-- A runner takes back tasks, and may lose its loop if these are all of its tasks. -/
  | takesBack (a : ScheduleAct α) (k i id : Nat) (l : Loop α) (taskId : Option Nat)
      (runners : List (Option TaskRunner)) (asked : a.request? = some (k, taskId))
      (present : r.loop? i = some l) (attached : r.runner? k = some ⟨some i, id⟩)
      (kept : runners = r.runners ∨ taskId = none ∧ ∃ t : Option TaskRunner,
        (∀ u, t = some u → u.loop = none) ∧ runners = r.runners.set k t) :
      Deed r a
        { r.setLoop i { l with queue := { l.queue with
            messages := l.queue.messages.filter fun m => !m.matchedBy id taskId } } with runners }
        ⟨[], [], (l.queue.messages.filter (·.matchedBy id taskId)).map fun m => ⟨⟨i, m⟩, k, taskId⟩, []⟩
  /-- A runner that has no loop ends. -/
  | retires (a : ScheduleAct α) (k : Nat) (t : Option TaskRunner) (asked : a.request? = some (k, none))
      (idle : r.Idle k) (loopless : ∀ u, t = some u → u.loop = none) :
      Deed r a { r with runners := r.runners.set k t } .empty
  | executes (i : Nat) (l : Loop α) (m : Message α) (rest : List (Message α))
      (present : r.loop? i = some l) (running : l.queue.quitting = false)
      (first : l.queue.messages = m :: rest) (due : m.due ≤ r.scheduler.now) :
      Deed r (.take i) (r.setLoop i { l with queue := { l.queue with messages := rest } })
        ⟨[], [⟨⟨i, m⟩, r.scheduler.now⟩], [], []⟩
  | quits (i : Nat) (l : Loop α) (present : r.loop? i = some l) (running : l.queue.quitting = false) :
      Deed r (.quit i)
        (r.setLoop i { l with queue := { l.queue with messages := [], quitting := true } })
        ⟨[], [], [], l.queue.messages.map (⟨i, ·⟩)⟩
  /-- Nothing but the stage of a loop may change. -/
  | marks (a : ScheduleAct α) (i : Nat) (l l' : Loop α) (other : a.request? = none)
      (present : r.loop? i = some l) (queue : l'.queue = l.queue) (runners : l'.runners = l.runners) :
      Deed r a (r.setLoop i l') .empty

theorem update_some {β : Type} {r : Roster α} {i : Nat} {l : Loop α} (present : r.loop? i = some l) (d : β)
    (f : Loop α → β × Loop α) :
    r.scheduler.update i d f = ((f l).1, (r.setLoop i (f l).2).scheduler) := by
  unfold Scheduler.update
  rw [show r.scheduler.loops[i]? = some l from present]
  rfl

theorem update_none {β : Type} {r : Roster α} {i : Nat} (present : r.loop? i = none) (d : β)
    (f : Loop α → β × Loop α) : r.scheduler.update i d f = (d, r.scheduler) := by
  unfold Scheduler.update
  rw [show r.scheduler.loops[i]? = none from present]

/-- A runner is made for a loop; if there is no such loop, it is a detached one. -/
theorem attach_deed (r : Roster α) (a : ScheduleAct α) (i : Nat) (other : a.request? = none) :
    Deed r a (r.enlist (r.scheduler.attach i)) .empty := by
  unfold Scheduler.attach
  cases h : r.loop? i with
  | none =>
    rw [update_none h]
    exact .detaches a other
  | some l =>
    rw [update_some h]
    exact .attaches a i l other h

/-- A task is posted to a loop, which accepts it unless it is ending. -/
theorem post_deed (r : Roster α) (a : ScheduleAct α) (i delay : Nat) (task : α) (owner runnerId : Option Nat)
    (taskId : Nat) (other : a.request? = none)
    (owned : (owner = none ∧ runnerId = none) ∨ ∃ k id,
      owner = some k ∧ runnerId = some id ∧ r.runner? k = some ⟨some i, id⟩) :
    let posted := r.scheduler.update i false fun l => l.post r.scheduler.now delay task runnerId taskId
    Deed r a { r with scheduler := posted.2 }
      ⟨if posted.1 then [r.posting i delay task owner runnerId taskId] else [], [], [], []⟩ := by
  have hidle : ∀ k taskId, a.request? = some (k, taskId) → r.Idle k := by
    intro k taskId hasked
    rw [other] at hasked
    cases hasked
  cases h : r.loop? i with
  | none =>
    rw [update_none h]
    exact .nothing a hidle
  | some l =>
    rw [update_some h]
    cases hq : l.queue.quitting with
    | true =>
      rw [Loop.post_refused hq]
      exact .marks a i l l other h rfl rfl
    | false =>
      have horder : (r.posting i delay task owner runnerId taskId).order = l.queue.nextOrder := by
        simp [posting, h]
      have hdeed := Deed.posts a (r.posting i delay task owner runnerId taskId) l other h hq horder rfl owned
      rw [Posting.ticket, horder] at hdeed
      rw [Loop.post_running hq]
      exact hdeed

/-- What is taken back, and what of the loop is left. -/
theorem remove_deed (r : Roster α) (a : ScheduleAct α) (k : Nat) (t : TaskRunner) (taskId : Option Nat)
    (runners : List (Option TaskRunner)) (asked : a.request? = some (k, taskId)) (known : r.runner? k = some t)
    (kept : runners = r.runners ∨ taskId = none ∧ ∃ t : Option TaskRunner,
      (∀ u, t = some u → u.loop = none) ∧ runners = r.runners.set k t) :
    Deed r a ⟨(r.scheduler.remove t taskId).2, runners⟩ ⟨[], [], r.takesBack a, []⟩ := by
  -- without a loop nothing is taken back
  have hloopless (hidle : r.Idle k) (hnone : r.takesBack a = []) :
      Deed r a ⟨r.scheduler, runners⟩ ⟨[], [], r.takesBack a, []⟩ := by
    rw [hnone]
    rcases kept with rfl | ⟨rfl, t', ht', rfl⟩
    · refine .nothing a fun k' taskId' hasked => ?_
      rw [asked] at hasked
      cases hasked
      exact hidle
    · exact .retires a k t' asked hidle ht'
  obtain ⟨loop, id⟩ := t
  cases loop with
  | none =>
    refine hloopless (fun i id' hk => ?_) (by simp [takesBack, asked, known])
    rw [known] at hk
    cases hk
  | some i =>
    cases h : r.loop? i with
    | none =>
      have hremove : r.scheduler.remove ⟨some i, id⟩ taskId = (0, r.scheduler) :=
        update_none h 0 fun l => l.remove id taskId
      rw [hremove]
      refine hloopless (fun i' id' hk => ?_) (by simp [takesBack, asked, known, h])
      rw [known] at hk
      cases hk
      exact h
    | some l =>
      have hremove : r.scheduler.remove ⟨some i, id⟩ taskId = ((l.remove id taskId).1,
          (r.setLoop i (l.remove id taskId).2).scheduler) := update_some h 0 fun l => l.remove id taskId
      have hdeed := Deed.takesBack a k i id l taskId runners asked h known kept
      rw [hremove]
      simpa [takesBack, asked, known, h, Loop.remove, MessageQueue.remove, List.partition_eq_filter_filter,
        Function.comp_def] using hdeed

theorem take_deed (r : Roster α) (i : Nat) : Deed r (.take i) (r.act (.take i)) (r.entries (.take i)) := by
  have hnothing : Deed r (.take i) r .empty := .nothing _ fun _ _ hasked => nomatch hasked
  cases h : r.loop? i with
  | none =>
    have hact : r.act (.take i) = r := by
      simp [act, Scheduler.next?, show r.scheduler.loops[i]? = none from h]
    have hentries : r.entries (.take i) = .empty := by
      simp [entries, accepts, executes, takesBack, drops, ScheduleAct.request?, h, Entries.empty]
    rw [hact, hentries]
    exact hnothing
  | some l =>
    cases hn : l.queue.next? r.scheduler.now with
    | none =>
      have hact : r.act (.take i) = r := by
        simp [act, Scheduler.next?, Loop.next?, show r.scheduler.loops[i]? = some l from h, hn]
      have hentries : r.entries (.take i) = .empty := by
        simp [entries, accepts, executes, takesBack, drops, ScheduleAct.request?, h, hn, Entries.empty]
      rw [hact, hentries]
      exact hnothing
    | some next =>
      obtain ⟨m, q⟩ := next
      obtain ⟨running, first, rest⟩ := MessageQueue.next?_eq_some hn
      have hact : r.act (.take i) = r.setLoop i { l with queue := q } := by
        simp [act, Scheduler.next?, Loop.next?, show r.scheduler.loops[i]? = some l from h, hn, setLoop]
      have hentries : r.entries (.take i) = ⟨[], [⟨⟨i, m⟩, r.scheduler.now⟩], [], []⟩ := by
        simp [entries, accepts, executes, takesBack, drops, ScheduleAct.request?, h, hn]
      rw [hact, hentries, rest]
      exact .executes i l m q.messages h running first (MessageQueue.next?_due hn)

theorem act_deed (r : Roster α) (a : ScheduleAct α) : Deed r a (r.act a) (r.entries a) := by
  -- a runner that is not there takes nothing back
  have hunknown {k : Nat} (hk : r.runner? k = none) (taskId : Option Nat)
      (hasked : a.request? = some (k, taskId)) :
      ∀ k' taskId', a.request? = some (k', taskId') → r.Idle k' := by
    intro k' taskId' hasked' i id hk'
    rw [hasked] at hasked'
    cases hasked'
    rw [hk] at hk'
    cases hk'
  cases a with
  | addLoop name => exact .adds name
  | attach i => exact r.attach_deed _ i rfl
  | clone k =>
    show Deed r _ ((r.runner? k).elim r fun t => r.enlist (r.scheduler.clone t)) .empty
    cases hk : r.runner? k with
    | none => exact .nothing _ fun _ _ hasked => nomatch hasked
    | some t =>
      obtain ⟨loop, id⟩ := t
      cases loop with
      | none => exact .detaches _ rfl
      | some i => exact r.attach_deed _ i rfl
  | detached => exact .detaches _ rfl
  | postLoop i delay task => exact r.post_deed _ i delay task none none 0 rfl (.inl ⟨rfl, rfl⟩)
  | post k delay taskId task =>
    cases hk : r.runner? k with
    | none =>
      simp only [act, entries, accepts, hk]
      exact .nothing _ fun _ _ hasked => nomatch hasked
    | some t =>
      obtain ⟨loop, id⟩ := t
      simp only [act, entries, accepts, hk]
      cases loop with
      | none => exact .nothing _ fun _ _ hasked => nomatch hasked
      | some i =>
        exact r.post_deed _ i delay task (some k) (some id) taskId rfl (.inr ⟨k, id, rfl, rfl, hk⟩)
  | remove k taskId =>
    cases hk : r.runner? k with
    | none =>
      simp only [act, entries, accepts, executes, takesBack, drops, ScheduleAct.request?, hk]
      exact .nothing _ (hunknown hk _ rfl)
    | some t =>
      simp only [act, hk]
      exact r.remove_deed _ k t taskId r.runners rfl hk (.inl rfl)
  | reset k =>
    cases hk : r.runner? k with
    | none =>
      simp only [act, entries, accepts, executes, takesBack, drops, ScheduleAct.request?, hk]
      exact .nothing _ (hunknown hk _ rfl)
    | some t =>
      simp only [act, hk]
      exact r.remove_deed _ k t none _ rfl hk (.inr ⟨rfl, _, by rintro u ⟨⟩; rfl, rfl⟩)
  | drop k =>
    cases hk : r.runner? k with
    | none =>
      simp only [act, entries, accepts, executes, takesBack, drops, ScheduleAct.request?, hk]
      exact .nothing _ (hunknown hk _ rfl)
    | some t =>
      simp only [act, hk]
      exact r.remove_deed _ k t none _ rfl hk (.inr ⟨rfl, none, by simp, rfl⟩)
  | take i => exact r.take_deed i
  | quit i =>
    cases h : r.loop? i with
    | none =>
      simp only [act, Scheduler.quit, update_none h, entries, accepts, executes, takesBack, drops,
        ScheduleAct.request?, h]
      exact .nothing _ fun _ _ hasked => nomatch hasked
    | some l =>
      have hact : r.act (.quit i) = r.setLoop i l.quit := by
        simp only [act, Scheduler.quit, update_some h]
        rfl
      have hentries : r.entries (.quit i) = ⟨[], [], [], l.queue.quit.1.map (⟨i, ·⟩)⟩ := by
        simp only [entries, accepts, executes, takesBack, drops, ScheduleAct.request?, h, Option.map_some,
          Option.getD_some]
      rw [hact, hentries]
      unfold Loop.quit MessageQueue.quit
      cases hq : l.queue.quitting with
      | true => exact .marks _ i l _ rfl h rfl rfl
      | false => exact .quits i l h hq
  | notice i =>
    cases h : r.loop? i with
    | none =>
      simp only [act, Scheduler.settleLoop, update_none h]
      exact .nothing _ fun _ _ hasked => nomatch hasked
    | some l =>
      simp only [act, Scheduler.settleLoop, update_some h]
      refine .marks _ i l _ rfl h ?_ ?_
      · split <;> rfl
      · split <;> rfl
  | advance nanos => exact .waits nanos

end Roster
end Playback
