import Playback.Schedule.Loop
import Playback.Text.Quoted

/-!
# Schedulers: several loops and their runners

A scheduler is a number of loops under one virtual time. Tasks are posted to a loop directly or through a
runner; they are data of a type `α`, and whoever runs them decides what they do.
-/

namespace Playback

/-- A runner: the loop it posts to, if it is attached, and its id there. -/
structure TaskRunner where
  loop : Option Nat
  id : Nat
deriving Repr, DecidableEq

/-- A runner without a loop. -/
def TaskRunner.detached : TaskRunner :=
  ⟨none, 0⟩

structure Scheduler (α : Type) where
  /-- The present time in nanoseconds. -/
  now : Nat
  loops : List (Loop α)
deriving Repr

namespace Scheduler

variable {α : Type}

def empty : Scheduler α :=
  ⟨0, []⟩

/-- Lets time pass. -/
def advance (s : Scheduler α) (nanos : Nat) : Scheduler α :=
  { s with now := s.now + nanos }

/-- Makes a loop and returns its number. -/
def addLoop (s : Scheduler α) (name : String) : Nat × Scheduler α :=
  (s.loops.length, { s with loops := s.loops ++ [.new name] })

/-- Applies a change to a loop; without such a loop the result is `default`. -/
def update {β : Type} (s : Scheduler α) (loop : Nat) (default : β) (f : Loop α → β × Loop α) :
    β × Scheduler α :=
  match s.loops[loop]? with
  | none => (default, s)
  | some l =>
    let (result, l) := f l
    (result, { s with loops := s.loops.set loop l })

/-- Makes a runner for a loop. -/
def attach (s : Scheduler α) (loop : Nat) : TaskRunner × Scheduler α :=
  s.update loop .detached fun l =>
    let (id, l) := l.attach
    (⟨some loop, id⟩, l)

/-- Makes another runner for the same loop. -/
def clone (s : Scheduler α) (r : TaskRunner) : TaskRunner × Scheduler α :=
  match r.loop with
  | none => (.detached, s)
  | some loop => s.attach loop

/-- Posts a task to a loop on nobody's behalf; tells whether it was accepted. -/
def postLoop (s : Scheduler α) (loop delay : Nat) (task : α) : Bool × Scheduler α :=
  s.update loop false fun l => l.post s.now delay task

/-- Posts a task through a runner; tells whether it was accepted. -/
def post (s : Scheduler α) (r : TaskRunner) (delay taskId : Nat) (task : α) : Bool × Scheduler α :=
  match r.loop with
  | none => (false, s)
  | some loop => s.update loop false fun l => l.post s.now delay task (some r.id) taskId

/-- Takes back tasks that were posted through a runner and have not started, of one id or all; returns how
many. -/
def remove (s : Scheduler α) (r : TaskRunner) (taskId : Option Nat := none) : Nat × Scheduler α :=
  match r.loop with
  | none => (0, s)
  | some loop => s.update loop 0 fun l => l.remove r.id taskId

/-- Takes back all tasks of a runner and detaches it. -/
def reset (s : Scheduler α) (r : TaskRunner) : TaskRunner × Scheduler α :=
  ({ r with loop := none }, (s.remove r).2)

/-- A runner ends: all its tasks are taken back. -/
def drop (s : Scheduler α) (r : TaskRunner) : Scheduler α :=
  (s.remove r).2

/-- Ends a loop. -/
def quit (s : Scheduler α) (loop : Nat) : Scheduler α :=
  (s.update loop () fun l => ((), l.quit)).2

/-- The next task of a loop whose time has come, taken off its queue. -/
def next? (s : Scheduler α) (loop : Nat) : Option (α × Scheduler α) := do
  let l ← s.loops[loop]?
  let (task, l) ← l.next? s.now
  return (task, { s with loops := s.loops.set loop l })

/-- The thread of a loop notices that the loop has ended, if it has. -/
def settleLoop (s : Scheduler α) (loop : Nat) : Scheduler α :=
  (s.update loop () fun l => ((), if l.isEnding then l.finish else l)).2

/-- The name of a runner's loop. -/
def loopName? (s : Scheduler α) (r : TaskRunner) : Option String :=
  (r.loop.bind fun loop => s.loops[loop]?).map (·.name)

/-- A description of a runner. -/
def describeRunner (s : Scheduler α) (r : TaskRunner) : String :=
  let loop :=
    match s.loopName? r with
    | none => "None"
    | some name => "Some(" ++ Text.quoted name ++ ")"
  "TaskRunner \x7b loop: " ++ loop ++ ", id: " ++ Nat.repr r.id ++ " \x7d"

end Scheduler

/-- A description of a loop. -/
def Loop.describe {α : Type} (l : Loop α) : String :=
  "MessageLoop \x7b name: " ++ Text.quoted l.name ++ ", state: " ++ l.stage.title ++ " \x7d"

end Playback
