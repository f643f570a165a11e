import Playback.Schedule.MessageQueue

/-!
# Loops and runners

A loop has a thread of its own, which runs the tasks posted to it one after the other. A runner posts tasks
to one loop and can take back those of its own that have not started; each runner has an id within its
loop, and a copy of a runner is a new runner. A detached runner has no loop and posts nothing.
-/

namespace Playback

/-- The stage of a loop's life. -/
inductive LoopStage where
  | uninitialized
  | prepared
  | looping
  | quit
deriving Repr, DecidableEq

def LoopStage.name : LoopStage → String
  | .uninitialized => "uninitialized"
  | .prepared => "prepared"
  | .looping => "looping"
  | .quit => "quit"

def LoopStage.title : LoopStage → String
  | .uninitialized => "Uninitialized"
  | .prepared => "Prepared"
  | .looping => "Looping"
  | .quit => "Quit"

/-- The longest delay of a task, in nanoseconds: a day. -/
def maxDelay : Nat := 24 * 60 * 60 * 1000000000

/-- Nanoseconds from milliseconds. -/
def millis (n : Nat) : Nat := n * 1000000

structure Loop (α : Type) where
  name : String
  queue : MessageQueue α
  stage : LoopStage
  /-- How many runners were made for this loop; the last one has this id. -/
  runners : Nat
deriving Repr

namespace Loop

variable {α : Type}

/-- A loop whose thread has just been started. -/
def new (name : String) : Loop α :=
  ⟨name, .empty, .looping, 0⟩

/-- Posts a task that may run after a delay of at most a day; tells whether it was accepted. -/
def post (l : Loop α) (now delay : Nat) (task : α) (runner : Option Nat := none) (taskId : Nat := 0) :
    Bool × Loop α :=
  let (accepted, queue) := l.queue.enqueue (.new task (now + min delay maxDelay) runner taskId)
  (accepted, { l with queue })

/-- Makes a runner and returns its id. -/
def attach (l : Loop α) : Nat × Loop α :=
  (l.runners + 1, { l with runners := l.runners + 1 })

/-- Takes back tasks of a runner; returns how many. -/
def remove (l : Loop α) (runner : Nat) (taskId : Option Nat := none) : Nat × Loop α :=
  let (removed, queue) := l.queue.remove runner taskId
  (removed.length, { l with queue })

/-- The next task to run at a time, taken off the queue. -/
def next? (l : Loop α) (now : Nat) : Option (α × Loop α) :=
  (l.queue.next? now).map fun (m, queue) => (m.task, { l with queue })

/-- Asks the loop to end: waiting tasks are dropped. Its thread has yet to notice. -/
def quit (l : Loop α) : Loop α :=
  { l with queue := l.queue.quit.2 }

/-- The thread has noticed that the loop shall end. -/
def finish (l : Loop α) : Loop α :=
  { l with stage := .quit }

/-- Whether the thread has yet to notice that the loop shall end. -/
def isEnding (l : Loop α) : Bool :=
  l.queue.quitting && l.stage ≠ .quit

end Loop
end Playback
