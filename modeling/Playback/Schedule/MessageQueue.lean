/-!
# Message queues

A message is a task with a deadline. Messages are taken in the order of their deadlines, and those with the
same deadline in the order in which they were put in; the queue keeps them in that order. A message may
belong to a runner, which can take back what it put in. Once a queue quits it drops what it holds and takes
nothing any more. Times are nanoseconds.
-/

namespace Playback

structure Message (α : Type) where
  task : α
  /-- The earliest time at which the task may run. -/
  due : Nat
  /-- The place in the order of putting in. -/
  order : Nat
  /-- The runner it belongs to, if any. -/
  runner : Option Nat
  taskId : Nat
deriving Repr

namespace Message

variable {α : Type}

/-- A message that is not in a queue yet. -/
def new (task : α) (due : Nat) (runner : Option Nat) (taskId : Nat) : Message α :=
  ⟨task, due, 0, runner, taskId⟩

/-- Whether a message comes before another one. -/
def before (a b : Message α) : Bool :=
  a.due < b.due || (a.due == b.due && a.order < b.order)

/-- Messages are ordered by urgency: the greater one is the one that comes first. -/
def urgency (a b : Message α) : Ordering :=
  if a.before b then .gt else if b.before a then .lt else .eq

/-- Whether a runner's request to take back tasks, of one id or of all, means this message. -/
def matchedBy (m : Message α) (runner : Nat) (taskId : Option Nat) : Bool :=
  m.runner == some runner && taskId.all (· == m.taskId)

end Message

/-- What comes of waiting for a message. -/
inductive Awaited (α β : Type) where
  | message (m : Message α) (time : Nat) (rest : β)
  /-- Nothing will come any more. -/
  | quitting
  /-- Nothing is there: the wait lasts until a message is put in. -/
  | forever

structure MessageQueue (α : Type) where
  /-- The messages, first to last. -/
  messages : List (Message α)
  /-- The place of the next message in the order of putting in. -/
  nextOrder : Nat
  quitting : Bool
deriving Repr

namespace MessageQueue

variable {α : Type}

def empty : MessageQueue α :=
  ⟨[], 0, false⟩

def length (q : MessageQueue α) : Nat :=
  q.messages.length

def isEmpty (q : MessageQueue α) : Bool :=
  q.messages.isEmpty

/-- The list with a message put in its place. -/
def insert (m : Message α) : List (Message α) → List (Message α)
  | [] => [m]
  | first :: rest => if m.before first then m :: first :: rest else first :: insert m rest

/-- Puts a message in; a queue that quits refuses. -/
def enqueue (q : MessageQueue α) (m : Message α) : Bool × MessageQueue α :=
  if q.quitting then (false, q)
  else
    (true, { q with
      messages := insert { m with order := q.nextOrder } q.messages
      nextOrder := q.nextOrder + 1 })

/-- Takes the first message if its time has come. -/
def next? (q : MessageQueue α) (now : Nat) : Option (Message α × MessageQueue α) :=
  if q.quitting then none
  else
    match q.messages with
    | [] => none
    | m :: rest => if m.due ≤ now then some (m, { q with messages := rest }) else none

/-- Waits for the first message; gives it and the time at which it is taken. -/
def await (q : MessageQueue α) (now : Nat) : Awaited α (MessageQueue α) :=
  if q.quitting then .quitting
  else
    match q.messages with
    | [] => .forever
    | m :: rest => .message m (max now m.due) { q with messages := rest }

/-- Takes back the tasks of a runner, of one id or all; returns what was taken back. -/
def remove (q : MessageQueue α) (runner : Nat) (taskId : Option Nat) :
    List (Message α) × MessageQueue α :=
  let (removed, kept) := q.messages.partition (·.matchedBy runner taskId)
  (removed, { q with messages := kept })

/-- Drops all messages and takes none any more; returns what was dropped. -/
def quit (q : MessageQueue α) : List (Message α) × MessageQueue α :=
  if q.quitting then ([], q) else (q.messages, { q with messages := [], quitting := true })

end MessageQueue
end Playback
