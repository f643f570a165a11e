import Playback.Schedule.Rest
import Playback.Schedule.Scheduler

/-!
# Programs: what users of loops do, as data

A command works on loops and runners that have names. Commands are given from outside of all loops, or by a
task while it runs; a job is such a task, and the commands it gives are part of it. `Program.give` carries
out one command and `Program.rest` runs the loops until none of them has anything to do, so that a whole
history of posts, removals and runs is a list of commands with the notes that the tasks leave behind.
-/

namespace Playback

/-- A command on named loops and runners. Jobs and the commands inside them have labels, under which they
are noted. -/
inductive Command (L : Type) where
  /-- Makes a loop; a loop that had the name before is ended. -/
  | loop (name : String)
  /-- Makes a runner for a loop. -/
  | runner (loop name : String)
  /-- Makes a second runner for the loop of a runner. -/
  | clone (runner name : String)
  | detached (name : String)
  | postLoop (loop : String) (delay : Nat) (label : L) (commands : List (L × Command L))
  | post (runner : String) (delay taskId : Nat) (label : L) (commands : List (L × Command L))
  | remove (runner : String) (taskId : Option Nat)
  /-- Asks whether the present task runs on a loop, or on the loop of a runner. -/
  | belongs (name : String)
  | reset (runner : String)
  | drop (runner : String)
  | quit (loop : String)
  /-- Ends a loop and waits for its thread. -/
  | join (loop : String)
  | advance (nanos : Nat)
  /-- Asks for a runner of the present loop. -/
  | current
deriving Inhabited

/-- The answer to a command. -/
inductive Reply where
  | done
  | yes (answer : Bool)
  | count (n : Nat)
  | described (text : String)
  /-- Whether the present task runs on the runner's loop, and which loop that is. -/
  | membership (here : Bool) (loop : Option String)
  /-- The description of a runner that was detached. -/
  | unbound (text : String)
  /-- The description of a new runner of the present loop, and the loop's name. -/
  | present (runner : Option (String × Option String))

/-- A task: its label and the commands it gives. -/
structure Job (L : Type) where
  label : L
  commands : List (L × Command L)

/-- What a task leaves behind. -/
inductive JobNote (L : Type) where
  /-- The task ran on this loop. -/
  | ran (label : L) (loop : String)
  | replied (label : L) (reply : Reply)

structure Program (L : Type) where
  scheduler : Scheduler (Job L)
  loops : List (String × Nat)
  runners : List (String × TaskRunner)
  /-- Newest first. -/
  notes : List (JobNote L)

namespace Program

variable {L : Type}

def empty : Program L :=
  ⟨.empty, [], [], []⟩

/-- Gives a runner a name; the runner that had the name before ends. -/
def bind (p : Program L) (name : String) (r : TaskRunner) : Program L :=
  { p with
    scheduler := ((p.runners.lookup name).map p.scheduler.drop).getD p.scheduler
    runners := (name, r) :: p.runners.filter (·.1 != name) }

/-- Ends a loop and forgets its name. -/
def endLoop (p : Program L) (name : String) : Program L :=
  match p.loops.lookup name with
  | none => p
  | some i => { p with scheduler := p.scheduler.quit i, loops := p.loops.filter (·.1 != name) }

/-- Gives a new runner a name and describes it. -/
def introduce (p : Program L) (name : String) (made : TaskRunner × Scheduler (Job L)) :
    Reply × Program L :=
  (.described (made.2.describeRunner made.1), { p with scheduler := made.2 }.bind name made.1)

/-- Carries out a command that was given from a loop or from outside of all. -/
def give (p : Program L) (here : Option Nat) : Command L → Reply × Program L
  | .loop name =>
    let p := p.endLoop name
    let (i, scheduler) := p.scheduler.addLoop name
    (.done, { p with scheduler, loops := (name, i) :: p.loops })
  | .runner loop name =>
    match p.loops.lookup loop with
    | none => (.done, p)
    | some i => p.introduce name (p.scheduler.attach i)
  | .clone runner name =>
    match p.runners.lookup runner with
    | none => (.done, p)
    | some r => p.introduce name (p.scheduler.clone r)
  | .detached name => p.introduce name (.detached, p.scheduler)
  | .postLoop loop delay label commands =>
    match p.loops.lookup loop with
    | none => (.yes false, p)
    | some i =>
      let (accepted, scheduler) := p.scheduler.postLoop i delay ⟨label, commands⟩
      (.yes accepted, { p with scheduler })
  | .post runner delay taskId label commands =>
    match p.runners.lookup runner with
    | none => (.yes false, p)
    | some r =>
      let (accepted, scheduler) := p.scheduler.post r delay taskId ⟨label, commands⟩
      (.yes accepted, { p with scheduler })
  | .remove runner taskId =>
    match p.runners.lookup runner with
    | none => (.count 0, p)
    | some r =>
      let (n, scheduler) := p.scheduler.remove r taskId
      (.count n, { p with scheduler })
  | .belongs name =>
    match p.runners.lookup name with
    | some r => (.membership (r.loop.isSome && r.loop == here) (p.scheduler.loopName? r), p)
    | none => (.yes ((p.loops.lookup name).isSome && p.loops.lookup name == here), p)
  | .reset runner =>
    match p.runners.lookup runner with
    | none => (.done, p)
    | some r =>
      let (r, scheduler) := p.scheduler.reset r
      (.unbound (scheduler.describeRunner r),
        { p with scheduler, runners := (runner, r) :: p.runners.filter (·.1 != runner) })
  | .drop runner =>
    match p.runners.lookup runner with
    | none => (.yes true, p)
    | some r => (.yes true,
      { p with scheduler := p.scheduler.drop r, runners := p.runners.filter (·.1 != runner) })
  | .quit loop =>
    match p.loops.lookup loop with
    | none => (.done, p)
    | some i => (.done, { p with scheduler := p.scheduler.quit i })
  | .join loop => (.done, p.endLoop loop)
  | .advance nanos => (.done, { p with scheduler := p.scheduler.advance nanos })
  | .current =>
    match here with
    | none => (.present none, p)
    | some i =>
      let (r, scheduler) := p.scheduler.attach i
      (.present (some (scheduler.describeRunner r, scheduler.loopName? r)), { p with scheduler })

/-- Runs a task of a loop. -/
def runJob (p : Program L) (loop : Nat) (job : Job L) : Program L :=
  let name := ((p.scheduler.loops[loop]?).map (·.name)).getD ""
  job.commands.foldl
    (fun p (label, command) =>
      let (reply, p) := p.give (some loop) command
      { p with notes := .replied label reply :: p.notes })
    { p with notes := .ran job.label name :: p.notes }

/-- The first loop with a task whose time has come, and the task, taken off its queue. -/
def ready? (p : Program L) : Option (Nat × Job L × Scheduler (Job L)) :=
  (List.range p.scheduler.loops.length).findSome? fun i =>
    (p.scheduler.next? i).map fun (job, scheduler) => (i, job, scheduler)

/-- Runs one task, if there is one whose time has come. -/
def step? (p : Program L) : Option (Program L) :=
  p.ready?.map fun (i, job, scheduler) => { p with scheduler }.runJob i job

/-- Runs the loops until none has anything to do, at most so many tasks. -/
def rest (p : Program L) (fuel : Nat) : Program L :=
  let p := settle step? fuel p
  { p with
    scheduler := (List.range p.scheduler.loops.length).foldl Scheduler.settleLoop p.scheduler }

end Program
end Playback
