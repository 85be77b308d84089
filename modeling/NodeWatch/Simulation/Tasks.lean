import NodeWatch.Monitor.Supervisor
import NodeWatch.Simulation.Sleep

/-!
# Supervised tasks in virtual time

A supervisor among tasks whose bodies follow a script, and a clock that only
moves when it is told to. As in a simulated session, what is going to happen
is a job that waits for a number of turns, and all jobs take their turns in
the order in which they began to wait. What happens is noted in a log.

## Main definitions

* `Simulation.Body`: The scripts of bodies.
* `Simulation.TaskWorld`: A supervisor and everything around it.
* `Simulation.TaskWorld.spawn`, `cancel`, `join`, `shutdown`, `unlock`: What
  is done to it from outside.
* `Simulation.TaskWorld.settle`, `Simulation.TaskWorld.advance`: What happens
  without and with time passing.
-/

namespace NodeWatch

namespace Simulation

open Monitor (Supervisor SpawnFault Ending)

/-- The script of a body. -/
inductive Body where
  | finish
  | fail (noticed : Bool) (message : Text)
  /-- It sleeps and makes a note of it, over and over. -/
  | tick (ms : Double)
  /-- It sleeps once. -/
  | nap (ms : Double)
  /-- It waits to be cancelled and fails then. -/
  | failOnCancel (noticed : Bool)
  /-- It waits to be let through. -/
  | gate
deriving DecidableEq

/-- What is going to happen. -/
inductive TaskJob where
  /-- The body of a task ends. -/
  | ending (task : Nat) (ending : Ending)
  /-- A sleep of a task is over, its whole time or cut short. -/
  | woken (task : Nat) (whole : Bool)
  /-- A task is let through. -/
  | unlocked (task : Nat)
  /-- Someone who waited for a task sees its end. -/
  | joined (name : Text)
  /-- Someone who waited for a shutdown sees its end. -/
  | shutDown

/-- Who waits for the end of tasks. -/
inductive Waiter where
  | forTask (task : Nat) (name : Text)
  /-- A shutdown is known by its place among all of them. -/
  | forShutdown (shutdown : Nat)

/-- The turns before someone sees the end of a task. -/
def joinTurns : Nat := 2

/-- The turns before someone sees the end of the last task of a shutdown. -/
def shutdownTurns : Nat := 3

/-- The turns before someone sees the end of a shutdown of nothing. -/
def emptyShutdownTurns : Nat := 2

/-- The turns from the end of a sleep to the body. -/
def wokenTurns : Nat := 2

/-- The message of a body that fails when it is cancelled. -/
def cancelMessage : Text := "stop"

/-- A supervisor and everything around it. -/
structure TaskWorld where
  supervisor : Supervisor
  /-- The bodies of the tasks, by number. -/
  bodies : List Body
  /-- The last task of each name, in the order in which the names came up. -/
  names : List (Text × Nat)
  /-- The last task of each name that waits to be let through. -/
  gates : List (Text × Nat)
  now : Double
  jobs : List (Nat × TaskJob)
  /-- The sleeps of the tasks. -/
  sleeps : List (Sleep Nat)
  nextSleep : Nat
  waiters : List Waiter
  log : List Text

/-- The pairs with a key set to a value, in its old place if it had one. -/
def setKey (key : Text) (value : Nat) : List (Text × Nat) → List (Text × Nat)
  | [] => [(key, value)]
  | (k, v) :: rest => if k = key then (k, value) :: rest else (k, v) :: setKey key value rest

namespace TaskWorld

/-- A world without tasks. -/
def initial : TaskWorld where
  supervisor := .initial
  bodies := []
  names := []
  gates := []
  now := 0
  jobs := []
  sleeps := []
  nextSleep := 0
  waiters := []
  log := []

/-- The world with one more job. -/
def enqueue (w : TaskWorld) (turns : Nat) (job : TaskJob) : TaskWorld :=
  { w with jobs := w.jobs ++ [(turns, job)] }

/-- The world with a note in the log. -/
def note (w : TaskWorld) (text : Text) : TaskWorld := { w with log := w.log ++ [text] }

/-- The name of a task. -/
def nameOf (w : TaskWorld) (task : Nat) : Text :=
  (w.supervisor.tasks[task]?.map (·.name)).getD []

/-- Whether a task was asked to stop. -/
def isCancelled (w : TaskWorld) (task : Nat) : Bool :=
  (w.supervisor.tasks[task]?.map (·.cancelled)).getD false

/-- Whether a task has ended. -/
def isEnded (w : TaskWorld) (task : Nat) : Bool :=
  (w.supervisor.tasks[task]?.map (·.ended)).getD true

/-- A task goes to sleep, unless it was asked to stop. -/
def sleep (w : TaskWorld) (task : Nat) (ms : Double) : TaskWorld :=
  if w.isCancelled task then w.enqueue 1 (.woken task false)
  else { w with
    sleeps := w.sleeps ++ [⟨w.now + sleepLength ms, w.nextSleep, task⟩]
    nextSleep := w.nextSleep + 1 }

/-- The first part of a body, up to where it waits for something. -/
def runBody (w : TaskWorld) (task : Nat) : Body → TaskWorld
  | .finish => w.enqueue 1 (.ending task .finished)
  | .fail noticed message => w.enqueue 1 (.ending task (.failed noticed message))
  | .tick ms => w.sleep task ms
  | .nap ms => w.sleep task ms
  | .failOnCancel _ => w
  | .gate => { w with gates := setKey (w.nameOf task) task w.gates }

/-- A task begins. -/
def spawn (w : TaskWorld) (name : Text) (body : Body) : Except SpawnFault TaskWorld :=
  (w.supervisor.spawn name).map fun supervisor =>
    let task := w.bodies.length
    { w with
      supervisor
      bodies := w.bodies ++ [body]
      names := setKey name task w.names }.runBody task body

/-- A task is asked to stop, for the first time or again. -/
def cancelTask (w : TaskWorld) (task : Nat) : TaskWorld :=
  if w.isCancelled task then w
  else
    let w := { w with supervisor := w.supervisor.cancel task }
    if w.sleeps.any (·.job = task) then
      { w with sleeps := w.sleeps.filter (·.job ≠ task) }.enqueue wokenTurns (.woken task false)
    else
      match w.bodies[task]? with
      | some (.failOnCancel noticed) =>
        if w.isEnded task then w else w.enqueue 2 (.ending task (.failed noticed cancelMessage))
      | _ => w

/-- The last task of a name. -/
def find? (w : TaskWorld) (name : Text) : Option Nat := w.names.lookup name

/-- The last task of a name is asked to stop. -/
def cancel (w : TaskWorld) (name : Text) : TaskWorld :=
  (w.find? name).elim w w.cancelTask

/-- Someone begins to wait for the last task of a name. -/
def join (w : TaskWorld) (name : Text) : TaskWorld :=
  match w.find? name with
  | none => w
  | some task =>
    if w.isEnded task then w.enqueue joinTurns (.joined name)
    else { w with waiters := w.waiters ++ [.forTask task name] }

/-- The last task that waits under a name is let through. -/
def unlock (w : TaskWorld) (name : Text) : TaskWorld :=
  match w.gates.lookup name with
  | none => w
  | some task =>
    { w with gates := w.gates.filter (·.1 ≠ name) }.enqueue 1 (.unlocked task)

/-- A shutdown, and someone who waits for its end. -/
def shutdown (w : TaskWorld) : TaskWorld :=
  let number := w.supervisor.shutdowns.length
  let w := w.supervisor.underWay.foldl cancelTask w
  let w := { w with supervisor := w.supervisor.shutdown }
  if w.supervisor.isOver number then w.enqueue emptyShutdownTurns .shutDown
  else { w with waiters := w.waiters ++ [.forShutdown number] }

/-- The end of a task as one who waits sees it, who knows the tasks as they were
    before. -/
def notice (before : Supervisor) (task : Nat) (w : TaskWorld) (waiter : Waiter) : TaskWorld :=
  match waiter with
  | .forTask awaited name => if awaited = task then w.enqueue joinTurns (.joined name) else w
  | .forShutdown number =>
    if !before.isOver number && w.supervisor.isOver number then
      w.enqueue shutdownTurns .shutDown
    else w

/-- The body of a task ends. -/
def finish (w : TaskWorld) (task : Nat) (ending : Ending) : TaskWorld :=
  let before := w.supervisor
  let (report, supervisor) := before.finish task ending
  let w := { w with supervisor }
  let w := (report.map fun r => ("error " : Text) ++ r).elim w w.note
  w.waiters.foldl (notice before task) w

/-- A body goes on after a sleep. -/
def goOn (w : TaskWorld) (task : Nat) (whole : Bool) : TaskWorld :=
  let name := w.nameOf task
  match w.bodies[task]? with
  | some (.tick ms) =>
    if whole then (w.note ("tick " ++ name)).sleep task ms
    else (w.note ("end " ++ name)).enqueue 1 (.ending task .finished)
  | _ =>
    let result : Text := if whole then "true" else "false"
    (w.note ("slept " ++ name ++ " " ++ result)).enqueue 1 (.ending task .finished)

/-- A job is done. -/
def perform (w : TaskWorld) : TaskJob → TaskWorld
  | .ending task ending => w.finish task ending
  | .woken task whole => w.goOn task whole
  | .unlocked task =>
    let cancelled : Text := if w.isCancelled task then "true" else "false"
    (w.note ("open " ++ w.nameOf task ++ " aborted=" ++ cancelled)).enqueue 1
      (.ending task .finished)
  | .joined name => w.note ("joined " ++ name)
  | .shutDown => w.note "shutdown done"

/-- The turns that a job can lead to at most, those of waiters left out. -/
def followUp : Nat := 6

/-- The turns that jobs can take at most, those of waiters left out. -/
def jobsWork : List (Nat × TaskJob) → Nat
  | [] => 0
  | (turns, _) :: rest => turns + 1 + followUp + jobsWork rest

/-- The turns that are taken at most before no job is left. -/
def work (w : TaskWorld) : Nat := jobsWork w.jobs + w.waiters.length * (shutdownTurns + 1)

/-- Jobs take their turns until none is left. -/
def drain (w : TaskWorld) : Nat → TaskWorld
  | 0 => w
  | fuel + 1 =>
    match w.jobs with
    | [] => w
    | (turns, job) :: rest =>
      let w := { w with jobs := rest }
      if turns ≤ 1 then (w.perform job).drain fuel else (w.enqueue (turns - 1) job).drain fuel

/-- Everything that happens without time passing. -/
def settle (w : TaskWorld) : TaskWorld := w.drain w.work

/-- A sleep ends. -/
def wake (w : TaskWorld) (sleep : Sleep Nat) : TaskWorld :=
  ({ w with
    now := sleep.due
    sleeps := w.sleeps.filter (·.number ≠ sleep.number) }.enqueue wokenTurns
      (.woken sleep.job true)).settle

/-- The sleeps that are due by a given time end. -/
def fire (w : TaskWorld) (stop : Double) : Nat → TaskWorld
  | 0 => w
  | fuel + 1 =>
    match Sleep.first w.sleeps with
    | some sleep => if sleep.due ≤ stop then (w.wake sleep).fire stop fuel else w
    | none => w

/-- Time passes. Sleeps last a millisecond at least, and each belongs to a
    task of its own. -/
def advance (w : TaskWorld) (ms : Double) : TaskWorld :=
  let w := w.settle
  let stop := w.now + ms
  { w.fire stop (w.sleeps.length * (wholeMs ms + 2)) with now := stop }

/-- What is in the log, and the world with an empty one. -/
def takeLog (w : TaskWorld) : List Text × TaskWorld := (w.log, { w with log := [] })

/-- The last tasks of all names, as they are seen from outside: whether they
    are under way, and whether they were asked to stop. -/
def listing (w : TaskWorld) : List (Text × Bool × Bool) :=
  w.names.map fun (name, task) => (name, !w.isEnded task, w.isCancelled task)

end TaskWorld

end Simulation

end NodeWatch
