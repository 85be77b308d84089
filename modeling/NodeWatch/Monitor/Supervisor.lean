import NodeWatch.Text.Basic

/-!
# Supervised tasks

Every task that runs in the background is begun through a supervisor, so that
a shutdown can cancel all that is under way and wait for its end. Each task
that ends is struck off the list of those that a shutdown waits for, and the
shutdown is over when its list is empty. Tasks are known by their numbers;
names may repeat. A cancelled task is only asked to
stop: what comes of it is up to its body, which may go on, finish, or fail
with the error that says that it noticed. Such an error of a cancelled task
is expected; every other error is reported, once.

## Main definitions

* `Monitor.Task`: What the one who began a task sees of it.
* `Monitor.Ending`: How a body ends.
* `Monitor.Supervisor`: The tasks and those that are under way.
* `Monitor.Supervisor.spawn`: A task begins, unless after a shutdown.
* `Monitor.Supervisor.cancel`, `Monitor.Supervisor.shutdown`: Tasks are asked
  to stop.
* `Monitor.Supervisor.finish`: A body ends.
* `Monitor.Supervisor.isOver`: A shutdown has seen the end of all its tasks.
-/

namespace NodeWatch

namespace Monitor

/-- A task that was begun. -/
structure Task where
  name : Text
  /-- It was asked to stop. -/
  cancelled : Bool
  ended : Bool
deriving DecidableEq

/-- How the body of a task ends. -/
inductive Ending where
  | finished
  /-- An error, which may be the one of a body that notices a cancellation. -/
  | failed (noticed : Bool) (message : Text)
deriving DecidableEq

/-- The tasks of a session. -/
structure Supervisor where
  /-- Every task that was begun, by its number. -/
  tasks : List Task
  /-- The numbers of the tasks that are under way, the oldest first. -/
  underWay : List Nat
  /-- There was a shutdown. -/
  stopped : Bool
  /-- Every shutdown, in order, with the tasks whose ends it still waits for. -/
  shutdowns : List (List Nat)

/-- A task that cannot begin because there was a shutdown. -/
structure SpawnFault where
  task : Text
deriving DecidableEq

/-- The wording of the fault. -/
def SpawnFault.message (fault : SpawnFault) : Text :=
  "cannot spawn " ++ fault.task ++ ": supervisor is shut down"

/-- The report of a task that failed. -/
def report (task message : Text) : Text := task ++ (": " : Text) ++ message

namespace Supervisor

/-- No task was begun yet. -/
def initial : Supervisor := ⟨[], [], false, []⟩

/-- The number of tasks that are under way. -/
def active (s : Supervisor) : Nat := s.underWay.length

/-- A new task, whose number is that of the tasks before it. -/
def spawn (s : Supervisor) (name : Text) : Except SpawnFault Supervisor :=
  if s.stopped then .error ⟨name⟩
  else .ok { s with
    tasks := s.tasks ++ [⟨name, false, false⟩]
    underWay := s.underWay ++ [s.tasks.length] }

/-- A task is asked to stop. -/
def cancel (s : Supervisor) (number : Nat) : Supervisor :=
  { s with tasks := s.tasks.modify number fun t => { t with cancelled := true } }

/-- Nothing is begun any more, and all that is under way is asked to stop and
    waited for. -/
def shutdown (s : Supervisor) : Supervisor :=
  s.underWay.foldl cancel { s with stopped := true, shutdowns := s.shutdowns ++ [s.underWay] }

/-- The report that an ending causes. -/
def reportOf (t : Task) : Ending → Option Text
  | .finished => none
  | .failed noticed message =>
    if t.cancelled && noticed then none else some (report t.name message)

/-- The body of a task ends; what is to be reported comes first. A body ends
    only once. -/
def finish (s : Supervisor) (number : Nat) (ending : Ending) : Option Text × Supervisor :=
  match s.tasks[number]? with
  | none => (none, s)
  | some t =>
    if t.ended then (none, s)
    else (reportOf t ending,
      { s with
        tasks := s.tasks.modify number fun t => { t with ended := true }
        underWay := s.underWay.erase number
        shutdowns := s.shutdowns.map (·.filter (· ≠ number)) })

/-- Whether a shutdown, by its place among all of them, waits for nothing more. -/
def isOver (s : Supervisor) (shutdown : Nat) : Bool := s.shutdowns[shutdown]?.any List.isEmpty

end Supervisor

end Monitor

end NodeWatch
