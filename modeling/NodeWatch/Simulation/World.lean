import NodeWatch.Monitor.Session
import NodeWatch.Simulation.ScriptedNode
import NodeWatch.Simulation.Sleep
import NodeWatch.Span

/-!
# Sessions in virtual time

A session among scripted nodes and a clock that only moves when it is told
to. What a session asks for is answered by jobs. A job waits for a number of
turns, counted from the moment it was made, and all jobs take their turns in
the order in which they began to wait; so the order in which a poll and a
lookup get through to the node is settled down to the single turn. When no
job is left, the scheduled redraw is delivered, and the world is at rest.

Time passes from one rest to the next. The sleeps that are due end in the
order of their ends, and of those that end together in the order of their
beginnings, and the world comes to rest after each of them.

## Main definitions

* `Simulation.Job`: What is going to happen.
* `Simulation.World`: A session and everything around it.
* `Simulation.World.grant`: The job that answers a request.
* `Simulation.World.settle`: Everything that happens without time passing.
* `Simulation.World.advance`: Time passes.
* `Simulation.World.release`: Answers that were held back arrive.
-/

namespace NodeWatch

namespace Simulation

open Monitor (Session Event Request UserEvent Snapshot)

/-- What is going to happen to a session. -/
inductive Job where
  | pollAnswer (answer : Rpc.Answer)
  | lookupBegin
  | lookupAnswer (answer : Rpc.Answer)
  | lookupCrash (message : Text)
  | pollerWake
  | animatorWake

/-- What a listener sees. -/
structure View where
  snapshot : Snapshot
  current : Option Lookup.Result
  history : List Lookup.Result
deriving DecidableEq

/-- What a listener would see of a session now. -/
def View.of (s : Session) : View := ⟨s.snapshot, s.search.current, s.search.history⟩

/-- A session and everything around it. -/
structure World where
  session : Session
  /-- The time in milliseconds. -/
  now : Double
  /-- The length of sleep that the poller asks for. -/
  refreshMs : Double
  /-- The length of sleep that the animator asks for. -/
  tickMs : Double
  node : ScriptedNode
  /-- The node that lookups go to, if it is another one. -/
  searchNode : Option ScriptedNode
  /-- How every lookup breaks down, if they do. -/
  crash : Option Text
  /-- The jobs that wait, each with the turns that it still takes. -/
  jobs : List (Nat × Job)
  /-- The answers that are held back, by the node and by the one for lookups. -/
  held : List Job × List Job
  sleeps : List (Sleep Job)
  /-- The number of the next sleep. -/
  nextSleep : Nat
  /-- A lookup was begun before. -/
  lookedUp : Bool
  /-- How often a listener was called. -/
  redraws : Nat
  /-- What the listeners saw when they were last called. -/
  view : View
  /-- When that was. -/
  viewedAt : Double
  /-- The reports of tasks that broke down. -/
  failures : List Text
  /-- The shutdown is over. -/
  stopped : Bool

/-- The turns that an answer takes. -/
def answerTurns : Nat := 2

/-- The turns that a call takes which is not sent. -/
def refusalTurns : Nat := 1

/-- The turns that an answer takes after it was held back. -/
def releaseTurns : Nat := 3

/-- The turns that the end of a sleep takes. -/
def wakeTurns : Nat := 2

/-- The turns before a lookup begins; one that follows another takes a turn
    more, in which it makes sure that the other is over. -/
def beginTurns (lookedUp : Bool) : Nat := if lookedUp then 2 else 1

/-- The turns from the beginning of a lookup that breaks down to the report of it. -/
def crashTurns : Nat := 2

/-- The turns from one question to the next at most, the one in which the
    answer is dealt with included. -/
def stepTurns : Nat := releaseTurns + 1

/-- The turns that a job can lead to at most, its own waiting left out. -/
def Job.work : Job → Nat
  | .pollAnswer _ => 0
  | .lookupBegin => 5 * stepTurns
  | .lookupAnswer _ => 0
  | .lookupCrash _ => 0
  | .pollerWake => (Monitor.maxBlocks + 6) * stepTurns
  | .animatorWake => 0

/-- The turns that jobs can take at most. -/
def jobsWork : List (Nat × Job) → Nat
  | [] => 0
  | (turns, job) :: rest => turns + 1 + job.work + jobsWork rest

namespace World

/-- The world with one more job. -/
def enqueue (w : World) (turns : Nat) (job : Job) : World :=
  { w with jobs := w.jobs ++ [(turns, job)] }

/-- The world with one more sleep. -/
def sleep (w : World) (ms : Double) (job : Job) : World :=
  { w with
    sleeps := w.sleeps ++ [⟨w.now + sleepLength ms, w.nextSleep, job⟩]
    nextSleep := w.nextSleep + 1 }

/-- An answer on its way. -/
def schedule (w : World) (response : ScriptedNode.Response) (job : Job) : World :=
  w.enqueue (if response.refused then refusalTurns else answerTurns) job

/-- A question of the poll. -/
def askPoll (w : World) (call : Rpc.Call) : World :=
  let (response, node) := w.node.respond call
  let w := { w with node }
  let job := Job.pollAnswer response.answer
  if response.held then { w with held := (w.held.1 ++ [job], w.held.2) }
  else w.schedule response job

/-- A question of the lookup. -/
def askLookup (w : World) (call : Rpc.Call) : World :=
  match w.searchNode with
  | none =>
    let (response, node) := w.node.respond call
    let w := { w with node }
    let job := Job.lookupAnswer response.answer
    if response.held then { w with held := (w.held.1 ++ [job], w.held.2) }
    else w.schedule response job
  | some searchNode =>
    let (response, searchNode) := searchNode.respond call
    let w := { w with searchNode := some searchNode }
    let job := Job.lookupAnswer response.answer
    if response.held then { w with held := (w.held.1, w.held.2 ++ [job]) }
    else w.schedule response job

/-- What a request leads to. -/
def grant (w : World) : Request → World
  | .askPoll call => w.askPoll call
  | .askLookup call => w.askLookup call
  | .beginLookup => { w.enqueue (beginTurns w.lookedUp) .lookupBegin with lookedUp := true }
  | .sleepPoller => w.sleep w.refreshMs .pollerWake
  | .sleepAnimator => w.sleep w.tickMs .animatorWake
  | .endSleeps =>
    { w with sleeps := [], jobs := w.jobs ++ w.sleeps.map fun s => (wakeTurns, s.job) }

/-- The world after a session moved on. -/
def follow (w : World) (moved : Session × List Request) : World :=
  moved.2.foldl grant { w with session := moved.1 }

/-- The event of a job. -/
def event (w : World) : Job → Event
  | .pollAnswer answer => .pollAnswer answer w.now
  | .lookupBegin => .lookupBegin
  | .lookupAnswer answer => .lookupAnswer answer
  | .lookupCrash message => .lookupCrash message
  | .pollerWake => .pollerWake
  | .animatorWake => .animatorWake

/-- The report that an event causes. -/
def reportOf : Event → List Text
  | .lookupCrash message => [Monitor.report Session.lookupTask message]
  | _ => []

/-- An event of the session, with the report that it causes. -/
def happen (w : World) (event : Event) : World :=
  ({ w with failures := w.failures ++ reportOf event }).follow (w.session.step event)

/-- A job is done. A lookup that is bound to break down does so instead of
    asking anything. -/
def perform (w : World) (job : Job) : World :=
  match job, w.crash with
  | .lookupBegin, some message => w.enqueue crashTurns (.lookupCrash message)
  | job, _ => w.happen (w.event job)

/-- The turns that are taken at most before no job is left. -/
def work (w : World) : Nat :=
  (match w.session.poller with
    | .polling poll => poll.stage.remaining * stepTurns
    | _ => 0) +
  (match w.session.lookup with
    | some stage => stage.remaining * stepTurns
    | none => 0) +
  jobsWork w.jobs

/-- Jobs take their turns until none is left. -/
def drain (w : World) : Nat → World
  | 0 => w
  | fuel + 1 =>
    match w.jobs with
    | [] => w
    | (turns, job) :: rest =>
      let w := { w with jobs := rest }
      if turns ≤ 1 then (w.perform job).drain fuel else (w.enqueue (turns - 1) job).drain fuel

/-- The scheduled redraw. -/
def deliver (w : World) : World :=
  let (called, session) := w.session.deliver
  { w with
    session
    redraws := w.redraws + called.length
    view := if called.isEmpty then w.view else .of session
    viewedAt := if called.isEmpty then w.viewedAt else w.now }

/-- Everything that happens without time passing. -/
def settle (w : World) : World :=
  let w := (w.drain w.work).deliver
  { w with stopped := w.stopped || w.session.shutdowns.any List.isEmpty }

/-- A sleep ends. -/
def wake (w : World) (sleep : Sleep Job) : World :=
  ({ w with
    now := sleep.due
    sleeps := w.sleeps.filter (·.number ≠ sleep.number) }.enqueue wakeTurns sleep.job).settle

/-- The sleeps that are due by a given time end. -/
def fire (w : World) (stop : Double) : Nat → World
  | 0 => w
  | fuel + 1 =>
    match Sleep.first w.sleeps with
    | some sleep => if sleep.due ≤ stop then (w.wake sleep).fire stop fuel else w
    | none => w

/-- Time passes. Sleeps last a millisecond at least, and there are two of them
    at a time at most. -/
def advance (w : World) (ms : Double) : World :=
  let w := w.settle
  let stop := w.now + ms
  { w.fire stop (2 * (wholeMs ms + 2)) with now := stop }

/-- The first of the answers that each node holds back arrive, all of them
    unless a number is given. -/
def release (w : World) (count : Option Double) : World :=
  let split (jobs : List Job) :=
    let n := count.elim jobs.length fun x => Span.place jobs.length (Double.max 0 x)
    (jobs.take n, jobs.drop n)
  let (now₁, later₁) := split w.held.1
  let (now₂, later₂) := split w.held.2
  { w with
    held := (later₁, later₂)
    jobs := w.jobs ++ (now₁ ++ now₂).map fun job => (releaseTurns, job) }.settle

/-- Something happens from outside. -/
def act (w : World) (event : Event) : World := w.follow (w.session.step event)

/-- The search goes on as an operation left it, unless the operation was refused. -/
def operate (w : World) (search : Option Search) : Bool × World :=
  let (accepted, moved) := w.session.withSearch search
  (accepted, w.follow moved)

/-- The calls that were made since they were last taken. -/
def takeCalls (w : World) : List Text × List Text × World :=
  let (calls, node) := w.node.takeCalls
  match w.searchNode with
  | none => (calls, [], { w with node })
  | some searchNode =>
    let (searchCalls, searchNode) := searchNode.takeCalls
    (calls, searchCalls, { w with node, searchNode := some searchNode })

/-- A world before anything has happened, with one listener. -/
def initial (node : ScriptedNode) (searchNode : Option ScriptedNode)
    (refreshMs tickMs now : Double) (crash : Option Text) : World :=
  let session := { Session.initial with redraw := Redraw.empty.subscribe () }
  { session, now, refreshMs, tickMs, node, searchNode, crash
    jobs := []
    held := ([], [])
    sleeps := []
    nextSleep := 0
    lookedUp := false
    redraws := 0
    view := .of session
    viewedAt := now
    failures := []
    stopped := false }

/-- The listener is called no more. -/
def unsubscribe (w : World) : World :=
  { w with session := { w.session with redraw := w.session.redraw.unsubscribe 0 } }

/-- No listener is called any more. -/
def closeRedraw (w : World) : World :=
  { w with session := { w.session with redraw := w.session.redraw.close } }

/-- Nothing is begun any more, but listeners are still called. -/
def stopTasks (w : World) : World :=
  ({ w with session := w.session.stopTasks }).grant .endSleeps

/-- The tip of the chain moves without a poll. -/
def setTip (w : World) (tip : Double) : World :=
  { w with session := { w.session with snapshot :=
      { w.session.snapshot with chain := { w.session.snapshot.chain with blocks := tip } } } }

end World

end Simulation

end NodeWatch
