import NodeWatch.Monitor.Poll
import NodeWatch.Monitor.Redraw
import NodeWatch.Monitor.Search
import NodeWatch.Monitor.Supervisor
import NodeWatch.Text.Blank

/-!
# A session

Everything that runs behind one dashboard: the snapshot with the poller that
refreshes it at intervals, the animator that moves the slide of the block
list, and the search. The session is a machine. What happens to it is an
event: the user does something, an answer of the node arrives, a sleep ends
or a redraw is delivered. In return it asks its surroundings for things:
questions to be put to the node, sleeps, and a turn for a lookup to begin.
For every request there is one event that answers it, and how long the answer
takes is up to the surroundings.

Shutting down closes the redraw requests, ends the sleeps and begins nothing
more. A poll and a lookup that wait for the node go on to their end, and the
shutdown waits for them: what is over is struck off the list of what it waits
for, and it is over itself when the list is empty.

## Main definitions

* `Monitor.Session`: The state.
* `Monitor.UserEvent`, `Monitor.Event`: What happens.
* `Monitor.Request`: What the session asks for.
* `Monitor.Session.step`: The effect of an event.
* `Monitor.Activity`, `Monitor.Session.isUnderWay`: The work that is not over yet.
* `Monitor.Session.active`: How much of it there is.
* `Monitor.Session.isOver`: A shutdown has seen the end of all the work.
-/

namespace NodeWatch

namespace Monitor

/-- The poller. -/
inductive Poller where
  | idle
  /-- A poll waits for an answer. -/
  | polling (poll : Poll)
  | sleeping
  | ended

/-- The animator. -/
inductive Animator where
  | idle | sleeping | ended
deriving DecidableEq, Repr

/-- What may be under way. -/
inductive Activity where
  | poller | animator | lookup
deriving DecidableEq, Repr

/-- What the user does. -/
inductive UserEvent where
  | submit (query : Text)
  | navigate (delta : Double)
  | activate
  | close
  | back
  | dismiss
deriving DecidableEq

/-- What happens to a session. -/
inductive Event where
  | start
  | user (event : UserEvent)
  | escape
  | shutdown
  /-- The answer to the question of the poll, at a given time. -/
  | pollAnswer (answer : Rpc.Answer) (now : Double)
  /-- The lookup that waited may begin. -/
  | lookupBegin
  /-- The answer to the question of the lookup. -/
  | lookupAnswer (answer : Rpc.Answer)
  /-- The lookup breaks down. -/
  | lookupCrash (message : Text)
  /-- The sleep of the poller is over. -/
  | pollerWake
  /-- The sleep of the animator is over. -/
  | animatorWake
  /-- The scheduled redraw. -/
  | redraw

/-- What a session asks for. -/
inductive Request where
  | askPoll (call : Rpc.Call)
  | askLookup (call : Rpc.Call)
  | beginLookup
  | sleepPoller
  | sleepAnimator
  /-- The sleeps that go on are to end now. -/
  | endSleeps

/-- Everything that runs behind one dashboard. -/
structure Session where
  snapshot : Snapshot
  search : Search
  /-- What the lookup knows while it waits for an answer. -/
  lookup : Option Lookup.Stage
  redraw : Redraw Unit
  poller : Poller
  animator : Animator
  started : Bool
  /-- The session was not shut down. -/
  running : Bool
  /-- Every shutdown, in order, with what it still waits for. -/
  shutdowns : List (List Activity)

namespace Session

/-- Before the start. -/
def initial : Session where
  snapshot := .initial
  search := .initial
  lookup := none
  redraw := .empty
  poller := .idle
  animator := .idle
  started := false
  running := true
  shutdowns := []

/-- A lookup is under way. -/
def searching (s : Session) : Bool := s.search.busy

/-- An activity was begun and is not over. -/
def isUnderWay (s : Session) : Activity → Bool
  | .poller =>
    match s.poller with
    | .polling _ | .sleeping => true
    | .idle | .ended => false
  | .animator =>
    match s.animator with
    | .sleeping => true
    | .idle | .ended => false
  | .lookup => s.search.busy

/-- The activities that are under way. -/
def underWay (s : Session) : List Activity :=
  [.poller, .animator, .lookup].filter fun a => s.isUnderWay a

/-- The number of activities that are under way. -/
def active (s : Session) : Nat := s.underWay.length

/-- An activity is over, and no shutdown waits for it any more. -/
def leave (s : Session) (a : Activity) : Session :=
  { s with shutdowns := s.shutdowns.map (·.filter (· ≠ a)) }

/-- Whether a shutdown, by its place among all of them, waits for nothing more. -/
def isOver (s : Session) (shutdown : Nat) : Bool := s.shutdowns[shutdown]?.any List.isEmpty

/-- The session after a request for a redraw. -/
def notify (s : Session) : Session := { s with redraw := s.redraw.notify }

/-- The session with a note whether a poll is under way. -/
def setRefreshing (s : Session) (refreshing : Bool) : Session :=
  { s with snapshot :=
      { s.snapshot with status := { s.snapshot.status with refreshing } } }

/-- A poll begins. -/
def beginPoll (s : Session) : Session × List Request :=
  let s := (s.setRefreshing true).notify
  let poll := Poll.begin s.snapshot
  ({ s with poller := .polling poll }, [.askPoll poll.stage.call])

/-- A poll is over: the poller sleeps, or ends with the session. -/
def endPoll (s : Session) : Session × List Request :=
  let s := (s.setRefreshing false).notify
  if s.running then ({ s with poller := .sleeping }, [.sleepPoller])
  else ({ s with poller := .ended }.leave .poller, [])

/-- An answer for the poll. -/
def pollAnswer (s : Session) (answer : Rpc.Answer) (now : Double) : Session × List Request :=
  match s.poller with
  | .polling poll =>
    let effect := poll.next s.snapshot now answer
    let s := { s with snapshot := effect.snapshot }
    let s := if effect.redraw then s.notify else s
    match effect.move with
    | .ask poll => ({ s with poller := .polling poll }, [.askPoll poll.stage.call])
    | .done _ => s.endPoll
  | _ => (s, [])

/-- The poller wakes up. -/
def pollerWake (s : Session) : Session × List Request :=
  match s.poller with
  | .sleeping =>
    if s.running then s.beginPoll else ({ s with poller := .ended }.leave .poller, [])
  | _ => (s, [])

/-- The animator wakes up. -/
def animatorWake (s : Session) : Session × List Request :=
  match s.animator with
  | .sleeping =>
    if s.running then
      match s.snapshot.advanceSlide with
      | some snapshot => ({ s with snapshot }.notify, [.sleepAnimator])
      | none => (s, [.sleepAnimator])
    else ({ s with animator := .ended }.leave .animator, [])
  | _ => (s, [])

/-- The first event of a session; later ones of its kind do nothing. -/
def start (s : Session) : Except SpawnFault (Session × List Request) :=
  if s.started then .ok (s, [])
  else if s.running then
    let (s, requests) := { s with started := true }.beginPoll
    .ok ({ s with animator := .sleeping }, requests ++ [.sleepAnimator])
  else .error ⟨"poller"⟩

/-- A lookup is over. -/
def settleLookup (s : Session) (ending : Except Text Lookup.Result) : Session :=
  ({ s with search := s.search.settle ending, lookup := none }.leave .lookup).notify

/-- A lookup goes on or is over. -/
def moveLookup (s : Session) (query : Lookup.Query) : Lookup.Move → Session × List Request
  | .ask call stage => ({ s with lookup := some stage }, [.askLookup call])
  | .done outcome => (s.settleLookup (.ok ⟨query.text, outcome, .unset⟩), [])

/-- The lookup that waited begins to ask. -/
def lookupBegin (s : Session) : Session × List Request :=
  match s.search.worker with
  | some (.waiting query) =>
    { s with search := s.search.begin }.moveLookup query (Lookup.begin query)
  | _ => (s, [])

/-- An answer for the lookup. -/
def lookupAnswer (s : Session) (answer : Rpc.Answer) : Session × List Request :=
  match s.search.asking?, s.lookup with
  | some query, some stage => s.moveLookup query (Lookup.next query stage answer)
  | _, _ => (s, [])

/-- The name of the lookups in reports of what broke down. -/
def lookupTask : Text := "search"

/-- A lookup breaks down, which is noted in the status as well. -/
def lookupCrash (s : Session) (message : Text) : Session :=
  if s.search.busy then
    let s := { s with search := s.search.begin }.settleLookup (.error message)
    { s with snapshot := { s.snapshot with status :=
        { s.snapshot.status with lastError := some (report lookupTask message) } } }.notify
  else s

/-- The search after an operation of the user. -/
def operate (s : Session) : UserEvent → Option Search
  | .submit query =>
    let query := query.trim
    if Hex.isQuery query then s.search.submit s.running query .topLevel s.snapshot.chain.blocks
    else none
  | .navigate delta => s.search.navigate delta
  | .activate => s.search.activate s.running s.snapshot.chain.blocks
  | .close => s.search.close
  | .back => s.search.back
  | .dismiss => s.search.dismiss

/-- The session with the search that an operation left, if it was not refused. -/
def withSearch (s : Session) : Option Search → Bool × Session × List Request
  | none => (false, s, [])
  | some search =>
    let requests := if search.busy && !s.search.busy then [Request.beginLookup] else []
    (true, { s with search }.notify, requests)

/-- Something that the user does; whether it was accepted comes first. -/
def dispatch (s : Session) (event : UserEvent) : Bool × Session × List Request :=
  s.withSearch (s.operate event)

/-- The escape key; when it is refused, the user wants to leave. -/
def escape (s : Session) : Bool × Session × List Request := s.withSearch s.search.escape

/-- Nothing is begun any more, and what is under way is waited for. -/
def stopTasks (s : Session) : Session :=
  { s with running := false, shutdowns := s.shutdowns ++ [s.underWay] }

/-- Nothing is begun any more, and nobody hears of what is still under way. -/
def shutdown (s : Session) : Session × List Request :=
  ({ s with redraw := s.redraw.close }.stopTasks, [.endSleeps])

/-- The listeners that the scheduled redraw calls. -/
def deliver (s : Session) : List Nat × Session :=
  let (called, redraw) := s.redraw.deliver
  (called.map (·.1), { s with redraw })

/-- The effect of an event. -/
def step (s : Session) : Event → Session × List Request
  | .start => s.start.toOption.getD ({ s with started := true }, [])
  | .user event => (s.dispatch event).2
  | .escape => s.escape.2
  | .shutdown => s.shutdown
  | .pollAnswer answer now => s.pollAnswer answer now
  | .lookupBegin => s.lookupBegin
  | .lookupAnswer answer => s.lookupAnswer answer
  | .lookupCrash message => (s.lookupCrash message, [])
  | .pollerWake => s.pollerWake
  | .animatorWake => s.animatorWake
  | .redraw => (s.deliver.2, [])

end Session

end Monitor

end NodeWatch
