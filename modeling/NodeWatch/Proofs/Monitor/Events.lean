import NodeWatch.Monitor.Session
import NodeWatch.Proofs.Monitor.Acts

/-!
# What an Event Does to a Session

A session is moved on by eleven kinds of events, and most of them do different
things at different times: an answer leads to the next question or ends a
poll, a sleep that ends begins a poll or ends the poller. `Stepped` lists what
can come of an event, with the reason for it, the session it leaves and the
requests it makes. Everything about runs of sessions is read off this list,
and no other proof opens the machine.

Who listens changes in a run as well. An `Occurrence` is an event or a change
of the listeners, and a run is any sequence of them: nothing is assumed about
their order, so answers, ends of sleeps and crashes may come at any time, also
when nobody waits for them.

## Main definitions

* `Session.Stepped`: What can come of an event.
* `Session.Occurrence`, `Session.occur`: Events, and changes of the listeners.
* `Session.after`, `Session.requests`, `Session.called`: The session that a
  run leaves, what it asks for, and the listeners that it calls.

## Theorems

* `stepped`: Every event does one of the things in the list.
* `occurrence_invariant`: What every event preserves holds after any run.
-/

namespace NodeWatch

namespace Redraw

variable {α : Type} {r : Redraw α}

/-- The flag is in step with the callbacks: it is set exactly when one waits,
    and there is never more than one. -/
def InStep (r : Redraw α) : Prop := r.callbacks = r.scheduled.toNat

theorem inStep_empty : (empty : Redraw α).InStep := rfl

theorem notify_of_closed (hclosed : r.closed = true) : r.notify = r := by
  unfold notify
  rw [hclosed, Bool.true_or, if_pos rfl]

theorem notify_of_scheduled (hscheduled : r.scheduled = true) : r.notify = r := by
  unfold notify
  rw [hscheduled, Bool.or_true, if_pos rfl]

theorem notify_of_quiet (hopen : r.closed = false) (hquiet : r.scheduled = false) :
    r.notify = { r with scheduled := true, callbacks := r.callbacks + 1 } := by
  unfold notify
  rw [hopen, hquiet, Bool.or_false, if_neg Bool.false_ne_true]

/-- A request leaves a delivery to come, and changes nothing else. -/
theorem notify_of_open (hopen : r.closed = false) :
    ∃ callbacks, r.notify = { r with scheduled := true, callbacks } := by
  cases hscheduled : r.scheduled with
  | true =>
      refine ⟨r.callbacks, ?_⟩
      rw [notify_of_scheduled hscheduled, ← hscheduled]
  | false => exact ⟨r.callbacks + 1, notify_of_quiet hopen hscheduled⟩

theorem notify_notify (r : Redraw α) : r.notify.notify = r.notify := by
  cases hclosed : r.closed with
  | true => rw [notify_of_closed hclosed, notify_of_closed hclosed]
  | false =>
      rcases notify_of_open hclosed with ⟨callbacks, hnotify⟩
      refine notify_of_scheduled ?_
      rw [hnotify]

theorem notify_closed (r : Redraw α) : r.notify.closed = r.closed := by
  cases hclosed : r.closed with
  | true => rw [notify_of_closed hclosed, hclosed]
  | false =>
      rcases notify_of_open hclosed with ⟨callbacks, hnotify⟩
      rw [hnotify]
      exact hclosed

theorem deliver_closed (r : Redraw α) : r.deliver.2.closed = r.closed := by
  unfold deliver
  split <;> rfl

/-- Closed requests call nobody, also when a delivery was scheduled before. -/
theorem deliver_of_closed (hclosed : r.closed = true) : r.deliver.1 = [] := by
  unfold deliver
  split
  · rfl
  · exact if_pos hclosed

/-- A request hands over a callback when it sets the flag, and only then. -/
theorem InStep.notify (h : r.InStep) : r.notify.InStep := by
  cases hclosed : r.closed with
  | true =>
      rw [notify_of_closed hclosed]
      exact h
  | false =>
      cases hscheduled : r.scheduled with
      | true =>
          rw [notify_of_scheduled hscheduled]
          exact h
      | false =>
          rw [InStep, hscheduled] at h
          rw [notify_of_quiet hclosed hscheduled, h]
          rfl

theorem deliver_of_quiet (h : r.InStep) (hquiet : r.scheduled = false) : r.deliver = ([], r) := by
  rw [InStep, hquiet] at h
  simp only [deliver, h, Bool.toNat_false]

theorem deliver_of_scheduled (h : r.InStep) (hscheduled : r.scheduled = true) :
    r.deliver = (if r.closed then [] else r.listeners,
      { r with scheduled := false, callbacks := 0 }) := by
  rw [InStep, hscheduled] at h
  simp only [deliver, h, Bool.toNat_true]

/-- A callback that runs clears the flag, and there was no other. -/
theorem InStep.deliver (h : r.InStep) : r.deliver.2.InStep := by
  cases hscheduled : r.scheduled with
  | true =>
      rw [deliver_of_scheduled h hscheduled]
      rfl
  | false =>
      rw [deliver_of_quiet h hscheduled]
      exact h

end Redraw

namespace Monitor

open Lookup (Query Result)

/-- Something that the user does. -/
def Event.IsUser : Event → Prop
  | .user _ | .escape => True
  | _ => False

/-- A question to the node. -/
def Request.IsCall : Request → Prop
  | .askPoll _ | .askLookup _ => True
  | _ => False

namespace Session

/-- What can come of an event: the session that it leaves and the requests
    that it makes. -/
inductive Stepped (s : Session) : Event → Session → List Request → Prop where
  /-- It is refused, or nobody waits for it. -/
  | idle {event : Event} : Stepped s event s []
  | started (hrunning : s.running = true) (hfresh : s.started = false) :
      Stepped s .start
        { (s.setRefreshing true).notify with
          poller := .polling ⟨s.snapshot.blocksTip, .chain⟩
          animator := .sleeping
          started := true }
        [.askPoll .chainInfo, .sleepAnimator]
  /-- After a shutdown no task is begun. -/
  | startRefused (hrunning : s.running = false) (hfresh : s.started = false) :
      Stepped s .start { s with started := true } []
  | pollBegun (hpoller : s.poller = .sleeping) (hrunning : s.running = true) :
      Stepped s .pollerWake
        { (s.setRefreshing true).notify with poller := .polling ⟨s.snapshot.blocksTip, .chain⟩ }
        [.askPoll .chainInfo]
  | pollerEnded (hpoller : s.poller = .sleeping) (hrunning : s.running = false) :
      Stepped s .pollerWake ({ s with poller := .ended }.leave .poller) []
  | pollAsked {poll next : Poll} {answer : Rpc.Answer} {now : Double} {snapshot : Snapshot}
      {redraw : Bool} (hpoller : s.poller = .polling poll)
      (hnext : poll.next s.snapshot now answer = ⟨snapshot, redraw, .ask next⟩) :
      Stepped s (.pollAnswer answer now)
        { s with
          snapshot
          redraw := if redraw then s.redraw.notify else s.redraw
          poller := .polling next }
        [.askPoll next.stage.call]
  | pollOver {poll : Poll} {outcome : Poll.Outcome} {answer : Rpc.Answer} {now : Double}
      {snapshot : Snapshot} {redraw : Bool} (hpoller : s.poller = .polling poll)
      (hnext : poll.next s.snapshot now answer = ⟨snapshot, redraw, .done outcome⟩) :
      Stepped s (.pollAnswer answer now)
        { ({ s with snapshot }.setRefreshing false).notify with
          poller := if s.running then .sleeping else .ended
          shutdowns := if s.running then s.shutdowns else (s.leave .poller).shutdowns }
        (if s.running then [.sleepPoller] else [])
  | slid {snapshot : Snapshot} (hanimator : s.animator = .sleeping) (hrunning : s.running = true)
      (hslide : s.snapshot.advanceSlide = some snapshot) :
      Stepped s .animatorWake { s with snapshot }.notify [.sleepAnimator]
  | dozed (hanimator : s.animator = .sleeping) (hrunning : s.running = true)
      (hslide : s.snapshot.advanceSlide = none) :
      Stepped s .animatorWake s [.sleepAnimator]
  | animatorEnded (hanimator : s.animator = .sleeping) (hrunning : s.running = false) :
      Stepped s .animatorWake ({ s with animator := .ended }.leave .animator) []
  /-- The user begins a lookup. -/
  | lookupSubmitted {event : Event} {a : Search.Act} {search : Search} {query : Query}
      (huser : event.IsUser) (hact : s.search.act a = some search) (hrunning : s.running = true)
      (hidle : s.search.busy = false) (hworker : search.worker = some (.waiting query)) :
      Stepped s event { s with search }.notify [.beginLookup]
  /-- The user does something else. -/
  | operated {event : Event} {a : Search.Act} {search : Search} (huser : event.IsUser)
      (hact : s.search.act a = some search) (hworker : search.worker = s.search.worker) :
      Stepped s event { s with search }.notify []
  | lookupBegun {query : Query} {call : Rpc.Call} {stage : Lookup.Stage}
      (hworker : s.search.worker = some (.waiting query))
      (hbegin : Lookup.begin query = .ask call stage) :
      Stepped s .lookupBegin { s with search := s.search.begin, lookup := some stage }
        [.askLookup call]
  | lookupAsked {query : Query} {call : Rpc.Call} {stage next : Lookup.Stage} {answer : Rpc.Answer}
      (hquery : s.search.asking? = some query) (hlookup : s.lookup = some stage)
      (hnext : Lookup.next query stage answer = .ask call next) :
      Stepped s (.lookupAnswer answer) { s with lookup := some next } [.askLookup call]
  | lookupFound {query : Query} {stage : Lookup.Stage} {answer : Rpc.Answer}
      {outcome : Lookup.Outcome} (hquery : s.search.asking? = some query)
      (hlookup : s.lookup = some stage) (hnext : Lookup.next query stage answer = .done outcome) :
      Stepped s (.lookupAnswer answer)
        ({ s with
          search := s.search.settle (.ok ⟨query.text, outcome, .unset⟩)
          lookup := none }.leave .lookup).notify
        []
  | lookupBroken {message : Text} (hbusy : s.search.busy = true) :
      Stepped s (.lookupCrash message)
        ({ s with
          search := s.search.begin.settle (.error message)
          lookup := none
          snapshot := { s.snapshot with status :=
            { s.snapshot.status with lastError := some (report lookupTask message) } } }.leave
          .lookup).notify
        []
  | stopped :
      Stepped s .shutdown
        { s with
          redraw := s.redraw.close
          running := false
          shutdowns := s.shutdowns ++ [s.underWay] }
        [.endSleeps]
  | delivered : Stepped s .redraw { s with redraw := s.redraw.deliver.2 } []

section Inversion

variable {s : Session}

theorem stepped_of_eq {event : Event} {t : Session} {requests : List Request}
    (hstep : s.step event = (t, requests)) (h : Stepped s event t requests) :
    Stepped s event (s.step event).1 (s.step event).2 := by
  rw [hstep]
  exact h

/-- Only the first start does anything. -/
theorem step_start_again (hstarted : s.started = true) : s.step .start = (s, []) := by
  unfold step start
  rw [if_pos hstarted]
  rfl

theorem step_start_first (hfresh : s.started = false) (hrunning : s.running = true) :
    s.step .start
      = ({ (s.setRefreshing true).notify with
            poller := .polling ⟨s.snapshot.blocksTip, .chain⟩
            animator := .sleeping
            started := true },
          [.askPoll .chainInfo, .sleepAnimator]) := by
  unfold step start
  rw [if_neg (Bool.eq_false_iff.mp hfresh), if_pos hrunning]
  rfl

theorem step_start_refused (hfresh : s.started = false) (hrunning : s.running = false) :
    s.step .start = ({ s with started := true }, []) := by
  unfold step start
  rw [if_neg (Bool.eq_false_iff.mp hfresh), if_neg (Bool.eq_false_iff.mp hrunning)]
  rfl

theorem stepped_start : Stepped s .start (s.step .start).1 (s.step .start).2 := by
  by_cases hstarted : s.started = true
  · exact stepped_of_eq (step_start_again hstarted) Stepped.idle
  · have hfresh := Bool.eq_false_iff.mpr hstarted
    by_cases hrunning : s.running = true
    · exact stepped_of_eq (step_start_first hfresh hrunning) (Stepped.started hrunning hfresh)
    · have hstopped := Bool.eq_false_iff.mpr hrunning
      exact stepped_of_eq (step_start_refused hfresh hstopped)
        (Stepped.startRefused hstopped hfresh)

theorem stepped_pollerWake :
    Stepped s .pollerWake (s.step .pollerWake).1 (s.step .pollerWake).2 := by
  unfold step pollerWake
  cases hpoller : s.poller with
  | sleeping =>
      by_cases hrunning : s.running = true
      · rw [if_pos hrunning]
        exact Stepped.pollBegun hpoller hrunning
      · rw [if_neg hrunning]
        exact Stepped.pollerEnded hpoller (Bool.eq_false_iff.mpr hrunning)
  | idle => exact Stepped.idle
  | polling poll => exact Stepped.idle
  | ended => exact Stepped.idle

theorem stepped_animatorWake :
    Stepped s .animatorWake (s.step .animatorWake).1 (s.step .animatorWake).2 := by
  by_cases hanimator : s.animator = .sleeping
  · by_cases hrunning : s.running = true
    · cases hslide : s.snapshot.advanceSlide with
      | some snapshot =>
          refine stepped_of_eq ?_ (Stepped.slid hanimator hrunning hslide)
          unfold step animatorWake
          simp only [hanimator, hslide, if_pos hrunning]
      | none =>
          refine stepped_of_eq ?_ (Stepped.dozed hanimator hrunning hslide)
          unfold step animatorWake
          simp only [hanimator, hslide, if_pos hrunning]
    · refine stepped_of_eq ?_ (Stepped.animatorEnded hanimator (Bool.eq_false_iff.mpr hrunning))
      unfold step animatorWake
      simp only [hanimator, if_neg hrunning]
  · refine stepped_of_eq ?_ Stepped.idle
    unfold step animatorWake
    cases h : s.animator with
    | sleeping => exact absurd h hanimator
    | idle => rfl
    | ended => rfl

/-- The end of a poll asks for a redraw, so it does not matter whether the
    last answer had asked for one already. -/
theorem endPoll_eq (redraw : Bool) :
    (if redraw then s.notify else s).endPoll
      = ({ (s.setRefreshing false).notify with
          poller := if s.running then .sleeping else .ended
          shutdowns := if s.running then s.shutdowns else (s.leave .poller).shutdowns },
        if s.running then [.sleepPoller] else []) := by
  have hend : s.endPoll
      = ({ (s.setRefreshing false).notify with
          poller := if s.running then .sleeping else .ended
          shutdowns := if s.running then s.shutdowns else (s.leave .poller).shutdowns },
        if s.running then [.sleepPoller] else []) := by
    unfold endPoll
    by_cases hrunning : s.running = true
    · rw [if_pos hrunning, if_pos hrunning, if_pos hrunning]
      exact if_pos hrunning
    · rw [if_neg hrunning, if_neg hrunning, if_neg hrunning]
      exact if_neg hrunning
  cases redraw with
  | false => exact hend
  | true =>
      have hnotify : s.notify.endPoll = s.endPoll := by
        unfold endPoll notify setRefreshing
        simp only [Redraw.notify_notify]
      rw [if_pos rfl, hnotify]
      exact hend

/-- An answer that leads to another question of the poll. -/
theorem step_pollAnswer_ask {poll next : Poll} {answer : Rpc.Answer} {now : Double}
    {snapshot : Snapshot} {redraw : Bool} (hpoller : s.poller = .polling poll)
    (hnext : poll.next s.snapshot now answer = ⟨snapshot, redraw, .ask next⟩) :
    s.step (.pollAnswer answer now)
      = ({ s with
            snapshot
            redraw := if redraw then s.redraw.notify else s.redraw
            poller := .polling next },
          [.askPoll next.stage.call]) := by
  unfold step pollAnswer
  simp only [hpoller, hnext]
  cases redraw with
  | true => rfl
  | false => rfl

/-- An answer that ends the poll. -/
theorem step_pollAnswer_done {poll : Poll} {outcome : Poll.Outcome} {answer : Rpc.Answer}
    {now : Double} {snapshot : Snapshot} {redraw : Bool} (hpoller : s.poller = .polling poll)
    (hnext : poll.next s.snapshot now answer = ⟨snapshot, redraw, .done outcome⟩) :
    s.step (.pollAnswer answer now)
      = ({ ({ s with snapshot }.setRefreshing false).notify with
            poller := if s.running then .sleeping else .ended
            shutdowns := if s.running then s.shutdowns else (s.leave .poller).shutdowns },
          if s.running then [.sleepPoller] else []) := by
  unfold step pollAnswer
  simp only [hpoller, hnext]
  exact endPoll_eq redraw

/-- An answer that no poll waits for. -/
theorem step_pollAnswer_idle (hpoller : ∀ poll, s.poller ≠ .polling poll) (answer : Rpc.Answer)
    (now : Double) : s.step (.pollAnswer answer now) = (s, []) := by
  change s.pollAnswer answer now = (s, [])
  unfold pollAnswer
  split
  · next poll hpolling => exact absurd hpolling (hpoller poll)
  · rfl

theorem stepped_pollAnswer (answer : Rpc.Answer) (now : Double) :
    Stepped s (.pollAnswer answer now) (s.step (.pollAnswer answer now)).1
      (s.step (.pollAnswer answer now)).2 := by
  by_cases hpolling : ∃ poll, s.poller = .polling poll
  · rcases hpolling with ⟨poll, hpoller⟩
    generalize hnext : poll.next s.snapshot now answer = effect
    rcases effect with ⟨snapshot, redraw, move⟩
    cases move with
    | ask next =>
        exact stepped_of_eq (step_pollAnswer_ask hpoller hnext) (Stepped.pollAsked hpoller hnext)
    | done outcome =>
        exact stepped_of_eq (step_pollAnswer_done hpoller hnext) (Stepped.pollOver hpoller hnext)
  · exact stepped_of_eq (step_pollAnswer_idle (not_exists.mp hpolling) answer now) Stepped.idle

/-- A lookup always begins with a question. -/
theorem exists_ask_begin (query : Query) :
    ∃ call stage, Lookup.begin query = .ask call stage := by
  unfold Lookup.begin
  by_cases hheight : query.isHeight = true
  · rw [if_pos hheight]
    exact ⟨_, _, rfl⟩
  · rw [if_neg hheight]
    exact ⟨_, _, rfl⟩

theorem stepped_lookupBegin :
    Stepped s .lookupBegin (s.step .lookupBegin).1 (s.step .lookupBegin).2 := by
  cases hworker : s.search.worker with
  | none =>
      refine stepped_of_eq ?_ Stepped.idle
      unfold step lookupBegin
      simp only [hworker]
  | some worker =>
      cases worker with
      | asking query screen =>
          refine stepped_of_eq ?_ Stepped.idle
          unfold step lookupBegin
          simp only [hworker]
      | waiting query =>
          rcases exists_ask_begin query with ⟨call, stage, hbegin⟩
          refine stepped_of_eq ?_ (Stepped.lookupBegun hworker hbegin)
          unfold step lookupBegin
          simp only [hworker, hbegin, moveLookup]

theorem stepped_lookupAnswer (answer : Rpc.Answer) :
    Stepped s (.lookupAnswer answer) (s.step (.lookupAnswer answer)).1
      (s.step (.lookupAnswer answer)).2 := by
  cases hquery : s.search.asking? with
  | none =>
      refine stepped_of_eq ?_ Stepped.idle
      unfold step lookupAnswer
      simp only [hquery]
  | some query =>
      cases hlookup : s.lookup with
      | none =>
          refine stepped_of_eq ?_ Stepped.idle
          unfold step lookupAnswer
          simp only [hquery, hlookup]
      | some stage =>
          cases hnext : Lookup.next query stage answer with
          | ask call next =>
              refine stepped_of_eq ?_ (Stepped.lookupAsked hquery hlookup hnext)
              unfold step lookupAnswer
              simp only [hquery, hlookup, hnext, moveLookup]
          | done outcome =>
              refine stepped_of_eq ?_ (Stepped.lookupFound hquery hlookup hnext)
              unfold step lookupAnswer
              simp only [hquery, hlookup, hnext, moveLookup, settleLookup]

theorem stepped_lookupCrash (message : Text) :
    Stepped s (.lookupCrash message) (s.step (.lookupCrash message)).1
      (s.step (.lookupCrash message)).2 := by
  by_cases hbusy : s.search.busy = true
  · refine stepped_of_eq ?_ (Stepped.lookupBroken hbusy)
    unfold step lookupCrash
    simp only [if_pos hbusy, settleLookup, leave, notify, Redraw.notify_notify]
  · refine stepped_of_eq ?_ Stepped.idle
    unfold step lookupCrash
    simp only [if_neg hbusy]

/-- What the user asks for is an act on the search, which begins a lookup only
    while the session is running. -/
theorem exists_act_of_operate {event : UserEvent} {search : Search}
    (h : s.operate event = some search) :
    ∃ a : Search.Act, s.search.act a = some search ∧ (a.allowed = true → s.running = true) := by
  cases event with
  | submit query =>
      unfold operate at h
      simp only at h
      by_cases hquery : Hex.isQuery query.trim = true
      · rw [if_pos hquery] at h
        exact ⟨.submit s.running query.trim .topLevel s.snapshot.chain.blocks, h, id⟩
      · rw [if_neg hquery] at h
        exact absurd h (by simp only [reduceCtorEq, not_false_eq_true])
  | navigate delta => exact ⟨.navigate delta, h, fun hc => absurd hc Bool.false_ne_true⟩
  | activate => exact ⟨.activate s.running s.snapshot.chain.blocks, h, id⟩
  | close => exact ⟨.close, h, fun hc => absurd hc Bool.false_ne_true⟩
  | back => exact ⟨.back, h, fun hc => absurd hc Bool.false_ne_true⟩
  | dismiss => exact ⟨.dismiss, h, fun hc => absurd hc Bool.false_ne_true⟩

/-- An act that was accepted asks for a redraw, and for a turn if it began a
    lookup. -/
theorem stepped_withSearch {event : Event} (huser : event.IsUser) {outcome : Option Search}
    (hact : ∀ search, outcome = some search →
      ∃ a : Search.Act, s.search.act a = some search ∧ (a.allowed = true → s.running = true)) :
    Stepped s event (s.withSearch outcome).2.1 (s.withSearch outcome).2.2 := by
  cases outcome with
  | none => exact Stepped.idle
  | some search =>
      rcases hact search rfl with ⟨a, ha, hrunning⟩
      rcases Search.worker_of_act ha with hworker | ⟨hallowed, hidle, query, hworker⟩
      · have hbusy : (search.busy && !s.search.busy) = false := by
          simp only [Search.busy, hworker, Bool.and_not_self]
        simp only [withSearch, hbusy, Bool.false_eq_true, if_false]
        exact Stepped.operated huser ha hworker
      · have hbusy : (search.busy && !s.search.busy) = true := by
          rw [hidle, Search.busy, hworker]
          rfl
        simp only [withSearch, hbusy, if_true]
        exact Stepped.lookupSubmitted huser ha (hrunning hallowed) hidle hworker

/-- Every event does one of the things in the list. -/
theorem stepped (event : Event) : Stepped s event (s.step event).1 (s.step event).2 := by
  cases event with
  | start => exact stepped_start
  | user event =>
      have huser : (Event.user event).IsUser := trivial
      exact stepped_withSearch huser fun search => exists_act_of_operate
  | escape =>
      have huser : Event.escape.IsUser := trivial
      exact stepped_withSearch huser fun search h =>
        ⟨.escape, h, fun hc => absurd hc Bool.false_ne_true⟩
  | shutdown => exact Stepped.stopped
  | pollAnswer answer now => exact stepped_pollAnswer answer now
  | lookupBegin => exact stepped_lookupBegin
  | lookupAnswer answer => exact stepped_lookupAnswer answer
  | lookupCrash message => exact stepped_lookupCrash message
  | pollerWake => exact stepped_pollerWake
  | animatorWake => exact stepped_animatorWake
  | redraw => exact Stepped.delivered

end Inversion

section Frame

variable {s t : Session} {event : Event} {requests : List Request}

/-- Only a shutdown stops a session, and nothing sets it going again. -/
theorem running_of_stepped (h : Stepped s event t requests) (ht : t.running = true) :
    s.running = true := by
  cases h with
  | stopped => exact absurd ht Bool.false_ne_true
  | _ => exact ht

/-- Redraws are closed by a shutdown and by nothing else. -/
theorem closed_of_stepped (h : Stepped s event t requests)
    (hs : s.redraw.closed = !s.running) : t.redraw.closed = !t.running := by
  cases h with
  | stopped => rfl
  | delivered => exact (Redraw.deliver_closed s.redraw).trans hs
  | @pollAsked poll next answer now snapshot redraw hpoller hnext =>
      cases redraw with
      | true => exact (Redraw.notify_closed s.redraw).trans hs
      | false => exact hs
  | started | pollBegun | pollOver | slid | lookupSubmitted | operated | lookupFound
  | lookupBroken => exact (Redraw.notify_closed s.redraw).trans hs
  | _ => exact hs

/-- The flag of the requests is in step with the callbacks after every event. -/
theorem inStep_of_stepped (h : Stepped s event t requests) (hs : s.redraw.InStep) :
    t.redraw.InStep := by
  cases h with
  | delivered => exact hs.deliver
  | @pollAsked poll next answer now snapshot redraw hpoller hnext =>
      cases redraw with
      | true => exact hs.notify
      | false => exact hs
  | started | pollBegun | pollOver | slid | lookupSubmitted | operated | lookupFound
  | lookupBroken => exact hs.notify
  | _ => exact hs

end Frame

/-! ### Runs -/

/-- An event, or a change of the listeners. -/
inductive Occurrence where
  | event (event : Event)
  | subscribe
  | unsubscribe (number : Nat)

/-- The session after an occurrence, and the requests that it makes. -/
def occur (s : Session) : Occurrence → Session × List Request
  | .event event => s.step event
  | .subscribe => ({ s with redraw := s.redraw.subscribe () }, [])
  | .unsubscribe number => ({ s with redraw := s.redraw.unsubscribe number }, [])

/-- The listeners that an occurrence calls. -/
def calledBy (s : Session) : Occurrence → List Nat
  | .event .redraw => s.deliver.1
  | _ => []

/-- The session that a run leaves. -/
def after (s : Session) : List Occurrence → Session
  | [] => s
  | o :: rest => (s.occur o).1.after rest

/-- The requests that are made in a run. -/
def requests (s : Session) : List Occurrence → List Request
  | [] => []
  | o :: rest => (s.occur o).2 ++ (s.occur o).1.requests rest

/-- The listeners that are called in a run. -/
def called (s : Session) : List Occurrence → List Nat
  | [] => []
  | o :: rest => s.calledBy o ++ (s.occur o).1.called rest

section Runs

variable {s : Session}

theorem after_append (first rest : List Occurrence) :
    s.after (first ++ rest) = (s.after first).after rest := by
  induction first generalizing s with
  | nil => rfl
  | cons o first ih => exact ih

/-- What every event and every change of the listeners preserves holds after
    any run. -/
theorem occurrence_invariant {P : Session → Prop} (hs : P s)
    (hevent : ∀ u event t requests, P u → Stepped u event t requests → P t)
    (hlisteners : ∀ u listeners next, P u →
      P { u with redraw := { u.redraw with listeners, next } })
    (run : List Occurrence) : P (s.after run) := by
  induction run generalizing s with
  | nil => exact hs
  | cons o rest ih =>
      have hone : P (s.occur o).1 := by
        cases o with
        | event event => exact hevent s event _ _ hs (stepped event)
        | subscribe => exact hlisteners s _ _ hs
        | unsubscribe number => exact hlisteners s _ _ hs
      exact ih hone

/-- Redraws are open for as long as a session is running. -/
theorem closed_after (run : List Occurrence) :
    (initial.after run).redraw.closed = !(initial.after run).running :=
  occurrence_invariant (P := fun u => u.redraw.closed = !u.running) rfl
    (fun _ _ _ _ hu h => closed_of_stepped h hu) (fun _ _ _ hu => hu) run

/-- The flag of the requests is in step with the callbacks at any time. -/
theorem inStep_after (run : List Occurrence) : (initial.after run).redraw.InStep :=
  occurrence_invariant (P := fun u => u.redraw.InStep) Redraw.inStep_empty
    (fun _ _ _ _ hu h => inStep_of_stepped h hu) (fun _ _ _ hu => hu) run

end Runs

end Session

end Monitor

end NodeWatch
