import NodeWatch.Proofs.Monitor.Schedule
import NodeWatch.Proofs.Simulation.Settling

/-!
# Agreement with a Clock

A world in virtual time has jobs that take turns and sleeps that end. A session
on a clock has neither: it is woken when the sleep of its poller is over, and
things happen to it. `Agrees` brings the two together. The sleep of the poller
is pending in the world as long as it goes on, and also while the job that it
led to waits for its turn, which takes no time.

Requests have the same effect on both, one by one. The only one that could do
harm is the one of a poller that goes to sleep while it sleeps; but it is made
when a poll is over, and the poller does not sleep during a poll.

## Main definitions

* `Sleeper`, `World.pending`: When the sleeps of the poller and of the animator
  end.
* `World.taken`: An event without its requests.
* `World.Frame`, `World.Beside`: What requests leave alone.
* `World.Agrees`: A world and a session on a clock.

## Theorems

* `due_grant`: A request on both sides.
* `agrees_happen`: An event on both sides.
* `agrees_turn`, `agrees_settle`: What happens while no time passes.
-/

namespace NodeWatch

namespace Simulation

open Monitor (Session Event Request Poller Clocked Phase Scheduled)
open Monitor.Session (Stepped)

/-- Who sleeps. -/
inductive Sleeper where
  | poller
  | animator
deriving DecidableEq

/-- Who wakes up by a job. -/
def Job.sleeper? : Job → Option Sleeper
  | .pollerWake => some .poller
  | .animatorWake => some .animator
  | _ => none

/-- The sleeper for whom a request is made. -/
def requestSleeper? : Request → Option Sleeper
  | .sleepPoller => some .poller
  | .sleepAnimator => some .animator
  | _ => none

namespace World

/-- When the sleeps of one sleeper end. A sleep that is over leads to a job, which
    takes its turns now. -/
def pending (w : World) (k : Sleeper) : List Double :=
  (w.sleeps.filter fun s => s.job.sleeper? = some k).map (·.due)
    ++ List.replicate (w.jobs.countP fun j => j.2.sleeper? = some k) w.now

/-- The world when its session has taken an event and no request is granted yet. -/
def taken (w : World) (event : Event) : World :=
  { w with session := (w.session.step event).1, failures := w.failures ++ reportOf event }

theorem happen_eq_taken (w : World) (event : Event) :
    w.happen event = (w.session.step event).2.foldl grant (w.taken event) := rfl

/-- Two worlds with the same session and clock. What is held back wakes nobody, if
    it did not before. -/
structure Frame (w w' : World) : Prop where
  session : w'.session = w.session
  now : w'.now = w.now
  refreshMs : w'.refreshMs = w.refreshMs
  tickMs : w'.tickMs = w.tickMs
  failures : w'.failures = w.failures
  held : ∀ job ∈ w'.held.1 ++ w'.held.2, job ∈ w.held.1 ++ w.held.2 ∨ job.sleeper? = none

/-- Two worlds that differ in what concerns questions and answers only. -/
structure Beside (w w' : World) : Prop extends Frame w w' where
  sleeps : w'.sleeps = w.sleeps
  nextSleep : w'.nextSleep = w.nextSleep
  jobs : ∃ more, w'.jobs = w.jobs ++ more ∧ ∀ j ∈ more, j.2.sleeper? = none

section Requests

variable {w w' : World} {k : Sleeper}

theorem Frame.refl (w : World) : w.Frame w :=
  ⟨rfl, rfl, rfl, rfl, rfl, fun _ hjob => .inl hjob⟩

theorem Frame.trans {u v w : World} (huv : u.Frame v) (hvw : v.Frame w) : u.Frame w where
  session := hvw.session.trans huv.session
  now := hvw.now.trans huv.now
  refreshMs := hvw.refreshMs.trans huv.refreshMs
  tickMs := hvw.tickMs.trans huv.tickMs
  failures := hvw.failures.trans huv.failures
  held job hjob := (hvw.held job hjob).elim (huv.held job) .inr

theorem Beside.refl (w : World) : w.Beside w where
  toFrame := .refl w
  sleeps := rfl
  nextSleep := rfl
  jobs := ⟨[], (List.append_nil _).symm, fun _ hj => absurd hj List.not_mem_nil⟩

theorem beside_enqueue (turns : Nat) {job : Job} (hjob : job.sleeper? = none) :
    w.Beside (w.enqueue turns job) := by
  refine { Beside.refl w with
    jobs := ⟨[(turns, job)], rfl, fun j hj => List.mem_singleton.mp hj ▸ hjob⟩ }

theorem Beside.trans {u v w : World} (huv : u.Beside v) (hvw : v.Beside w) : u.Beside w where
  toFrame := huv.toFrame.trans hvw.toFrame
  sleeps := hvw.sleeps.trans huv.sleeps
  nextSleep := hvw.nextSleep.trans huv.nextSleep
  jobs := by
    rcases huv.jobs with ⟨first, hfirst, hnone⟩
    rcases hvw.jobs with ⟨more, hmore, hnone'⟩
    refine ⟨first ++ more, by rw [hmore, hfirst, List.append_assoc], fun j hj => ?_⟩
    exact (List.mem_append.mp hj).elim (hnone j) (hnone' j)

/-- An answer is held back, or is on its way. -/
theorem beside_answer (response : ScriptedNode.Response) {job : Job} (hjob : job.sleeper? = none) :
    w.Beside { w with held := (w.held.1 ++ [job], w.held.2) } ∧
      w.Beside { w with held := (w.held.1, w.held.2 ++ [job]) } ∧
      w.Beside (w.schedule response job) := by
  have hone {other : Job} (h : other ∈ [job]) : other.sleeper? = none :=
    List.mem_singleton.mp h ▸ hjob
  refine ⟨{ Beside.refl w with held := fun other hother => ?_ },
    { Beside.refl w with held := fun other hother => ?_ }, beside_enqueue _ hjob⟩
  · rcases List.mem_append.mp hother with h | h
    · exact (List.mem_append.mp h).imp (List.mem_append_left _) hone
    · exact .inl (List.mem_append_right _ h)
  · rcases List.mem_append.mp hother with h | h
    · exact .inl (List.mem_append_left _ h)
    · exact (List.mem_append.mp h).imp (List.mem_append_right _) hone

/-- A request that puts nobody to sleep and wakes nobody is about questions. -/
theorem beside_grant {r : Request} (hr : requestSleeper? r = none) (hend : r ≠ .endSleeps) :
    w.Beside (w.grant r) := by
  cases r with
  | sleepPoller | sleepAnimator => exact absurd hr (Option.some_ne_none _)
  | endSleeps => exact absurd rfl hend
  | beginLookup => exact { beside_enqueue (w := w) _ rfl with }
  | askPoll call =>
      change w.Beside (w.askPoll call)
      unfold askPoll
      have hnode : w.Beside { w with node := (w.node.respond call).2 } := { Beside.refl w with }
      refine hnode.trans ?_
      simp only
      split
      · exact (beside_answer (w.node.respond call).1 rfl).1
      · exact (beside_answer _ rfl).2.2
  | askLookup call =>
      change w.Beside (w.askLookup call)
      unfold askLookup
      split
      · have hnode : w.Beside { w with node := (w.node.respond call).2 } := { Beside.refl w with }
        refine hnode.trans ?_
        simp only
        split
        · exact (beside_answer (w.node.respond call).1 rfl).1
        · exact (beside_answer _ rfl).2.2
      · next searchNode _ =>
        have hnode : w.Beside { w with searchNode := some (searchNode.respond call).2 } :=
          { Beside.refl w with }
        refine hnode.trans ?_
        simp only
        split
        · exact (beside_answer (searchNode.respond call).1 rfl).2.1
        · exact (beside_answer _ rfl).2.2

theorem Beside.pending (h : w.Beside w') (k : Sleeper) : w'.pending k = w.pending k := by
  rcases h.jobs with ⟨more, hjobs, hnone⟩
  have hmore : more.countP (fun j => decide (j.2.sleeper? = some k)) = 0 := by
    refine List.countP_eq_zero.mpr fun j hj hc => ?_
    exact Option.some_ne_none k ((of_decide_eq_true hc).symm.trans (hnone j hj))
  rw [World.pending, World.pending, h.sleeps, h.now, hjobs, List.countP_append, hmore, Nat.add_zero]

/-- Someone who does not sleep goes to sleep. -/
theorem pending_sleep {job : Job} (hjob : job.sleeper? = some k) (hnone : w.pending k = [])
    (ms : Double) : (w.sleep ms job).pending k = [w.now + sleepLength ms] := by
  rcases List.append_eq_nil_iff.mp hnone with ⟨hsleeps, hjobs⟩
  simp only [World.pending, World.sleep, List.filter_append, List.map_append, hsleeps, hjobs,
    List.filter_singleton, hjob, decide_true, cond_true, List.map_singleton, List.nil_append,
    List.append_nil]

theorem pending_sleep_other {job : Job} (hjob : job.sleeper? ≠ some k) (ms : Double) :
    (w.sleep ms job).pending k = w.pending k := by
  simp only [World.pending, World.sleep, List.filter_append, List.filter_singleton, hjob,
    decide_false, cond_false, List.append_nil]

/-- When the sleeps are to end, all that are pending end now. -/
theorem pending_endSleeps (w : World) (k : Sleeper) :
    (w.grant .endSleeps).pending k = (w.pending k).map fun _ => w.now := by
  have hcount : (w.sleeps.map fun s => (wakeTurns, s.job)).countP
      (fun j => decide (j.2.sleeper? = some k))
        = (w.sleeps.filter fun s => s.job.sleeper? = some k).length := by
    rw [List.countP_map, List.countP_eq_length_filter]
    rfl
  change List.replicate ((w.jobs ++ w.sleeps.map fun s => (wakeTurns, s.job)).countP _) w.now = _
  rw [List.countP_append, hcount, World.pending, List.map_append, List.map_map, List.map_replicate,
    Nat.add_comm, ← List.replicate_append_replicate]
  congr 1
  exact List.map_const'.symm

end Requests

/-- A world and a session on a clock agree about the session, the time, the sleep
    of the poller and the reports. -/
structure Agrees (ms : Double) (w : World) (c : Clocked) : Prop where
  refreshMs : w.refreshMs = ms
  session : c.session = w.session
  now : c.now = w.now
  due : c.due.toList = w.pending .poller
  reports : c.reports = w.failures
  /-- What is held back wakes nobody. -/
  held : ∀ job ∈ w.held.1 ++ w.held.2, job.sleeper? = none

section Agreement

variable {w : World} {c : Clocked} {ms : Double}

/-- A request has the same effect on the sleep of the poller. -/
theorem due_grant {due : Option Double} (hdue : due.toList = w.pending .poller) {r : Request}
    (hfree : r = .sleepPoller → due = none) :
    (Clocked.dueAfter w.refreshMs w.now due r).toList = (w.grant r).pending .poller := by
  cases r with
  | sleepPoller =>
      rw [hfree rfl] at hdue
      exact (pending_sleep rfl hdue.symm w.refreshMs).symm
  | sleepAnimator =>
      have hother : Job.animatorWake.sleeper? ≠ some .poller := by decide
      exact hdue.trans (pending_sleep_other hother w.tickMs).symm
  | endSleeps =>
      rw [pending_endSleeps, ← hdue]
      cases due <;> rfl
  | askPoll | askLookup | beginLookup =>
      exact hdue.trans ((beside_grant rfl fun hc => Request.noConfusion hc).pending .poller).symm

theorem frame_grant (w : World) (r : Request) : w.Frame (w.grant r) := by
  cases r with
  | sleepPoller | sleepAnimator | endSleeps => exact { Frame.refl w with }
  | askPoll | askLookup | beginLookup =>
      exact (beside_grant rfl fun hc => Request.noConfusion hc).toFrame

theorem frame_foldl (requests : List Request) (w : World) : w.Frame (requests.foldl grant w) := by
  induction requests generalizing w with
  | nil => exact .refl w
  | cons r rest ih => exact (frame_grant w r).trans (ih (w.grant r))

theorem Agrees.frame {w' : World} {due : Option Double} (h : w.Agrees ms c) (hw : w.Frame w')
    (hdue : due.toList = w'.pending .poller) : w'.Agrees ms { c with due } :=
  ⟨hw.refreshMs.trans h.refreshMs, h.session.trans hw.session.symm, h.now.trans hw.now.symm, hdue,
    h.reports.trans hw.failures.symm, fun job hjob => (hw.held job hjob).elim (h.held job) id⟩

theorem Agrees.beside {w' : World} (h : w.Agrees ms c) (hw : w.Beside w') : w'.Agrees ms c :=
  h.frame hw.toFrame (h.due.trans (hw.pending .poller).symm)

/-- Requests have the same effect on the world and on the clock, if the poller
    goes to sleep only when it does not sleep. -/
theorem agrees_foldl {requests : List Request} (h : w.Agrees ms c)
    (hfree : .sleepPoller ∈ requests → requests = [.sleepPoller] ∧ c.due = none) :
    (requests.foldl grant w).Agrees ms
      { c with due := requests.foldl (Clocked.dueAfter ms c.now) c.due } := by
  induction requests generalizing w c with
  | nil => exact h
  | cons r rest ih =>
      have hdue := due_grant h.due fun hr => (hfree (hr ▸ List.mem_cons_self)).2
      rw [h.refreshMs, ← h.now] at hdue
      refine ih (h.frame (frame_grant w r) hdue) fun hmem => ?_
      have hone := (hfree (List.mem_cons_of_mem r hmem)).1
      rw [(List.cons.inj hone).2] at hmem
      exact absurd hmem List.not_mem_nil

/-- The poller goes to sleep when a poll is over. -/
theorem sleepPoller_alone {s : Session} {event : Event} (hmem : .sleepPoller ∈ (s.step event).2) :
    (s.step event).2 = [.sleepPoller] ∧ ∃ poll, s.poller = .polling poll := by
  have hstepped := Session.stepped (s := s) event
  generalize (s.step event).1 = t, (s.step event).2 = requests at hstepped hmem
  cases hstepped with
  | pollOver hpoller =>
      refine ⟨?_, _, hpoller⟩
      split at hmem
      · next hrunning => exact if_pos hrunning
      · exact absurd hmem List.not_mem_nil
  | _ =>
      simp only [List.mem_cons, List.not_mem_nil, reduceCtorEq, or_self] at hmem

/-- The poller does not sleep while a poll is under way. -/
theorem due_of_polling {refreshMs : Double} {poll : Monitor.Poll} (h : Phase refreshMs c)
    (hpoller : c.session.poller = .polling poll) : c.due = none := by
  cases h with
  | polling _ _ _ _ _ _ hdue => exact hdue
  | idle hc | sleeping hc | ended hc => exact Poller.noConfusion (hc.symm.trans hpoller)

/-- An event is the same for a world and for a session on a clock. -/
theorem agrees_happen (h : w.Agrees ms c) (event : Event)
    (hfree : ∀ poll, c.session.poller = .polling poll → c.due = none) :
    (w.happen event).Agrees ms (c.happen ms (.event event)) := by
  have hstep : c.session.step event = w.session.step event := by
    rw [h.session]
  let d : Clocked :=
    { c with
      session := (c.session.step event).1
      polls := Clocked.noted c.now (Monitor.question? (c.session.step event).2) c.polls
        (.event event)
      reports := c.reports ++ reportOf event }
  have hstart : (w.taken event).Agrees ms d :=
    ⟨h.refreshMs, congrArg Prod.fst hstep, h.now, h.due, congrArg (· ++ reportOf event) h.reports,
      h.held⟩
  have halone (hmem : .sleepPoller ∈ (c.session.step event).2) :
      (c.session.step event).2 = [.sleepPoller] ∧ d.due = none := by
    rcases sleepPoller_alone hmem with ⟨hone, poll, hpoller⟩
    exact ⟨hone, hfree poll hpoller⟩
  have hall := agrees_foldl hstart halone
  rw [happen_eq_taken, ← hstep]
  exact hall

/-- Whose turn it is does not matter to the sleeps. -/
theorem pending_cons {turns : Nat} {job : Job} {rest : List (Nat × Job)}
    (hjobs : w.jobs = (turns, job) :: rest) (k : Sleeper) :
    w.pending k = { w with jobs := rest }.pending k
      ++ if job.sleeper? = some k then [w.now] else [] := by
  simp only [pending, hjobs, List.countP_cons, List.append_assoc, decide_eq_true_eq]
  congr 1
  split
  · rw [List.replicate_succ']
  · rw [Nat.add_zero, List.append_nil]

theorem pending_again {turns : Nat} {job : Job} {rest : List (Nat × Job)}
    (hjobs : w.jobs = (turns, job) :: rest) (k : Sleeper) :
    ({ w with jobs := rest }.enqueue (turns - 1) job).pending k = w.pending k := by
  simp only [pending, enqueue, hjobs, List.countP_append, List.countP_cons, List.countP_nil,
    Nat.zero_add]

/-- The end of a sleep of the poller wakes it. -/
theorem agrees_pollerWake {rest : List (Nat × Job)} {turns : Nat} (h : w.Agrees ms c)
    (hjobs : w.jobs = (turns, .pollerWake) :: rest) :
    ({ w with jobs := rest }.happen .pollerWake).Agrees ms (c.step ms .wake) := by
  have hdue : c.due.toList = { w with jobs := rest }.pending .poller ++ [w.now] :=
    h.due.trans (pending_cons hjobs .poller)
  -- The poller has one sleep at a time, and this one is over.
  cases hc : c.due with
  | none =>
      rw [hc] at hdue
      exact absurd hdue.symm (List.append_ne_nil_of_right_ne_nil _ (List.cons_ne_nil _ _))
  | some d =>
      rw [hc, Option.toList_some] at hdue
      rcases List.append_eq_singleton_iff.mp hdue.symm with ⟨hnone, hd⟩ | ⟨-, hd⟩
      · obtain rfl : w.now = d := List.singleton_inj.mp hd
        have hfirst : { w with jobs := rest }.Agrees ms { c with now := w.now, due := none } :=
          ⟨h.refreshMs, h.session, rfl, hnone.symm, h.reports, h.held⟩
        unfold Clocked.step
        simp only [hc]
        exact agrees_happen hfirst .pollerWake fun _ _ => rfl
      · exact absurd hd (List.cons_ne_nil _ _)

theorem perform_cases (w : World) (job : Job) :
    w.perform job = w.happen (w.event job) ∨
      job = .lookupBegin ∧
        ∃ message, w.perform job = w.enqueue crashTurns (.lookupCrash message) := by
  unfold perform
  split
  · exact .inr ⟨rfl, _, rfl⟩
  · exact .inl rfl

/-- A turn of a job is something that happens to a session on a clock, or
    nothing. -/
theorem agrees_turn {turns : Nat} {job : Job} {rest : List (Nat × Job)} (h : w.Agrees ms c)
    (hc : Phase ms c) (hjobs : w.jobs = (turns, job) :: rest) :
    ∃ run, (w.turn turns job rest).Agrees ms (c.after ms run) := by
  have hpending := pending_cons hjobs .poller
  have hfree (poll : Monitor.Poll) (hpoller : c.session.poller = .polling poll) : c.due = none :=
    due_of_polling hc hpoller
  have hleft (hjob : job.sleeper? ≠ some .poller) : { w with jobs := rest }.Agrees ms c := by
    rw [if_neg hjob, List.append_nil] at hpending
    exact ⟨h.refreshMs, h.session, h.now, h.due.trans hpending, h.reports, h.held⟩
  unfold turn
  split
  · rcases perform_cases { w with jobs := rest } job with hperform | ⟨rfl, message, hperform⟩
    · rw [hperform]
      cases job with
      | pollerWake => exact ⟨[.wake], agrees_pollerWake h hjobs⟩
      | pollAnswer answer =>
          have hevent : Event.pollAnswer answer w.now = .pollAnswer answer c.now := by
            rw [h.now]
          refine ⟨[.answer answer], ?_⟩
          change ({ w with jobs := rest }.happen (.pollAnswer answer w.now)).Agrees ms _
          rw [hevent]
          exact agrees_happen (hleft (Option.some_ne_none _).symm) _ hfree
      | lookupBegin =>
          exact ⟨[.occurs (.event .lookupBegin)],
            agrees_happen (hleft (Option.some_ne_none _).symm) _ hfree⟩
      | lookupAnswer answer =>
          exact ⟨[.occurs (.event (.lookupAnswer answer))],
            agrees_happen (hleft (Option.some_ne_none _).symm) _ hfree⟩
      | lookupCrash message =>
          exact ⟨[.occurs (.event (.lookupCrash message))],
            agrees_happen (hleft (Option.some_ne_none _).symm) _ hfree⟩
      | animatorWake =>
          exact ⟨[.occurs (.event .animatorWake)], agrees_happen (hleft (by decide)) _ hfree⟩
    · rw [hperform]
      exact ⟨[], (hleft (Option.some_ne_none _).symm).beside (beside_enqueue _ rfl)⟩
  · exact ⟨[], h.refreshMs, h.session, h.now, h.due.trans (pending_again hjobs .poller).symm,
      h.reports, h.held⟩

/-- Whatever happens while no time passes is a run on the clock. -/
theorem agrees_settle (h : w.Agrees ms c) (hc : Scheduled ms c) :
    ∃ run, w.settle.Agrees ms (c.after ms run) := by
  have hdrain : ∃ run, (w.drain w.work).Agrees ms (c.after ms run) := by
    refine drain_invariant (P := fun u => ∃ run, u.Agrees ms (c.after ms run)) ?_ _ ⟨[], h⟩
    rintro u turns job rest hjobs ⟨run, hu⟩
    rcases agrees_turn hu (Monitor.scheduled_after hc run).phase hjobs with ⟨more, hmore⟩
    refine ⟨run ++ more, ?_⟩
    rw [Clocked.after, List.foldl_append]
    exact hmore
  rcases hdrain with ⟨run, hu⟩
  refine ⟨run ++ [.occurs (.event .redraw)], ?_⟩
  rw [Clocked.after, List.foldl_append]
  have hredraw := agrees_happen hu .redraw
    fun poll => due_of_polling (Monitor.scheduled_after hc run).phase
  exact ⟨hredraw.refreshMs, hredraw.session, hredraw.now, hredraw.due,
    hredraw.reports.trans (List.append_nil _), hredraw.held⟩

end Agreement

end World

end Simulation

end NodeWatch
