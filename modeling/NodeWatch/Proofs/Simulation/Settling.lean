import NodeWatch.Proofs.Monitor.Events
import NodeWatch.Simulation.World

/-!
# Settling

A world settles by letting its jobs take their turns. How many turns that can
take is computed beforehand, from the questions that the poll and the lookup
have left and from the jobs that wait. Each turn that is taken makes the number
less, also when it leads to another question: the questions that are left pay
for it. So no job is left in the end.

## Main definitions

* `sessionWork`: The turns that the questions of a session can lead to.
* `requestTurns`, `requestsTurns`: The turns that requests add.

## Theorems

* `work_of_stepped`: The questions that are left pay for the next one.
* `work_turn`, `work_perform`: A turn makes the work less.
* `jobs_settle`: No job is left.
-/

namespace NodeWatch

namespace Simulation

open Monitor (Session Event Request Poller)
open Monitor.Session (Stepped)

/-- The turns that the questions of a poll can lead to at most. -/
def pollWork : Poller → Nat
  | .polling poll => poll.stage.remaining * stepTurns
  | _ => 0

/-- The turns that the questions of a lookup can lead to at most. -/
def lookupWork : Option Lookup.Stage → Nat
  | some stage => stage.remaining * stepTurns
  | none => 0

/-- The turns that the questions of a session can lead to at most. -/
def sessionWork (s : Session) : Nat := pollWork s.poller + lookupWork s.lookup

/-- The turns that a request of the poll, the lookup or the animator adds. -/
def requestTurns : Request → Nat
  | .askPoll _ | .askLookup _ => answerTurns + 1
  | _ => 0

/-- The turns that several requests add. -/
def requestsTurns : List Request → Nat
  | [] => 0
  | r :: rest => requestTurns r + requestsTurns rest

/-- A request that a job can lead to. -/
def IsOfJob : Request → Prop
  | .beginLookup | .endSleeps => False
  | _ => True

theorem jobsWork_append (jobs more : List (Nat × Job)) :
    jobsWork (jobs ++ more) = jobsWork jobs + jobsWork more := by
  induction jobs with
  | nil => exact (Nat.zero_add _).symm
  | cons job rest ih =>
      rcases job with ⟨turns, job⟩
      simp only [List.cons_append, jobsWork, ih]
      omega

theorem jobsWork_singleton (turns : Nat) (job : Job) :
    jobsWork [(turns, job)] = turns + 1 + job.work := rfl

namespace World

section Work

variable {w : World} {s t : Session} {requests : List Request}

theorem work_eq (w : World) : w.work = sessionWork w.session + jobsWork w.jobs := by
  unfold work sessionWork pollWork lookupWork
  cases w.session.poller <;> cases w.session.lookup <;> rfl

/-- No job is an act of the user, a start or a shutdown. -/
theorem event_cases (w : World) (job : Job) :
    w.event job ≠ .start ∧ w.event job ≠ .shutdown ∧ ¬ (w.event job).IsUser := by
  cases job <;> exact ⟨Event.noConfusion, Event.noConfusion, id⟩

/-- The questions that are left pay for the next one. -/
theorem work_of_stepped {event : Event} {job : Job} (hevent : w.event job = event)
    (h : Stepped s event t requests) :
    sessionWork t + requestsTurns requests ≤ sessionWork s + job.work ∧
      ∀ r ∈ requests, IsOfJob r := by
  have hturns : answerTurns + 1 ≤ stepTurns := by decide
  have hnone : ∀ r ∈ ([] : List Request), IsOfJob r := fun r hr => absurd hr List.not_mem_nil
  rcases w.event_cases job with ⟨hstart, hshutdown, huser⟩
  rw [hevent] at hstart hshutdown huser
  cases h with
  | started | startRefused => exact absurd rfl hstart
  | stopped => exact absurd rfl hshutdown
  | lookupSubmitted hc | operated hc => exact absurd hc huser
  | idle | animatorEnded | delivered => exact ⟨Nat.le_add_right _ _, hnone⟩
  | slid | dozed =>
      exact ⟨Nat.le_add_right _ _, fun r hr => List.mem_singleton.mp hr ▸ trivial⟩
  | lookupFound | lookupBroken =>
      refine ⟨?_, hnone⟩
      change pollWork s.poller + 0 ≤ sessionWork s + job.work
      rw [sessionWork]
      omega
  | pollerEnded =>
      refine ⟨?_, hnone⟩
      change 0 + lookupWork s.lookup ≤ sessionWork s + job.work
      rw [sessionWork]
      omega
  | pollBegun =>
      have hwork : job.work = (Monitor.maxBlocks + 6) * stepTurns := by
        cases job with
        | pollerWake => rfl
        | _ => cases hevent
      refine ⟨?_, fun r hr => List.mem_singleton.mp hr ▸ trivial⟩
      change (Monitor.maxBlocks + 5) * stepTurns + lookupWork s.lookup + (answerTurns + 1) ≤ _
      rw [sessionWork, hwork, Nat.succ_mul (Monitor.maxBlocks + 5)]
      omega
  | @pollAsked poll next answer now snapshot redraw hpoller hnext =>
      have hless := poll.remaining_next s.snapshot now answer
      rw [hnext] at hless
      have hpaid : pollWork (.polling next) + stepTurns ≤ pollWork (.polling poll) := by
        refine Nat.le_trans ?_ (Nat.mul_le_mul_right stepTurns hless)
        exact Nat.le_of_eq (Nat.succ_mul _ _).symm
      refine ⟨?_, fun r hr => List.mem_singleton.mp hr ▸ trivial⟩
      change pollWork (.polling next) + lookupWork s.lookup + (answerTurns + 1) ≤ _
      rw [sessionWork, hpoller]
      omega
  | pollOver =>
      change pollWork (if s.running then .sleeping else .ended) + lookupWork s.lookup + _ ≤ _ ∧ _
      cases s.running with
      | true =>
          refine ⟨?_, fun r hr => List.mem_singleton.mp hr ▸ trivial⟩
          change 0 + lookupWork s.lookup ≤ sessionWork s + job.work
          rw [sessionWork]
          omega
      | false =>
          refine ⟨?_, hnone⟩
          change 0 + lookupWork s.lookup ≤ sessionWork s + job.work
          rw [sessionWork]
          omega
  | @lookupBegun query call stage hworker hbegin =>
      have hwork : job.work = 5 * stepTurns := by
        cases job with
        | lookupBegin => rfl
        | _ => cases hevent
      have hfew : stage.remaining ≤ 4 := by
        unfold Lookup.begin at hbegin
        split at hbegin <;> cases hbegin <;> decide
      have hpaid := Nat.mul_le_mul_right stepTurns hfew
      refine ⟨?_, fun r hr => List.mem_singleton.mp hr ▸ trivial⟩
      change pollWork s.poller + stage.remaining * stepTurns + (answerTurns + 1) ≤ _
      rw [sessionWork, hwork]
      omega
  | @lookupAsked query call stage next answer hquery hlookup hnext =>
      have hless := Lookup.remaining_next query stage answer
      rw [hnext] at hless
      have hpaid : lookupWork (some next) + stepTurns ≤ lookupWork (some stage) := by
        refine Nat.le_trans ?_ (Nat.mul_le_mul_right stepTurns hless)
        exact Nat.le_of_eq (Nat.succ_mul _ _).symm
      refine ⟨?_, fun r hr => List.mem_singleton.mp hr ▸ trivial⟩
      change pollWork s.poller + lookupWork (some next) + (answerTurns + 1) ≤ _
      rw [sessionWork, hlookup]
      omega

/-- An answer that is on its way takes no more turns than it may. -/
theorem work_schedule {job : Job} (response : ScriptedNode.Response) (hjob : job.work = 0) :
    (w.schedule response job).work ≤ w.work + (answerTurns + 1) := by
  have hturns : (if response.refused then refusalTurns else answerTurns) ≤ answerTurns := by
    split <;> decide
  rw [work_eq, work_eq]
  change sessionWork w.session + jobsWork (w.jobs ++ [(_, job)]) ≤ _
  rw [jobsWork_append, jobsWork_singleton, hjob]
  omega

/-- A request adds its turns, and leaves the session alone. -/
theorem work_grant {r : Request} (hr : IsOfJob r) : (w.grant r).work ≤ w.work + requestTurns r := by
  cases r with
  | askPoll call =>
      change (w.askPoll call).work ≤ _
      unfold askPoll
      simp only
      split
      · exact Nat.le_add_right _ _
      · exact work_schedule (w := { w with node := (w.node.respond call).2 }) _ rfl
  | askLookup call =>
      change (w.askLookup call).work ≤ _
      unfold askLookup
      split
      · simp only
        split
        · exact Nat.le_add_right _ _
        · exact work_schedule (w := { w with node := (w.node.respond call).2 }) _ rfl
      · next searchNode _ =>
        simp only
        split
        · exact Nat.le_add_right _ _
        · exact work_schedule
            (w := { w with searchNode := some (searchNode.respond call).2 }) _ rfl
  | sleepPoller | sleepAnimator => exact Nat.le_refl _
  | beginLookup | endSleeps => exact hr.elim

theorem work_foldl_grant (hrequests : ∀ r ∈ requests, IsOfJob r) :
    (requests.foldl grant w).work ≤ w.work + requestsTurns requests := by
  induction requests generalizing w with
  | nil => exact Nat.le_refl _
  | cons r rest ih =>
      rcases List.forall_mem_cons.mp hrequests with ⟨hr, hrest⟩
      have hfirst := work_grant (w := w) hr
      have hmore := ih (w := w.grant r) hrest
      rw [requestsTurns]
      exact Nat.le_trans hmore (by omega)

/-- What a job leads to is paid for by it and by the questions that are left. -/
theorem work_perform (job : Job) : (w.perform job).work ≤ w.work + job.work := by
  have hhappen : (w.happen (w.event job)).work ≤ w.work + job.work := by
    have hstepped := Session.stepped (s := w.session) (w.event job)
    rcases work_of_stepped rfl hstepped with ⟨hpaid, hrequests⟩
    refine Nat.le_trans (work_foldl_grant hrequests) ?_
    rw [work_eq, work_eq]
    change sessionWork (w.session.step (w.event job)).1 + jobsWork w.jobs + _ ≤ _
    omega
  unfold perform
  split
  · rw [work_eq, work_eq]
    change sessionWork w.session + jobsWork (w.jobs ++ [(crashTurns, _)]) ≤ _
    rw [jobsWork_append]
    have hcrash : crashTurns + 1 + 0 ≤ 5 * stepTurns := by decide
    change sessionWork w.session + (jobsWork w.jobs + (crashTurns + 1 + 0))
      ≤ sessionWork w.session + jobsWork w.jobs + 5 * stepTurns
    omega
  · exact hhappen

/-- One turn, in which the first job is done or waits on. -/
def turn (w : World) (turns : Nat) (job : Job) (rest : List (Nat × Job)) : World :=
  if turns ≤ 1 then { w with jobs := rest }.perform job
  else { w with jobs := rest }.enqueue (turns - 1) job

theorem drain_cons {turns : Nat} {job : Job} {rest : List (Nat × Job)}
    (hjobs : w.jobs = (turns, job) :: rest) (fuel : Nat) :
    w.drain (fuel + 1) = (w.turn turns job rest).drain fuel := by
  rw [drain, hjobs, turn]
  simp only
  split <;> rfl

theorem drain_nil (hjobs : w.jobs = []) (fuel : Nat) : w.drain fuel = w := by
  cases fuel with
  | zero => rfl
  | succ fuel => rw [drain, hjobs]

/-- A turn makes the work less. -/
theorem work_turn {turns : Nat} {job : Job} {rest : List (Nat × Job)}
    (hjobs : w.jobs = (turns, job) :: rest) : (w.turn turns job rest).work < w.work := by
  have hwork : w.work = sessionWork w.session + (turns + 1 + job.work + jobsWork rest) := by
    rw [work_eq, hjobs, jobsWork]
  unfold turn
  split
  · have hperform := work_perform (w := { w with jobs := rest }) job
    rw [work_eq { w with jobs := rest }] at hperform
    simp only at hperform
    omega
  · rw [hwork, work_eq]
    change sessionWork w.session + jobsWork (rest ++ [(turns - 1, job)]) < _
    rw [jobsWork_append, jobsWork_singleton]
    omega

/-- With as many turns as there is work, no job is left. -/
theorem jobs_drain {fuel : Nat} (h : w.work ≤ fuel) : (w.drain fuel).jobs = [] := by
  induction fuel generalizing w with
  | zero =>
      cases hjobs : w.jobs with
      | nil => exact hjobs
      | cons job rest =>
          have hless := work_turn hjobs
          omega
  | succ fuel ih =>
      cases hjobs : w.jobs with
      | nil =>
          rw [drain_nil hjobs]
          exact hjobs
      | cons job rest =>
          have hless := work_turn hjobs
          rw [drain_cons hjobs]
          exact ih (by omega)

/-- No job is left when a world has settled. -/
theorem jobs_settle (w : World) : w.settle.jobs = [] := jobs_drain (Nat.le_refl w.work)

/-- What one turn preserves holds as long as jobs take their turns. -/
theorem drain_invariant {P : World → Prop}
    (hturn : ∀ u turns job rest, u.jobs = (turns, job) :: rest → P u → P (u.turn turns job rest))
    (fuel : Nat) (hw : P w) : P (w.drain fuel) := by
  induction fuel generalizing w with
  | zero => exact hw
  | succ fuel ih =>
      cases hjobs : w.jobs with
      | nil =>
          rw [drain_nil hjobs]
          exact hw
      | cons job rest =>
          rw [drain_cons hjobs]
          exact ih (hturn w job.1 job.2 rest hjobs hw)

end Work

end World

end Simulation

end NodeWatch
