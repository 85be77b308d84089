import Mathlib.Data.List.Induction
import Mathlib.Data.List.Nodup
import NodeWatch.Monitor.Supervisor

/-!
# Supervision

A supervisor keeps no history. It has flags and a list of numbers, and what it
says about the tasks it says by these. Whether it is right is a question about
what happened: which tasks were begun, which of them were asked to stop, by
name or by a shutdown, and how their bodies ended and when.

`Past` is that history, written down without regard to how a supervisor works.
It has one record for each task, so that tasks of one name are told apart, and
a body may end at any time and in any way. `supervisor` reads off a history the
supervisor that should have come of it, and one deed after the other it is the
one that did, `after_eq`. What is reported is compared for each task by itself:
once if its body failed, and never if it finished, or if it failed because it
noticed that it had been asked to stop.

A shutdown waits for the tasks that are under way when it begins. A history only
notes which ones these were, and the supervisor strikes off its list those that
end; that the list holds just those which have not ended is part of `after_eq`.
That no other one is under way at its end is not a matter of waiting: nothing
begins after it.

## Main definitions

* `Supervisor.Deed`: What happens to tasks.
* `Supervisor.after`, `Supervisor.calls`: The supervisor after a run of deeds,
  and the reports in it.
* `Past`, `TaskRecord`: What happened to the tasks.
* `Past.left`: What a shutdown still waits for.
* `Past.supervisor`: The supervisor that a history leads to.

## Theorems

* `deed_eq`: One deed, on the history and on the supervisor.
* `calls_eq`: The reports of a task.
* `supervised`: Any run, and a shutdown after it.
-/

namespace NodeWatch

namespace Monitor

namespace Supervisor

/-- What happens to tasks. -/
inductive Deed where
  /-- A task is to begin. -/
  | spawn (name : Text)
  | cancel (number : Nat)
  /-- Someone begins to wait for the end of a task. -/
  | join (number : Nat)
  | shutdown
  /-- The body of a task ends. -/
  | finish (number : Nat) (ending : Ending)

/-- The supervisor after a deed, and the reports with the numbers of their tasks. -/
def deed (s : Supervisor) : Deed → Supervisor × List (Nat × Text)
  | .spawn name => ((s.spawn name).toOption.getD s, [])
  | .cancel number => (s.cancel number, [])
  | .join _ => (s, [])
  | .shutdown => (s.shutdown, [])
  | .finish number ending =>
    ((s.finish number ending).2, ((s.finish number ending).1.map (number, ·)).toList)

/-- The supervisor that a run leaves. -/
def after (s : Supervisor) : List Deed → Supervisor
  | [] => s
  | d :: rest => (s.deed d).1.after rest

/-- The reports in a run. -/
def calls (s : Supervisor) : List Deed → List (Nat × Text)
  | [] => []
  | d :: rest => (s.deed d).2 ++ (s.deed d).1.calls rest

/-- The reports of one task. -/
def callsOf (number : Nat) (calls : List (Nat × Text)) : List Text :=
  (calls.filter (·.1 = number)).map (·.2)

end Supervisor

/-- What happened to a task. -/
structure TaskRecord where
  name : Text
  /-- It was asked to stop. -/
  asked : Bool
  /-- How its body ended, and whether it had been asked to stop by then. -/
  ending : Option (Ending × Bool)

namespace TaskRecord

/-- The body has not ended. -/
def isOpen (r : TaskRecord) : Bool := r.ending.isNone

/-- A task is asked to stop. -/
def ask (r : TaskRecord) : TaskRecord := { r with asked := true }

/-- The body of a task ends. -/
def finish (r : TaskRecord) (ending : Ending) : TaskRecord :=
  { r with ending := some (ending, r.asked) }

/-- What is to be reported of a task. -/
def due (r : TaskRecord) : Option Text :=
  match r.ending with
  | some (.failed noticed message, asked) =>
    if noticed = true ∧ asked = true then none else some (report r.name message)
  | some (.finished, _) | none => none

/-- What a supervisor keeps of a task. -/
def task (r : TaskRecord) : Task := ⟨r.name, r.asked, r.ending.isSome⟩

end TaskRecord

/-- What happened to the tasks. -/
structure Past where
  records : List TaskRecord
  /-- There was a shutdown. -/
  stopped : Bool
  /-- The tasks that were under way at every shutdown. -/
  waits : List (List Nat)

namespace Past

open Supervisor (Deed)

/-- Nothing has happened. -/
def initial : Past := ⟨[], false, []⟩

/-- A task was begun, and its body has not ended. -/
def IsOpen (p : Past) (number : Nat) : Prop :=
  ∃ r, p.records[number]? = some r ∧ r.isOpen = true

/-- The numbers of the tasks whose bodies have not ended. -/
def openTasks (records : List TaskRecord) : List Nat :=
  (List.range records.length).filter fun n => records[n]?.any TaskRecord.isOpen

/-- What happened, with one more deed. Nothing begins after a shutdown, and a
    body ends only once. -/
def deed (p : Past) : Deed → Past
  | .spawn name => if p.stopped then p else { p with records := p.records ++ [⟨name, false, none⟩] }
  | .cancel number => { p with records := p.records.modify number TaskRecord.ask }
  | .join _ => p
  | .shutdown =>
    ⟨p.records.map fun r => if r.isOpen then r.ask else r, true, p.waits ++ [openTasks p.records]⟩
  | .finish number ending =>
    { p with records := p.records.modify number fun r => if r.isOpen then r.finish ending else r }

/-- What happened, with a run of deeds. -/
def after (p : Past) : List Deed → Past
  | [] => p
  | d :: rest => (p.deed d).after rest

/-- Those of some tasks whose bodies have not ended. -/
def left (records : List TaskRecord) (tasks : List Nat) : List Nat :=
  tasks.filter fun n => records[n]?.any TaskRecord.isOpen

/-- What is to be reported of a task by its number. -/
def dueOf (p : Past) (number : Nat) : List Text := (p.records[number]?.bind TaskRecord.due).toList

/-- The supervisor that a history leads to. -/
def supervisor (p : Past) : Supervisor :=
  ⟨p.records.map TaskRecord.task, openTasks p.records, p.stopped, p.waits.map (left p.records)⟩

/-- A shutdown waits only for tasks that were begun. -/
def Known (p : Past) : Prop := ∀ tasks ∈ p.waits, ∀ n ∈ tasks, n < p.records.length

/-! ### Open tasks -/

section Open

variable {records : List TaskRecord}

theorem mem_openTasks {n : Nat} :
    n ∈ openTasks records ↔ ∃ r, records[n]? = some r ∧ r.isOpen = true := by
  rw [openTasks, List.mem_filter, List.mem_range, Option.any_eq_true, and_iff_right_iff_imp]
  rintro ⟨r, hr, -⟩
  exact (List.getElem?_eq_some_iff.mp hr).1

theorem nodup_openTasks : (openTasks records).Nodup := List.nodup_range.filter _

theorem openTasks_append (r : TaskRecord) :
    openTasks (records ++ [r])
      = openTasks records ++ if r.isOpen then [records.length] else [] := by
  have hold : ∀ n ∈ List.range records.length,
      (records ++ [r])[n]?.any TaskRecord.isOpen = records[n]?.any TaskRecord.isOpen := by
    intro n hn
    rw [List.getElem?_append_left (List.mem_range.mp hn)]
  rw [openTasks, List.length_append, List.length_singleton, List.range_succ, List.filter_append,
    List.filter_congr hold, List.filter_singleton, List.getElem?_concat_length, Option.any_some,
    cond_eq_ite]
  rfl

theorem length_openTasks : (openTasks records).length = records.countP TaskRecord.isOpen := by
  induction records using List.reverseRecOn with
  | nil => rfl
  | append_singleton records r ih =>
      rw [openTasks_append, List.length_append, ih, List.countP_append, List.countP_singleton]
      cases r.isOpen <;> rfl

/-- What is left of tasks that were begun is the same as long as each record
    stays as open as it was. -/
theorem map_left_congr {p : Past} (hp : p.Known) {records' : List TaskRecord}
    (h : ∀ n < p.records.length,
      records'[n]?.any TaskRecord.isOpen = p.records[n]?.any TaskRecord.isOpen) :
    p.waits.map (left records') = p.waits.map (left p.records) :=
  List.map_congr_left fun tasks htasks => List.filter_congr fun n hn => h n (hp tasks htasks n hn)

/-- The open tasks are the same as long as each record stays as open as it was. -/
theorem openTasks_congr {records' : List TaskRecord} (hlength : records'.length = records.length)
    (h : ∀ n : Nat, records'[n]?.any TaskRecord.isOpen = records[n]?.any TaskRecord.isOpen) :
    openTasks records' = openTasks records := by
  rw [openTasks, openTasks, hlength]
  exact List.filter_congr fun n _ => h n

end Open

/-! ### One deed -/

section Deed

variable {p : Past} {n : Nat} {r : TaskRecord} {name : Text} {ending : Ending}

/-- A supervisor is the one of a history if it agrees with it task by task. -/
theorem eq_supervisor {s : Supervisor}
    (htasks : ∀ i : Nat, s.tasks[i]? = p.records[i]?.map TaskRecord.task)
    (hunderWay : s.underWay = openTasks p.records) (hstopped : s.stopped = p.stopped)
    (hshutdowns : s.shutdowns = p.waits.map (left p.records)) : s = p.supervisor := by
  have hall : s.tasks = p.records.map TaskRecord.task :=
    List.ext_getElem? fun i => (htasks i).trans List.getElem?_map.symm
  rcases s with ⟨tasks, underWay, stopped, shutdowns⟩
  simp only at hall hunderWay hstopped hshutdowns
  rw [supervisor, hall, hunderWay, hstopped, hshutdowns]

theorem spawn_eq (hp : p.Known) : p.supervisor.spawn name
    = if p.stopped then .error ⟨name⟩ else .ok (p.deed (.spawn name)).supervisor := by
  unfold Supervisor.spawn
  change (if p.stopped then _ else _) = _
  cases hstopped : p.stopped with
  | true => rfl
  | false =>
      have hleft : p.waits.map (left (p.records ++ [⟨name, false, none⟩]))
          = p.waits.map (left p.records) :=
        map_left_congr hp fun n hn => by rw [List.getElem?_append_left hn]
      simp only [deed, hstopped, supervisor, Bool.false_eq_true, if_false, openTasks_append,
        List.map_append, List.length_map, hleft]
      rfl

theorem cancel_eq (hp : p.Known) : p.supervisor.cancel n = (p.deed (.cancel n)).supervisor := by
  have hrecord : ∀ i : Nat, (p.records.modify n TaskRecord.ask)[i]?
      = p.records[i]?.map fun r => if n = i then r.ask else r := List.getElem?_modify _ _ _
  have hlength : (p.records.modify n TaskRecord.ask).length = p.records.length :=
    List.length_modify _ _ _
  have hsame : ∀ i : Nat, (p.records.modify n TaskRecord.ask)[i]?.any TaskRecord.isOpen
      = p.records[i]?.any TaskRecord.isOpen := by
    intro i
    rw [hrecord]
    by_cases hi : n = i
    · simp only [hi, if_true, Option.any_map]
      rfl
    · simp only [hi, if_false, Option.map_id']
  refine eq_supervisor (fun i => ?_) (openTasks_congr hlength hsame).symm rfl
    (map_left_congr hp fun i _ => hsame i).symm
  change ((p.records.map TaskRecord.task).modify n _)[i]?
    = (p.records.modify n TaskRecord.ask)[i]?.map _
  rw [List.getElem?_modify, hrecord, List.getElem?_map]
  by_cases hi : n = i
  · simp only [hi, if_true, Option.map_eq_map, Option.map_map]
    rfl
  · simp only [hi, if_false, Option.map_eq_map, Option.map_id']

/-- Several tasks are asked to stop. -/
theorem foldl_cancel (numbers : List Nat) (s : Supervisor) (i : Nat) :
    (numbers.foldl Supervisor.cancel s).underWay = s.underWay ∧
      (numbers.foldl Supervisor.cancel s).stopped = s.stopped ∧
      (numbers.foldl Supervisor.cancel s).shutdowns = s.shutdowns ∧
      (numbers.foldl Supervisor.cancel s).tasks[i]?
        = s.tasks[i]?.map fun t => { t with cancelled := t.cancelled || decide (i ∈ numbers) } := by
  induction numbers generalizing s with
  | nil =>
      refine ⟨rfl, rfl, rfl, ?_⟩
      simp only [List.foldl_nil, List.not_mem_nil, decide_false, Bool.or_false, Option.map_id']
  | cons m rest ih =>
      rcases ih (s.cancel m) with ⟨hunderWay, hstopped, hshutdowns, htasks⟩
      refine ⟨hunderWay, hstopped, hshutdowns, htasks.trans ?_⟩
      change ((s.tasks.modify m _)[i]?).map _ = _
      rw [List.getElem?_modify, Option.map_eq_map, Option.map_map]
      congr 1
      funext t
      by_cases hi : m = i
      · simp only [Function.comp_apply, hi, if_true, List.mem_cons, true_or, decide_true,
          Bool.or_true, Bool.true_or]
      · simp only [Function.comp_apply, hi, Ne.symm hi, if_false, List.mem_cons, false_or]

theorem shutdown_eq (hp : p.Known) :
    p.supervisor.shutdown = (p.deed .shutdown).supervisor := by
  have hrecord : ∀ i : Nat, (p.records.map fun r => if r.isOpen then r.ask else r)[i]?
      = p.records[i]?.map fun r => if r.isOpen then r.ask else r := fun _ => List.getElem?_map
  have hsame : ∀ i : Nat,
      (p.records.map fun r => if r.isOpen then r.ask else r)[i]?.any TaskRecord.isOpen
        = p.records[i]?.any TaskRecord.isOpen := by
    intro i
    rw [hrecord, Option.any_map]
    congr 1
    funext r
    change (if r.isOpen then r.ask else r).isOpen = r.isOpen
    split <;> rfl
  have hall := foldl_cancel (openTasks p.records) { p.supervisor with
    stopped := true
    shutdowns := p.supervisor.shutdowns ++ [openTasks p.records] }
  refine eq_supervisor (fun i => ?_) ?_ (hall 0).2.1 ?_
  · refine (hall i).2.2.2.trans ?_
    change _ = ((p.records.map fun r => if r.isOpen then r.ask else r)[i]?).map _
    rw [hrecord]
    change ((p.records.map TaskRecord.task)[i]?).map _ = _
    rw [List.getElem?_map, Option.map_map, Option.map_map]
    cases hr : p.records[i]? with
    | none => rfl
    | some r =>
        have hmem : i ∈ openTasks p.records ↔ r.isOpen = true := by
          rw [mem_openTasks, hr]
          exact ⟨fun ⟨r', hr', hopen⟩ => Option.some.inj hr' ▸ hopen, fun h => ⟨r, rfl, h⟩⟩
        simp only [Option.map_some, Function.comp_apply, hmem, Option.some.injEq]
        cases hopen : r.isOpen with
        | true =>
            simp only [decide_true, Bool.or_true, if_true]
            rfl
        | false => simp only [Bool.false_eq_true, decide_false, Bool.or_false, if_false]
  · exact (hall 0).1.trans (openTasks_congr (List.length_map _) hsame).symm
  -- All that is under way is left for the new shutdown, and the others have lost nothing.
  · have hold : p.waits.map (left (p.deed .shutdown).records) = p.waits.map (left p.records) :=
      map_left_congr hp fun i _ => hsame i
    have hnew : left (p.deed .shutdown).records (openTasks p.records) = openTasks p.records :=
      List.filter_eq_self.mpr fun i hi => (hsame i).trans (List.mem_filter.mp hi).2
    refine (hall 0).2.2.1.trans ?_
    change p.waits.map (left p.records) ++ [openTasks p.records]
      = (p.waits ++ [openTasks p.records]).map (left (p.deed .shutdown).records)
    rw [List.map_append, List.map_singleton, hold, hnew]

/-- The body of an open task ends. -/
theorem finish_open (hr : p.records[n]? = some r) (hopen : r.isOpen = true) :
    p.supervisor.finish n ending
      = ((r.finish ending).due, (p.deed (.finish n ending)).supervisor) := by
  have hrecord : ∀ i : Nat, (p.deed (.finish n ending)).records[i]?
      = p.records[i]?.map fun r => if n = i then if r.isOpen then r.finish ending else r else r :=
    List.getElem?_modify _ _ _
  have htask : p.supervisor.tasks[n]? = some r.task := by
    change (p.records.map TaskRecord.task)[n]? = _
    rw [List.getElem?_map, hr]
    rfl
  have hended : r.task.ended = false := by
    rw [TaskRecord.isOpen, Option.isNone_iff_eq_none] at hopen
    simp only [TaskRecord.task, hopen, Option.isSome_none]
  have hreport : Supervisor.reportOf r.task ending = (r.finish ending).due := by
    cases ending with
    | finished => rfl
    | failed noticed message =>
        exact if_congr (by rw [Bool.and_eq_true, and_comm]; rfl) rfl rfl
  unfold Supervisor.finish
  simp only [htask, hended, Bool.false_eq_true, if_false, hreport, Prod.mk.injEq, true_and]
  have hopenness : ∀ i : Nat, (p.deed (.finish n ending)).records[i]?.any TaskRecord.isOpen
      = (i != n && p.records[i]?.any TaskRecord.isOpen) := by
    intro i
    rw [hrecord]
    by_cases hi : n = i
    · subst hi
      simp only [hr, hopen, if_true, Option.map_some, Option.any_some, bne_self_eq_false,
        Bool.false_and]
      rfl
    · simp only [hi, if_false, Option.map_id', bne_iff_ne.mpr (Ne.symm hi), Bool.true_and]
  refine eq_supervisor (fun i => ?_) ?_ rfl ?_
  · rw [hrecord]
    change ((p.records.map TaskRecord.task).modify n _)[i]? = _
    rw [List.getElem?_modify, List.getElem?_map]
    by_cases hi : n = i
    · subst hi
      simp only [hr, if_true, hopen, Option.map_eq_map, Option.map_some]
      rfl
    · simp only [hi, if_false, Option.map_eq_map, Option.map_id']
  -- Its number is taken out of those under way, where it stood once.
  · change (openTasks p.records).erase n = openTasks (p.deed (.finish n ending)).records
    have hlength : (p.deed (.finish n ending)).records.length = p.records.length :=
      List.length_modify _ _ _
    rw [nodup_openTasks.erase_eq_filter, openTasks, openTasks, List.filter_filter, hlength]
    exact List.filter_congr fun i _ => (hopenness i).symm
  · change (p.waits.map (left p.records)).map _ = p.waits.map (left _)
    rw [List.map_map]
    refine List.map_congr_left fun tasks _ => ?_
    rw [Function.comp_apply, left, left, List.filter_filter]
    refine List.filter_congr fun i _ => ?_
    rw [hopenness, bne, decide_not, beq_eq_decide]

/-- A body that is not under way does not end. -/
theorem finish_closed (h : ¬ p.IsOpen n) :
    p.supervisor.finish n ending = (none, p.supervisor) ∧ p.deed (.finish n ending) = p := by
  have hclosed : ∀ r, p.records[n]? = some r → r.isOpen = false := fun r hr =>
    Bool.eq_false_iff.mpr fun hopen => h ⟨r, hr, hopen⟩
  refine ⟨?_, ?_⟩
  · have htask : p.supervisor.tasks[n]? = p.records[n]?.map TaskRecord.task := List.getElem?_map
    unfold Supervisor.finish
    cases hr : p.records[n]? with
    | none => simp only [htask, hr, Option.map_none]
    | some r =>
        have hended : r.task.ended = true := by
          have hsome := hclosed r hr
          rw [TaskRecord.isOpen, Option.isNone_eq_false_iff] at hsome
          exact hsome
        simp only [htask, hr, Option.map_some, hended, if_true]
  · have hsame : p.records.modify n (fun r => if r.isOpen then r.finish ending else r)
        = p.records := by
      refine List.ext_getElem? fun i => ?_
      rw [List.getElem?_modify]
      by_cases hi : n = i
      · subst hi
        cases hr : p.records[n]? with
        | none => rfl
        | some r =>
            simp only [if_true, Option.map_eq_map, Option.map_some, hclosed r hr,
              Bool.false_eq_true, if_false]
      · simp only [hi, if_false, Option.map_eq_map, Option.map_id']
    rw [deed, hsame]

/-- One deed takes the supervisor of a history to that of the history with the
    deed. -/
theorem deed_eq (hp : p.Known) (d : Supervisor.Deed) :
    (p.supervisor.deed d).1 = (p.deed d).supervisor := by
  cases d with
  | spawn name =>
      change (p.supervisor.spawn name).toOption.getD p.supervisor = _
      rw [spawn_eq hp]
      cases hstopped : p.stopped with
      | true =>
          simp only [deed, hstopped, if_true]
          rfl
      | false => rfl
  | cancel n => exact cancel_eq hp
  | join n => rfl
  | shutdown => exact shutdown_eq hp
  | finish n ending =>
      change (p.supervisor.finish n ending).2 = _
      by_cases hopen : p.IsOpen n
      · rcases hopen with ⟨r, hr, hopen⟩
        rw [finish_open hr hopen]
      · rw [(finish_closed hopen).1, (finish_closed hopen).2]

theorem Known.deed (hp : p.Known) (d : Supervisor.Deed) : (p.deed d).Known := by
  cases d with
  | spawn name =>
      simp only [Past.deed]
      cases p.stopped with
      | true => exact hp
      | false =>
          intro tasks htasks n hn
          change n < (p.records ++ _).length
          rw [List.length_append]
          exact Nat.lt_add_right _ (hp tasks htasks n hn)
  | cancel n | finish n ending =>
      intro tasks htasks n hn
      change n < (p.records.modify _ _).length
      rw [List.length_modify]
      exact hp tasks htasks n hn
  | join n => exact hp
  | shutdown =>
      intro tasks htasks n hn
      change n < (p.records.map _).length
      rw [List.length_map]
      rcases List.mem_append.mp htasks with htasks | htasks
      · exact hp tasks htasks n hn
      · rw [List.mem_singleton.mp htasks] at hn
        exact List.mem_range.mp (List.mem_filter.mp hn).1

theorem callsOf_toList (m n : Nat) (reported : Option Text) :
    Supervisor.callsOf n (reported.map (m, ·)).toList = if m = n then reported.toList else [] := by
  cases reported with
  | none => exact (ite_self _).symm
  | some text =>
      simp only [Supervisor.callsOf, Option.map_some, Option.toList_some, List.filter_singleton]
      by_cases hm : m = n
      · simp only [hm, decide_true, cond_true, if_true, List.map_singleton]
      · simp only [hm, decide_false, cond_false, if_false, List.map_nil]

/-- A task is reported when its body ends, if at all. -/
theorem dueOf_finish (m n : Nat) (ending : Ending) :
    p.dueOf n ++ Supervisor.callsOf n (p.supervisor.deed (.finish m ending)).2
      = (p.deed (.finish m ending)).dueOf n := by
  change p.dueOf n ++ Supervisor.callsOf n
    ((p.supervisor.finish m ending).1.map (m, ·)).toList = _
  rw [callsOf_toList]
  by_cases hopen : p.IsOpen m
  · rcases hopen with ⟨r, hr, hopen⟩
    rw [finish_open hr hopen, dueOf, dueOf, deed, List.getElem?_modify]
    by_cases hm : m = n
    · subst hm
      have hnone : r.ending = none := Option.isNone_iff_eq_none.mp hopen
      have hnothing : r.due = none := by
        rw [TaskRecord.due, hnone]
      simp only [hr, if_true, hopen, Option.map_eq_map, Option.map_some, Option.bind_some,
        hnothing, Option.toList_none, List.nil_append]
    · simp only [hm, if_false, Option.map_eq_map, Option.map_id', List.append_nil]
  · rw [(finish_closed hopen).1, (finish_closed hopen).2, Option.toList_none, ite_self,
      List.append_nil]

/-- What one deed has reported of a task is what is to be reported of it after
    and was not before. -/
theorem dueOf_deed (d : Supervisor.Deed) :
    p.dueOf n ++ Supervisor.callsOf n (p.supervisor.deed d).2 = (p.deed d).dueOf n := by
  have hsame : ∀ f : TaskRecord → TaskRecord, (∀ r, (f r).due = r.due) →
      ((p.records[n]?.map f).bind TaskRecord.due).toList = p.dueOf n := by
    intro f hf
    rw [dueOf, Option.bind_map]
    congr 2
    exact funext hf
  cases d with
  | spawn name =>
      refine (List.append_nil _).trans ?_
      unfold deed
      cases hstopped : p.stopped with
      | true => rfl
      | false =>
          -- A new task has nothing to report, like no task.
          simp only [Bool.false_eq_true, if_false, dueOf, List.getElem?_append]
          split
          · rfl
          · next hlast =>
              rw [List.getElem?_eq_none (Nat.le_of_not_lt hlast)]
              cases hnew : [(⟨name, false, none⟩ : TaskRecord)][n - p.records.length]? with
              | none => rfl
              | some r =>
                  rw [List.mem_singleton.mp (List.mem_of_getElem? hnew)]
                  rfl
  | cancel m =>
      refine (List.append_nil _).trans ?_
      rw [dueOf, dueOf, deed, List.getElem?_modify]
      refine (hsame _ fun r => ?_).symm
      split <;> rfl
  | join m => exact List.append_nil _
  | shutdown =>
      refine (List.append_nil _).trans ?_
      rw [dueOf, dueOf, deed, List.getElem?_map]
      refine (hsame _ fun r => ?_).symm
      split <;> rfl
  | finish m ending => exact dueOf_finish m n ending

theorem stopped_deed (d : Supervisor.Deed) (hstopped : p.stopped = true) :
    (p.deed d).stopped = true := by
  cases d with
  | spawn name => simp only [deed, hstopped, if_true]
  | shutdown => rfl
  | cancel m | join m | finish m ending => exact hstopped

/-- After a shutdown, what is under way was so before. -/
theorem open_of_deed (d : Supervisor.Deed) (hstopped : p.stopped = true)
    (h : (p.deed d).IsOpen n) : p.IsOpen n := by
  have hmapped : ∀ {records : List TaskRecord} (f : TaskRecord → TaskRecord),
      records[n]? = p.records[n]?.map f → (∀ r, (f r).isOpen = true → r.isOpen = true) →
      (∃ r, records[n]? = some r ∧ r.isOpen = true) → p.IsOpen n := by
    rintro records f hrecords hf ⟨r, hr, hopen⟩
    rw [hrecords, Option.map_eq_some_iff] at hr
    rcases hr with ⟨r', hr', rfl⟩
    exact ⟨r', hr', hf r' hopen⟩
  cases d with
  | spawn name =>
      rw [deed, hstopped, if_pos rfl] at h
      exact h
  | join m => exact h
  | cancel m =>
      refine hmapped _ (List.getElem?_modify _ _ _ _) (fun r hr => ?_) h
      split at hr <;> exact hr
  | shutdown =>
      refine hmapped _ List.getElem?_map (fun r hr => ?_) h
      split at hr <;> exact hr
  | finish m ending =>
      refine hmapped _ (List.getElem?_modify _ _ _ _) (fun r hr => ?_) h
      split at hr
      · split at hr
        · exact absurd hr Bool.false_ne_true
        · exact hr
      · exact hr

end Deed

/-! ### Runs -/

section Runs

variable {p : Past} {n : Nat}

theorem Known.after (hp : p.Known) (run : List Supervisor.Deed) : (p.after run).Known := by
  induction run generalizing p with
  | nil => exact hp
  | cons d rest ih => exact ih (hp.deed d)

theorem known_initial : initial.Known := fun _ htasks => nomatch htasks

theorem after_eq (hp : p.Known) (run : List Supervisor.Deed) :
    p.supervisor.after run = (p.after run).supervisor := by
  induction run generalizing p with
  | nil => rfl
  | cons d rest ih =>
      change ((p.supervisor.deed d).1).after rest = _
      rw [deed_eq hp]
      exact ih (hp.deed d)

/-- What a run has reported of a task is what is to be reported of it after and
    was not before. -/
theorem calls_eq (hp : p.Known) (run : List Supervisor.Deed) :
    p.dueOf n ++ Supervisor.callsOf n (p.supervisor.calls run) = (p.after run).dueOf n := by
  induction run generalizing p with
  | nil => exact List.append_nil _
  | cons d rest ih =>
      rw [Supervisor.calls, Supervisor.callsOf, List.filter_append, List.map_append,
        ← List.append_assoc]
      refine (congrArg (· ++ _) (dueOf_deed d)).trans ?_
      rw [deed_eq hp]
      exact ih (hp.deed d)

/-- What a shutdown waits for is settled when it begins. -/
theorem waits_after (run : List Supervisor.Deed) : p.waits <+: (p.after run).waits := by
  induction run generalizing p with
  | nil => exact List.prefix_rfl
  | cons d rest ih =>
      refine List.IsPrefix.trans ?_ ih
      cases d with
      | spawn name =>
          simp only [deed]
          cases p.stopped <;> exact List.prefix_rfl
      | shutdown => exact List.prefix_append _ _
      | cancel n | join n | finish n ending => exact List.prefix_rfl

theorem stopped_after (run : List Supervisor.Deed) (hstopped : p.stopped = true) :
    (p.after run).stopped = true := by
  induction run generalizing p with
  | nil => exact hstopped
  | cons d rest ih => exact ih (stopped_deed d hstopped)

theorem open_of_after (run : List Supervisor.Deed) (hstopped : p.stopped = true)
    (h : (p.after run).IsOpen n) : p.IsOpen n := by
  induction run generalizing p with
  | nil => exact h
  | cons d rest ih => exact open_of_deed d hstopped (ih (stopped_deed d hstopped) h)

/-- A shutdown asks every task that is under way to stop, and ends none. -/
theorem shutdown_open : (p.deed .shutdown).IsOpen n ↔ p.IsOpen n := by
  refine ⟨fun h => ?_, fun ⟨r, hr, hopen⟩ => ⟨r.ask, ?_, hopen⟩⟩
  · rcases h with ⟨r, hr, hopen⟩
    rw [deed, List.getElem?_map, Option.map_eq_some_iff] at hr
    rcases hr with ⟨r', hr', rfl⟩
    refine ⟨r', hr', ?_⟩
    split at hopen <;> exact hopen
  · rw [deed, List.getElem?_map, hr, Option.map_some, if_pos hopen]

end Runs

end Past

namespace Supervisor

/-- Any run of a supervisor. The count of the work is that of the tasks that
    were begun and whose bodies have not ended. Of each task there is one report
    if its body failed, unless it failed with the error of a body that notices
    a cancellation and was asked to stop before, and else there is none. A
    shutdown asks every task that is under way to stop. Whatever happens after
    it, all attempts to begin a task fail, the shutdown is over exactly when
    the bodies of all those tasks have ended, and there is no work left then. -/
theorem supervised (run : List Deed) :
    let s := initial.after run
    let p := Past.initial.after run
    s.active = p.records.countP TaskRecord.isOpen ∧
      (∀ n, callsOf n (initial.calls run) = p.dueOf n) ∧
      (∀ n, p.IsOpen n → ∃ t, s.shutdown.tasks[n]? = some t ∧ t.cancelled = true) ∧
      ∀ later,
        let t := s.shutdown.after later
        let q := (p.deed .shutdown).after later
        (∀ name, t.spawn name = .error ⟨name⟩) ∧
          (t.isOver s.shutdowns.length = true ↔ ∀ n, p.IsOpen n → ¬ q.IsOpen n) ∧
          (t.isOver s.shutdowns.length = true → t.active = 0) := by
  intro s p
  have hp : p.Known := Past.known_initial.after run
  have hs : s = p.supervisor := Past.after_eq Past.known_initial run
  refine ⟨?_, fun n => Past.calls_eq Past.known_initial run, ?_, fun later => ?_⟩
  · rw [hs]
    exact Past.length_openTasks
  · rintro n ⟨r, hr, hopen⟩
    refine ⟨r.ask.task, ?_, rfl⟩
    rw [hs, Past.shutdown_eq hp]
    change ((List.map _ p.records).map TaskRecord.task)[n]? = _
    rw [List.getElem?_map, List.getElem?_map, hr, Option.map_some, if_pos hopen, Option.map_some]
  · intro t q
    have ht : t = q.supervisor := by
      change s.shutdown.after later = _
      rw [hs, Past.shutdown_eq hp, Past.after_eq (hp.deed .shutdown)]
    have hleft : t.shutdowns[s.shutdowns.length]?
        = some (Past.left q.records (Past.openTasks p.records)) := by
      rcases Past.waits_after (p := p.deed .shutdown) later with ⟨more, hmore⟩
      rw [ht, hs]
      change (q.waits.map _)[(p.waits.map _).length]? = _
      rw [List.getElem?_map, List.length_map, ← hmore]
      change (((p.waits ++ [Past.openTasks p.records]) ++ more)[p.waits.length]?).map _ = _
      rw [List.append_assoc, List.getElem?_append_right (Nat.le_refl _), Nat.sub_self]
      rfl
    have hover : t.isOver s.shutdowns.length = true ↔ ∀ n, p.IsOpen n → ¬ q.IsOpen n := by
      rw [isOver, hleft, Option.any_some, List.isEmpty_iff, Past.left, List.filter_eq_nil_iff]
      refine forall_congr' fun n => imp_congr Past.mem_openTasks (not_congr ?_)
      rw [Option.any_eq_true]
      rfl
    refine ⟨fun name => ?_, hover, fun h => ?_⟩
    · rw [ht, Past.spawn_eq ((hp.deed .shutdown).after later), Past.stopped_after later rfl]
      rfl
    -- What is under way now was so at the shutdown.
    · have hnone : Past.openTasks q.records = [] := by
        refine List.eq_nil_iff_forall_not_mem.mpr fun n hn => ?_
        have hopen := Past.mem_openTasks.mp hn
        exact hover.mp h n (Past.shutdown_open.mp (Past.open_of_after later rfl hopen)) hopen
      rw [ht]
      exact congrArg List.length hnone

/-- Two tasks of one name fail in the same way. One was asked to stop. A third
    one is under way at the shutdown, which waits for it. -/
theorem supervised_sample :
    let run : List Deed := [.spawn "a", .spawn "a", .spawn "b", .cancel 0,
      .finish 0 (.failed true "stop"), .finish 1 (.failed true "stop")]
    let s := initial.after run
    let t := s.shutdown.after [.spawn "c", .finish 2 .finished]
    s.active = 1 ∧ callsOf 0 (initial.calls run) = [] ∧
      callsOf 1 (initial.calls run) = ["a: stop"] ∧
      (∃ t, s.shutdown.tasks[2]? = some t ∧ t.cancelled = true) ∧
      s.shutdown.isOver 0 = false ∧ t.isOver 0 = true ∧ t.active = 0 := by
  intro run s t
  rcases supervised run with ⟨hactive, hcalls, hasked, hlater⟩
  rcases hlater [.spawn "c", .finish 2 .finished] with ⟨-, -, hover⟩
  exact ⟨hactive, hcalls 0, hcalls 1, hasked 2 ⟨_, rfl, rfl⟩, rfl, rfl, hover rfl⟩

end Supervisor

end Monitor

end NodeWatch
