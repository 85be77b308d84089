import NodeWatch.Proofs.Monitor.Events
import NodeWatch.Proofs.Monitor.LateResult

/-!
# Shutting Down

A session is shut down at some moment, whatever it is doing: a poll or a lookup
may wait for the node, a lookup may not have asked for anything yet, a redraw
may have been scheduled. The sleeps are ended at once. The questions cannot be
taken back, so a poll and a lookup go on to their ends, and the one who asked
for the shutdown waits for them.

Nothing more is begun. An event ends one activity at most, and what ends is
struck off what the shutdown waits for, `ended_of_stepped`. So the list of a
shutdown holds what was under way when it began and still is, and waiting for
all of that is the same as waiting until nothing is under way. From then on the
session is at rest, and the list of what can come of an event has little left
in it: the user can move about in the results that there are, and that is all.

## Main definitions

* `Session.Awaited`: All that a shutdown found under way is over.
* `Session.Ended`: What an event leaves of what is under way.
* `Session.Waits`: What the list of a shutdown holds.
* `Session.AtRest`: Nothing is under way, and nothing will be.

## Theorems

* `active_eq_zero_iff`: The count of the work is that of the activities.
* `ended_of_stepped`: After a shutdown nothing is begun.
* `waits_after`: What a shutdown waits for is all that it found and that still goes on.
* `atRest_of_stepped`: What an event can do to a session at rest.
* `shutdown_stops`: A whole run, before and after the shutdown.
-/

namespace NodeWatch

namespace Monitor

namespace Session

/-- Everything that was under way when a session was shut down is over, which
    is what the one who asked for the shutdown waits for. -/
def Awaited (s t : Session) : Prop := ∀ a, s.isUnderWay a = true → t.isUnderWay a = false

/-- What an event leaves of what is under way when nothing is begun any more.
    Either all of it, also if it was another shutdown, or all but one activity,
    which is struck off what the shutdowns wait for. -/
inductive Ended (s t : Session) : Prop where
  | none (hunderWay : ∀ a, t.isUnderWay a = s.isUnderWay a)
      (hshutdowns : s.shutdowns <+: t.shutdowns)
  | one (a : Activity) (hunderWay : ∀ b, t.isUnderWay b = (s.isUnderWay b && decide (b ≠ a)))
      (hshutdowns : t.shutdowns = (s.leave a).shutdowns)

/-- What a session has come to that was `s` at a shutdown: nothing runs that did
    not run then, and the shutdown waits for all that still does. -/
structure Waits (s t : Session) : Prop where
  stopped : t.running = false
  underWay : ∀ a, t.isUnderWay a = true → s.isUnderWay a = true
  list : t.shutdowns[s.shutdowns.length]? = some (s.underWay.filter fun a => t.isUnderWay a)

/-- Nothing is under way, and nothing is begun any more. -/
structure AtRest (s : Session) : Prop where
  stopped : s.running = false
  ended : ∀ a, s.isUnderWay a = false

/-- What is known of a session that nobody meddles with: the note that a poll
    is under way is only there while one is, and so is what a lookup knows. -/
structure Orderly (s : Session) : Prop where
  refreshing : s.snapshot.status.refreshing = true → ∃ poll, s.poller = .polling poll
  lookup : s.lookup.isSome = true → s.search.busy = true

section Step

variable {s t : Session} {event : Event} {requests : List Request}

theorem mem_underWay {a : Activity} : a ∈ s.underWay ↔ s.isUnderWay a = true := by
  rw [underWay, List.mem_filter, and_iff_right_iff_imp]
  intro _
  cases a <;> decide

/-- The count of the work is that of the activities. -/
theorem active_eq_zero_iff : s.active = 0 ↔ ∀ a, s.isUnderWay a = false := by
  rw [active, List.length_eq_zero_iff, List.eq_nil_iff_forall_not_mem]
  exact forall_congr' fun a => (not_congr mem_underWay).trans Bool.eq_false_iff.symm

theorem busy_of_asking {search : Search} {query : Lookup.Query} (h : search.asking? = some query) :
    search.busy = true := by
  unfold Search.asking? at h
  unfold Search.busy
  cases hworker : search.worker with
  | none =>
      rw [hworker] at h
      exact absurd h (by simp only [reduceCtorEq, not_false_eq_true])
  | some worker => rfl

theorem busy_of_worker {search : Search} {worker : Search.Worker}
    (h : search.worker = some worker) : search.busy = true := by
  unfold Search.busy
  rw [h]
  rfl

/-- A lookup that is settled is over, also if it had not begun to ask. -/
theorem busy_settle_begin (search : Search) (ending : Except Text Lookup.Result) :
    (search.begin.settle ending).busy = false := by
  unfold Search.begin Search.settle
  cases hworker : search.worker with
  | none => simp only [hworker, Search.busy, Option.isSome_none]
  | some worker => cases worker <;> cases ending <;> simp only [hworker] <;> rfl

theorem begin_of_asking {search : Search} {query : Lookup.Query}
    (h : search.asking? = some query) : search.begin = search := by
  unfold Search.begin
  split
  · next query' hworker =>
      rw [Search.asking?, hworker] at h
      exact absurd h (by simp only [reduceCtorEq, not_false_eq_true])
  · rfl

theorem underWay_of_polling {poll : Poll} (h : s.poller = .polling poll) :
    s.isUnderWay .poller = true := by
  unfold isUnderWay
  rw [h]

theorem underWay_of_pollerSleeping (h : s.poller = .sleeping) : s.isUnderWay .poller = true := by
  unfold isUnderWay
  rw [h]

theorem underWay_of_animatorSleeping (h : s.animator = .sleeping) :
    s.isUnderWay .animator = true := by
  unfold isUnderWay
  rw [h]

/-- An activity that is over was the only one that an event had to do with. -/
theorem ended_one (a : Activity) (hover : t.isUnderWay a = false)
    (hothers : ∀ b, b ≠ a → t.isUnderWay b = s.isUnderWay b)
    (hshutdowns : t.shutdowns = (s.leave a).shutdowns) : Ended s t := by
  refine Ended.one a (fun b => ?_) hshutdowns
  by_cases hb : b = a
  · rw [hb, hover, decide_eq_false (not_not_intro rfl), Bool.and_false]
  · rw [hothers b hb, decide_eq_true hb, Bool.and_true]

/-- After a shutdown nothing is begun. -/
theorem ended_of_stepped (h : Stepped s event t requests) (hs : s.running = false) :
    Ended s t := by
  cases h with
  | started hrunning | pollBegun _ hrunning | slid _ hrunning | dozed _ hrunning
  | lookupSubmitted _ _ hrunning => exact absurd (hs.symm.trans hrunning) Bool.false_ne_true
  -- A question that is followed by another one ends nothing.
  | pollAsked hpoller =>
      refine Ended.none (fun a => ?_) List.prefix_rfl
      cases a with
      | poller => exact (underWay_of_polling rfl).trans (underWay_of_polling hpoller).symm
      | _ => rfl
  | lookupBegun hworker =>
      refine Ended.none (fun a => ?_) List.prefix_rfl
      cases a with
      | lookup =>
          change s.search.begin.busy = s.search.busy
          rw [Search.begin_waiting hworker, busy_of_worker hworker]
          rfl
      | _ => rfl
  | operated _ _ hworker =>
      refine Ended.none (fun a => ?_) List.prefix_rfl
      cases a with
      | lookup => exact congrArg Option.isSome hworker
      | _ => rfl
  | pollOver =>
      refine ended_one .poller ?_ (fun b hb => ?_) ?_
      · simp only [isUnderWay, hs, Bool.false_eq_true, if_false]
      · cases b with
        | poller => exact absurd rfl hb
        | _ => rfl
      · simp only [hs, Bool.false_eq_true, if_false]
  | pollerEnded =>
      refine ended_one .poller rfl (fun b hb => ?_) rfl
      cases b with
      | poller => exact absurd rfl hb
      | _ => rfl
  | animatorEnded =>
      refine ended_one .animator rfl (fun b hb => ?_) rfl
      cases b with
      | animator => exact absurd rfl hb
      | _ => rfl
  | lookupFound hquery =>
      have hover := busy_settle_begin s.search
      rw [begin_of_asking hquery] at hover
      refine ended_one .lookup (hover _) (fun b hb => ?_) rfl
      cases b with
      | lookup => exact absurd rfl hb
      | _ => rfl
  | lookupBroken =>
      refine ended_one .lookup (busy_settle_begin s.search _) (fun b hb => ?_) rfl
      cases b with
      | lookup => exact absurd rfl hb
      | _ => rfl
  | stopped => exact Ended.none (fun a => by cases a <;> rfl) (List.prefix_append _ _)
  | idle | startRefused | lookupAsked | delivered =>
      exact Ended.none (fun a => by cases a <;> rfl) List.prefix_rfl

theorem underWay_of_ended (h : Ended s t) {a : Activity} (ht : t.isUnderWay a = true) :
    s.isUnderWay a = true := by
  cases h with
  | none hunderWay => exact (hunderWay a).symm.trans ht
  | one b hunderWay =>
      rw [hunderWay, Bool.and_eq_true] at ht
      exact ht.1

/-- What a shutdown waits for is struck off when it is over. -/
theorem waits_of_ended {u : Session} (hs : Waits s t) (h : Ended t u) (hu : u.running = false) :
    Waits s u := by
  refine ⟨hu, fun a ha => hs.underWay a (underWay_of_ended h ha), ?_⟩
  cases h with
  | none hunderWay hshutdowns =>
      rcases hshutdowns with ⟨more, hmore⟩
      have hplace := (List.getElem?_eq_some_iff.mp hs.list).1
      rw [← hmore, List.getElem?_append_left hplace, hs.list]
      exact congrArg some (List.filter_congr fun a _ => (hunderWay a).symm)
  | one a hunderWay hshutdowns =>
      rw [hshutdowns]
      change (t.shutdowns.map _)[s.shutdowns.length]? = _
      rw [List.getElem?_map, hs.list, Option.map_some, List.filter_filter]
      refine congrArg some (List.filter_congr fun b _ => ?_)
      rw [hunderWay, Bool.and_comm]

/-- A shutdown is over when everything is that it found under way. -/
theorem isOver_iff (h : Waits s t) : t.isOver s.shutdowns.length = true ↔ Awaited s t := by
  rw [isOver, h.list, Option.any_some, List.isEmpty_iff, List.filter_eq_nil_iff]
  exact forall_congr' fun a => imp_congr mem_underWay Bool.eq_false_iff.symm

/-- What an event can do to a session at rest: nothing is asked for, the
    snapshot stays, and the search only changes for the user. -/
theorem atRest_of_stepped (h : Stepped s event t requests) (hs : s.AtRest) :
    t.AtRest ∧ t.snapshot = s.snapshot ∧ (∀ r ∈ requests, ¬ r.IsCall) ∧
      (¬ event.IsUser → t.search = s.search) := by
  have hrunning : t.running = false :=
    Bool.eq_false_iff.mpr fun ht =>
      absurd (hs.stopped.symm.trans (running_of_stepped h ht)) Bool.false_ne_true
  have hover : ∀ a, t.isUnderWay a = false := fun a =>
    Bool.eq_false_iff.mpr fun ht =>
      absurd ((hs.ended a).symm.trans (underWay_of_ended (ended_of_stepped h hs.stopped) ht)) Bool.false_ne_true
  refine ⟨⟨hrunning, hover⟩, ?_⟩
  -- Most events need a session that runs, or something that is under way.
  have running {P : Prop} (hc : s.running = true) : P :=
    absurd (hs.stopped.symm.trans hc) Bool.false_ne_true
  have underWay {P : Prop} {a : Activity} (hc : s.isUnderWay a = true) : P :=
    absurd ((hs.ended a).symm.trans hc) Bool.false_ne_true
  cases h with
  | started hc | pollBegun _ hc | slid _ hc | dozed _ hc | lookupSubmitted _ _ hc =>
      exact running hc
  | pollAsked hc | pollOver hc => exact underWay (underWay_of_polling hc)
  | pollerEnded hc => exact underWay (underWay_of_pollerSleeping hc)
  | animatorEnded hc => exact underWay (underWay_of_animatorSleeping hc)
  | lookupBegun hc => exact underWay (a := .lookup) (busy_of_worker hc)
  | lookupAsked hc | lookupFound hc => exact underWay (a := .lookup) (busy_of_asking hc)
  | lookupBroken hc => exact underWay (a := .lookup) hc
  | operated huser =>
      exact ⟨rfl, fun r hr => absurd hr List.not_mem_nil, fun hc => absurd huser hc⟩
  | stopped =>
      refine ⟨rfl, fun r hr => ?_, fun _ => rfl⟩
      rw [List.mem_singleton.mp hr]
      exact not_false
  | idle | startRefused | delivered =>
      exact ⟨rfl, fun r hr => absurd hr List.not_mem_nil, fun _ => rfl⟩

theorem status_of_advanceSlide {before after : Snapshot}
    (h : before.advanceSlide = some after) : after.status = before.status := by
  unfold Snapshot.advanceSlide at h
  by_cases hactive : before.slide.active = true
  · rw [if_pos hactive] at h
    rw [← Option.some.inj h]
  · rw [if_neg hactive] at h
    exact absurd h (by simp only [reduceCtorEq, not_false_eq_true])

/-- Every event leaves a session orderly. -/
theorem orderly_of_stepped (h : Stepped s event t requests) (hs : s.Orderly) : t.Orderly := by
  cases h with
  | started | pollBegun => exact ⟨fun _ => ⟨_, rfl⟩, hs.lookup⟩
  -- A poller that sleeps is not polling, so the note is gone already.
  | pollerEnded hpoller =>
      refine ⟨fun hc => ?_, hs.lookup⟩
      rcases hs.refreshing hc with ⟨poll, hpolling⟩
      rw [hpoller] at hpolling
      exact absurd hpolling (by simp only [reduceCtorEq, not_false_eq_true])
  | pollAsked hpoller hnext => exact ⟨fun _ => ⟨_, rfl⟩, hs.lookup⟩
  | pollOver hpoller hnext => exact ⟨fun hc => absurd hc Bool.false_ne_true, hs.lookup⟩
  | slid hanimator hrunning hslide =>
      refine ⟨fun hc => hs.refreshing ?_, hs.lookup⟩
      rw [← status_of_advanceSlide hslide]
      exact hc
  | lookupSubmitted _ _ _ _ hworker => exact ⟨hs.refreshing, fun _ => busy_of_worker hworker⟩
  | operated _ _ hworker =>
      refine ⟨hs.refreshing, fun hc => ?_⟩
      exact (congrArg Option.isSome hworker).trans (hs.lookup hc)
  | lookupBegun hworker =>
      refine ⟨hs.refreshing, fun _ => ?_⟩
      change s.search.begin.busy = true
      rw [Search.begin_waiting hworker]
      rfl
  | lookupAsked hquery => exact ⟨hs.refreshing, fun _ => busy_of_asking hquery⟩
  | lookupFound | lookupBroken => exact ⟨hs.refreshing, fun hc => absurd hc Bool.false_ne_true⟩
  | _ => exact ⟨hs.refreshing, hs.lookup⟩

end Step

section Runs

variable {s : Session}

theorem orderly_after (run : List Occurrence) : (initial.after run).Orderly :=
  occurrence_invariant
    ⟨fun hc => absurd hc Bool.false_ne_true, fun hc => absurd hc Bool.false_ne_true⟩
    (fun _ _ _ _ hu h => orderly_of_stepped h hu)
    (fun _ _ _ hu => ⟨hu.refreshing, hu.lookup⟩) run

theorem stopped_of_stepped {t : Session} {event : Event} {requests : List Request}
    (h : Stepped s event t requests) (hs : s.running = false) : t.running = false :=
  Bool.eq_false_iff.mpr fun ht =>
    absurd (hs.symm.trans (running_of_stepped h ht)) Bool.false_ne_true

theorem stopped_after (hs : s.running = false) (later : List Occurrence) :
    (s.after later).running = false :=
  occurrence_invariant (P := fun u => u.running = false) hs
    (fun _ _ _ _ hu h => stopped_of_stepped h hu) (fun _ _ _ hu => hu) later

/-- What a shutdown waits for is all that it found under way and that still goes
    on, whatever happens after it. -/
theorem waits_after (s : Session) (later : List Occurrence) :
    Waits s (s.shutdown.1.after later) := by
  have hbegin : Waits s s.shutdown.1 := by
    refine ⟨rfl, fun _ ha => ha, ?_⟩
    have hall : s.underWay.filter (fun a => s.isUnderWay a) = s.underWay :=
      List.filter_eq_self.mpr fun a ha => mem_underWay.mp ha
    change (s.shutdowns ++ [s.underWay])[s.shutdowns.length]?
      = some (s.underWay.filter fun a => s.isUnderWay a)
    rw [hall, List.getElem?_concat_length]
  refine occurrence_invariant (P := Waits s) hbegin ?_
    (fun _ _ _ hu => ⟨hu.stopped, hu.underWay, hu.list⟩) later
  intro u event t requests hu h
  exact waits_of_ended hu (ended_of_stepped h hu.stopped) (stopped_of_stepped h hu.stopped)

theorem atRest_after (hs : s.AtRest) (rest : List Occurrence) :
    (s.after rest).AtRest ∧ (s.after rest).snapshot = s.snapshot := by
  refine occurrence_invariant (P := fun u => u.AtRest ∧ u.snapshot = s.snapshot) ⟨hs, rfl⟩ ?_
    (fun _ _ _ hu => ⟨⟨hu.1.stopped, hu.1.ended⟩, hu.2⟩) rest
  rintro u event t requests ⟨hrest, hsnapshot⟩ h
  have hstep := atRest_of_stepped h hrest
  exact ⟨hstep.1, hstep.2.1.trans hsnapshot⟩

/-- A session at rest asks the node for nothing. -/
theorem requests_of_atRest (hs : s.AtRest) (rest : List Occurrence) :
    ∀ r ∈ s.requests rest, ¬ r.IsCall := by
  induction rest generalizing s with
  | nil => exact fun r hr => absurd hr List.not_mem_nil
  | cons o rest ih =>
      intro r hr
      rcases List.mem_append.mp hr with hr | hr
      · cases o with
        | event event => exact (atRest_of_stepped (stepped event) hs).2.2.1 r hr
        | subscribe => exact absurd hr List.not_mem_nil
        | unsubscribe number => exact absurd hr List.not_mem_nil
      · exact ih (atRest_after hs [o]).1 r hr

/-- Once redraws are closed no listener is called, not even by the delivery
    that was scheduled before, and not one that subscribes later. -/
theorem called_of_closed (hs : s.running = false) (hclosed : s.redraw.closed = true)
    (later : List Occurrence) : s.called later = [] := by
  induction later generalizing s with
  | nil => rfl
  | cons o rest ih =>
      have hnobody : s.calledBy o = [] := by
        unfold calledBy
        split
        · exact congrArg (List.map (·.1)) (Redraw.deliver_of_closed hclosed)
        · rfl
      have hrunning := stopped_after hs [o]
      have hstays : (s.occur o).1.redraw.closed = true := by
        cases o with
        | event event =>
            have hnext := closed_of_stepped (stepped event) (s := s) (by rw [hclosed, hs]; rfl)
            exact hnext.trans (congrArg (!·) hrunning)
        | subscribe => exact hclosed
        | unsubscribe number => exact hclosed
      change s.calledBy o ++ (s.occur o).1.called rest = []
      rw [hnobody]
      exact ih hrunning hstays

/-- A session that is shut down after any run. No listener is called any more,
    and nothing is begun. The shutdown is over exactly when all that it found
    under way is, and so exactly when nothing is under way; then no poll and no
    lookup goes on, the snapshot stays as it is, and so does the search unless
    the user does something, whatever comes later. -/
theorem shutdown_stops (before later : List Occurrence) :
    let s := initial.after before
    let t := s.shutdown.1.after later
    s.shutdown.1.called later = [] ∧
      (∀ a, t.isUnderWay a = true → s.isUnderWay a = true) ∧
      (t.isOver s.shutdowns.length = true ↔ Awaited s t) ∧
      (Awaited s t ↔ t.active = 0) ∧
      (Awaited s t →
        (∀ poll, t.poller ≠ .polling poll) ∧ t.lookup = none ∧ t.searching = false ∧
        t.snapshot.status.refreshing = false ∧
        ∀ rest : List Occurrence,
          (∀ r ∈ t.requests rest, ¬ r.IsCall) ∧ (t.after rest).snapshot = t.snapshot ∧
          ∀ event : Event, ¬ event.IsUser →
            ((t.after rest).step event).1.search = (t.after rest).search) := by
  intro s t
  -- What is under way later was under way at the shutdown, so once all of that
  -- is over nothing is left.
  have hwaits : Waits s t := waits_after s later
  have hover : Awaited s t → ∀ a, t.isUnderWay a = false := fun h a =>
    Bool.eq_false_iff.mpr fun ht =>
      absurd ((h a (hwaits.underWay a ht)).symm.trans ht) Bool.false_ne_true
  have horderly : t.Orderly := by
    have ht : t = initial.after (before ++ .event .shutdown :: later) := by
      rw [after_append]
      rfl
    rw [ht]
    exact orderly_after _
  refine ⟨called_of_closed rfl rfl later, hwaits.underWay, isOver_iff hwaits, ?_, ?_⟩
  · rw [active_eq_zero_iff]
    exact ⟨hover, fun h a _ => h a⟩
  · intro hawaited
    have hrest : t.AtRest := ⟨hwaits.stopped, hover hawaited⟩
    have hpoller : ∀ poll, t.poller ≠ .polling poll := fun poll hc =>
      absurd ((hrest.ended .poller).symm.trans (underWay_of_polling hc)) Bool.false_ne_true
    have hidle : t.search.busy = false := hrest.ended .lookup
    refine ⟨hpoller, ?_, hidle, ?_, fun rest => ?_⟩
    · refine Option.not_isSome_iff_eq_none.mp fun hc => ?_
      exact absurd (hidle.symm.trans (horderly.lookup hc)) Bool.false_ne_true
    · refine Bool.eq_false_iff.mpr fun hc => ?_
      rcases horderly.refreshing hc with ⟨poll, hpolling⟩
      exact hpoller poll hpolling
    · have hafter := atRest_after hrest rest
      refine ⟨requests_of_atRest hrest rest, hafter.2, fun event => ?_⟩
      exact (atRest_of_stepped (stepped event) hafter.1).2.2.2

/-- A session that is shut down during its first poll. The end of the animator
    does not end the shutdown, that of the poll does. -/
theorem shutdown_stops_polling :
    let s := initial.after [.subscribe, .event .start]
    let dozing := s.shutdown.1.after [.event .animatorWake]
    let t := dozing.after [.event (.pollAnswer (.error (.other "gone")) 1)]
    dozing.isOver 0 = false ∧ t.isOver 0 = true ∧ ¬ Awaited s dozing ∧ Awaited s t ∧
      t.active = 0 ∧ s.snapshot.status.refreshing = true ∧
      t.snapshot.status.refreshing = false := by
  intro s dozing t
  have hstops := shutdown_stops [.subscribe, .event .start]
    [.event .animatorWake, .event (.pollAnswer (.error (.other "gone")) 1)]
  have hawaited : Awaited s t := hstops.2.2.1.mp rfl
  refine ⟨rfl, rfl, fun hc => ?_, hawaited, hstops.2.2.2.1.mp hawaited, rfl, ?_⟩
  · exact absurd (hc .poller rfl) (by decide)
  · exact (hstops.2.2.2.2 hawaited).2.2.2.1

end Runs

end Session

end Monitor

end NodeWatch
