import NodeWatch.Proofs.Monitor.Cursors

/-!
# One Lookup at a Time

A search has room for one lookup. It is under way from the moment when it is
submitted until it ends, and while it is, another one is refused. The
placeholder that stands on the screen in the meantime must not stay there, and
must not be put away among the results to go back to: nothing would ever take
it off the screen again.

That it does not is a joint matter of four things. A lookup may be submitted
only while none is under way, so what it pushes is no placeholder. One that
ends puts a result in the place of the placeholder, unless the screen was
cleared. Then the result is not seen, and there must be nothing on the screen
for it to take away, which holds because an empty screen has nothing to go back
to. `Tidy` says all of this of a search, and one move keeps it.

When a lookup is under way is read off the moves of a run and not off the
search: `UnderWay` says that one was submitted and did not end since.

## Main definitions

* `Search.moves`: What the steps of a run came to.
* `Search.UnderWay`: A lookup was submitted and has not ended.
* `Search.Tidy`: No placeholder is left behind.
* `Monitor.Deed`, `Session.deed`: What can happen to a search in a session.

## Theorems

* `tidy_of_moved`: One move leaves no placeholder behind.
* `blank_after`: An empty screen has nothing to go back to, in any session.
* `busy_iff`: A search is busy exactly while a lookup is under way.
* `count_asks`: The questions that were asked and not answered.
* `one_lookup`: A whole run, with the refusals.
-/

namespace NodeWatch

namespace Search

open Lookup (Query Result)

/-- A lookup does not end with a placeholder. -/
def Step.Finds : Step → Prop
  | .settle (.ok result) => result.outcome ≠ .searching
  | _ => True

/-- What the steps of a run came to, in their order. -/
def moves (s : Search) : List Step → List Move
  | [] => []
  | st :: rest => (s.moved? st).toList ++ (s.step st).moves rest

/-- A lookup is submitted. -/
def Move.isSubmission : Move → Bool
  | .submit _ _ => true
  | _ => false

/-- A lookup begins to ask. -/
def Move.isAsk : Move → Bool
  | .ask => true
  | _ => false

/-- A lookup ends, with a result or not. -/
def Move.isEnding : Move → Bool
  | .find _ | .breakDown _ _ => true
  | _ => false

/-- A lookup was submitted, and none has ended since. -/
def UnderWay (moves : List Move) : Prop :=
  ∃ before m later, moves = before ++ m :: later ∧ m.isSubmission = true ∧
    ∀ m' ∈ later, m'.isEnding = false

/-- No placeholder is left behind. -/
structure Tidy (s : Search) : Prop where
  /-- A placeholder is on the screen only while a lookup is under way. -/
  idle : s.busy = false → ∀ r, s.current = some r → r.outcome ≠ .searching
  history : ∀ r ∈ s.history, r.outcome ≠ .searching
  room : s.history.length ≤ maxHistory
  /-- There is nothing to go back to from an empty screen. -/
  blank : s.current = none → s.history = []
  /-- A screen that was cleared while a lookup asked stays empty until it ends. -/
  cleared : ∀ query screen, s.worker = some (.asking query screen) → screen ≠ s.screen →
    s.current = none

/-! ### One move -/

section Move

variable {s t : Search}

theorem tidy_initial : initial.Tidy where
  idle _ _ h := absurd h (by simp only [initial, reduceCtorEq, not_false_eq_true])
  history _ h := absurd h List.not_mem_nil
  room := Nat.zero_le _
  blank _ := rfl
  cleared _ _ h := absurd h (by simp only [initial, reduceCtorEq, not_false_eq_true])

/-- What the user does neither asks nor ends a lookup, and submits one only
    while none is under way. -/
theorem cases_of_act {a : Act} {m : Move} (hm : s.moved? (.act a) = some m) :
    m.isAsk = false ∧ m.isEnding = false ∧ (m.isSubmission = true → s.busy = false) := by
  have hsubmit : ∀ {running text mode tip},
      (s.submit running text mode tip).map (fun _ => Move.submit text mode) = some m →
      m.isAsk = false ∧ m.isEnding = false ∧ (m.isSubmission = true → s.busy = false) := by
    intro running text mode tip hm
    rcases Option.map_eq_some_iff.mp hm with ⟨t, ht, rfl⟩
    exact ⟨rfl, rfl, fun _ => (begun_of_submit ht).1⟩
  have hother : ∀ {m' : Move}, m = m' →
      m'.isAsk = false → m'.isEnding = false → m'.isSubmission = false →
      m.isAsk = false ∧ m.isEnding = false ∧ (m.isSubmission = true → s.busy = false) := by
    rintro m' rfl hask hending hsubmission
    exact ⟨hask, hending, fun hc => absurd (hsubmission.symm.trans hc) Bool.false_ne_true⟩
  cases a with
  | submit running text mode tip => exact hsubmit hm
  | activate running tip =>
      simp only [moved?] at hm
      split at hm
      · exact hother (Option.some.inj hm).symm rfl rfl rfl
      · exact hsubmit hm
      · exact absurd hm (by simp only [reduceCtorEq, not_false_eq_true])
  | navigate delta => exact hother (eq_of_map_eq hm) rfl rfl rfl
  | close | back | dismiss => exact hother (eq_of_map_eq hm) rfl rfl rfl
  | escape =>
      rcases eq_some_of_orElse hm with hclose | hrest
      · exact hother (eq_of_map_eq hclose) rfl rfl rfl
      · rcases eq_some_of_orElse hrest with hback | hdismiss
        · exact hother (eq_of_map_eq hback) rfl rfl rfl
        · exact hother (eq_of_map_eq hdismiss) rfl rfl rfl

/-- A lookup is submitted only while none is under way. -/
theorem idle_of_submission {st : Step} {m : Move} (hm : s.moved? st = some m)
    (hsubmission : m.isSubmission = true) : s.busy = false := by
  cases st with
  | act a => exact (cases_of_act hm).2.2 hsubmission
  | begin =>
      simp only [moved?] at hm
      split at hm
      · rw [← Option.some.inj hm] at hsubmission
        exact absurd hsubmission Bool.false_ne_true
      · exact absurd hm (by simp only [reduceCtorEq, not_false_eq_true])
  | settle ending =>
      simp only [moved?] at hm
      split at hm
      · rw [← Option.some.inj hm] at hsubmission
        exact absurd hsubmission Bool.false_ne_true
      · rw [← Option.some.inj hm] at hsubmission
        exact absurd hsubmission Bool.false_ne_true
      · exact absurd hm (by simp only [reduceCtorEq, not_false_eq_true])

/-- What is found is what the lookup ended with. -/
theorem settle_of_find {st : Step} {result : Result} (hm : s.moved? st = some (.find result)) :
    st = .settle (.ok result) := by
  cases st with
  | act a => exact absurd (cases_of_act hm).2.1.symm Bool.false_ne_true
  | begin =>
      simp only [moved?] at hm
      split at hm <;> exact absurd hm (by simp only [Option.some.injEq, reduceCtorEq,
        not_false_eq_true])
  | settle ending =>
      simp only [moved?] at hm
      split at hm
      · rw [Option.some.injEq, Move.find.injEq] at hm
        rw [hm]
      · exact absurd hm (by simp only [Option.some.injEq, reduceCtorEq, not_false_eq_true])
      · exact absurd hm (by simp only [reduceCtorEq, not_false_eq_true])

theorem worker_of_idle (h : s.busy = false) : s.worker = none :=
  Option.not_isSome_iff_eq_none.mp (Bool.eq_false_iff.mp h)

theorem outcome_move (r : Result) (delta : Double) : (r.move delta).outcome = r.outcome := by
  unfold Result.move
  split <;> rfl

theorem outcome_of_closeList {r closed : Result} (h : r.closeList = some closed) :
    closed.outcome = r.outcome := by
  rcases Option.map_eq_some_iff.mp h with ⟨cursor, -, rfl⟩
  rfl

/-- A result on the screen that turns into one with the same outcome changes
    nothing about placeholders. -/
theorem Tidy.turned (h : s.Tidy) {r r' : Result} (hr : s.current = some r)
    (houtcome : r'.outcome = r.outcome) : Tidy { s with current := some r' } where
  idle hidle r'' hr'' := by
    obtain rfl : r' = r'' := Option.some.inj hr''
    rw [houtcome]
    exact h.idle hidle r hr
  history := h.history
  room := h.room
  blank hc := absurd hc (by simp only [reduceCtorEq, not_false_eq_true])
  cleared query screen hw hne := absurd (hr.symm.trans (h.cleared query screen hw hne))
    (Option.some_ne_none r)

/-- What is pushed is no placeholder, since no lookup is under way. -/
theorem Tidy.pushed (h : s.Tidy) (hidle : s.busy = false) (mode : Mode) :
    (∀ r ∈ s.historyAfter mode, r.outcome ≠ .searching) ∧
      (s.historyAfter mode).length ≤ maxHistory := by
  cases mode with
  | topLevel => exact ⟨fun r hr => absurd hr List.not_mem_nil, Nat.zero_le _⟩
  | drillDown =>
      unfold historyAfter
      cases hcurrent : s.current with
      | none => exact ⟨h.history, h.room⟩
      | some r =>
          refine ⟨fun r' hr' => ?_, List.length_take_le _ _⟩
          rcases List.mem_cons.mp (List.mem_of_mem_take hr') with rfl | hr'
          · exact h.idle hidle r' hcurrent
          · exact h.history r' hr'

/-- An empty screen never has anything to go back to. -/
theorem blank_of_moved {m : Move} (h : s.current = none → s.history = [])
    (hmoved : Moved s m t) : t.current = none → t.history = [] := by
  cases hmoved with
  | dismiss => exact fun _ => rfl
  | ask => exact h
  | @find query screen result hw =>
      intro hc
      simp only at hc
      split at hc
      · exact absurd hc (Option.some_ne_none result)
      · exact h hc
  | _ => exact fun hc => absurd hc (Option.some_ne_none _)

/-- One move leaves no placeholder behind. -/
theorem tidy_of_moved {st : Step} {m : Move} (h : s.Tidy) (hst : st.Finds)
    (hm : s.moved? st = some m) (hmoved : Moved s m t) : t.Tidy := by
  have hblank := blank_of_moved h.blank hmoved
  have hnone : ∀ q c, (none : Option Worker) = some (.asking q c) → False := fun q c hc =>
    absurd hc (by simp only [reduceCtorEq, not_false_eq_true])
  cases hmoved with
  | @submit text mode tip =>
      have hpushed := h.pushed (idle_of_submission hm rfl) mode
      refine ⟨fun hc => absurd hc.symm Bool.false_ne_true, hpushed.1, hpushed.2, hblank,
        fun query screen hw => absurd hw (by simp only [Option.some.injEq, reduceCtorEq,
          not_false_eq_true])⟩
  | navigate hr => exact h.turned hr (outcome_move _ _)
  | openList hr => exact h.turned hr rfl
  | closeList hr hclosed => exact h.turned hr (outcome_of_closeList hclosed)
  | @back r rest hhistory =>
      have hkept := h.history
      have hroom := h.room
      rw [hhistory] at hkept
      rw [hhistory, List.length_cons] at hroom
      refine ⟨fun _ r' hr' => ?_, fun r' hr' => hkept r' (List.mem_cons_of_mem r hr'), ?_, hblank,
        fun query screen hw hne => ?_⟩
      · obtain rfl : r = r' := Option.some.inj hr'
        exact hkept r List.mem_cons_self
      · change rest.length ≤ maxHistory
        omega
      -- An empty screen has nothing to go back to.
      · have hnil := h.blank (h.cleared query screen hw hne)
        exact absurd (hhistory.symm.trans hnil) (List.cons_ne_nil r rest)
  | dismiss =>
      exact ⟨fun _ r hr => absurd hr (by simp only [reduceCtorEq, not_false_eq_true]),
        fun r hr => absurd hr List.not_mem_nil, Nat.zero_le _, hblank, fun _ _ _ _ => rfl⟩
  | ask hw =>
      refine ⟨fun hc => absurd hc.symm Bool.false_ne_true, h.history, h.room, hblank,
        fun query screen hw' hne => ?_⟩
      rw [Option.some.injEq, Worker.asking.injEq] at hw'
      exact absurd hw'.2.symm hne
  | @find query screen result hw =>
      rw [settle_of_find hm] at hst
      refine ⟨fun _ r hr => ?_, h.history, h.room, hblank, fun q c hc => (hnone q c hc).elim⟩
      by_cases hscreen : screen = s.screen
      · simp only [hscreen, if_true, Option.some.injEq] at hr
        rw [← hr]
        exact hst
      -- Nothing is on a screen that was cleared.
      · simp only [hscreen, if_false, h.cleared query screen hw hscreen, reduceCtorEq] at hr
  | breakDown hw =>
      refine ⟨fun _ r hr => ?_, h.history, h.room, hblank, fun q c hc => (hnone q c hc).elim⟩
      rw [← Option.some.inj hr]
      exact fun hc => Lookup.Outcome.noConfusion hc

/-- One move submits, asks or ends a lookup, or leaves it alone. -/
theorem counts_of_moved {st : Step} {m : Move} (hm : s.moved? st = some m) (hmoved : Moved s m t) :
    (t.busy = if m.isSubmission then true else if m.isEnding then false else s.busy) ∧
      m.isAsk.toNat + s.asking?.isSome.toNat = m.isEnding.toNat + t.asking?.isSome.toNat := by
  cases hmoved with
  | submit =>
      have hworker := worker_of_idle (idle_of_submission hm rfl)
      refine ⟨rfl, ?_⟩
      simp only [asking?, hworker]
      rfl
  | ask hw =>
      refine ⟨?_, ?_⟩
      · simp only [busy, hw]
        rfl
      · simp only [asking?, hw]
        rfl
  | find hw | breakDown hw =>
      refine ⟨rfl, ?_⟩
      simp only [asking?, hw]
      rfl
  | navigate | openList | closeList | back | dismiss => exact ⟨rfl, rfl⟩

end Move

/-! ### Runs -/

section Runs

variable {s : Search}

theorem tidy_step (h : s.Tidy) {st : Step} (hst : st.Finds) : (s.step st).Tidy := by
  rcases step_cases (s := s) st with ⟨-, hstep⟩ | ⟨m, hm, hmoved⟩
  · rw [hstep]
    exact h
  · exact tidy_of_moved h hst hm hmoved

theorem tidy_run (h : s.Tidy) {steps : List Step} (hsteps : ∀ st ∈ steps, st.Finds) :
    (s.run steps).Tidy := by
  induction steps generalizing s with
  | nil => exact h
  | cons st rest ih =>
      exact ih (tidy_step h (hsteps st List.mem_cons_self))
        fun st' hmem => hsteps st' (List.mem_cons_of_mem st hmem)

theorem blank_run (h : s.current = none → s.history = []) (steps : List Step) :
    (s.run steps).current = none → (s.run steps).history = [] := by
  induction steps generalizing s with
  | nil => exact h
  | cons st rest ih =>
      refine ih (s := s.step st) ?_
      rcases step_cases (s := s) st with ⟨-, hstep⟩ | ⟨m, -, hmoved⟩
      · rw [hstep]
        exact h
      · exact blank_of_moved h hmoved

theorem moves_append (steps : List Step) (st : Step) :
    s.moves (steps ++ [st]) = s.moves steps ++ ((s.run steps).moved? st).toList := by
  induction steps generalizing s with
  | nil => exact List.append_nil _
  | cons first rest ih =>
      change (s.moved? first).toList ++ (s.step first).moves (rest ++ [st]) = _
      rw [ih, ← List.append_assoc]
      rfl

/-- A lookup is under way after a submission, and after another move if it was
    before and did not end. -/
theorem underWay_append (moves : List Move) (m : Move) : UnderWay (moves ++ [m]) ↔
    m.isSubmission = true ∨ (m.isEnding = false ∧ UnderWay moves) := by
  constructor
  · rintro ⟨before, m', later, hmoves, hsubmission, hlater⟩
    rcases List.eq_nil_or_concat later with rfl | ⟨init, last, rfl⟩
    · have hlast := (List.append_inj' hmoves rfl).2
      rw [List.singleton_inj.mp hlast]
      exact .inl hsubmission
    · rw [List.concat_eq_append] at hmoves hlater
      have hsplit : moves ++ [m] = (before ++ m' :: init) ++ [last] := by
        rw [hmoves, List.append_assoc, List.cons_append]
      rcases List.append_inj' hsplit rfl with ⟨hinit, hlast⟩
      rw [List.singleton_inj.mp hlast]
      exact .inr ⟨hlater last (List.mem_append_right init List.mem_cons_self), before, m', init,
        hinit, hsubmission, fun m'' hmem => hlater m'' (List.mem_append_left [last] hmem)⟩
  · rintro (hsubmission | ⟨hending, before, m', later, rfl, hsubmission, hlater⟩)
    · exact ⟨moves, m, [], rfl, hsubmission, fun _ hmem => absurd hmem List.not_mem_nil⟩
    · refine ⟨before, m', later ++ [m], ?_, hsubmission, fun m'' hmem => ?_⟩
      · rw [List.append_assoc, List.cons_append]
      · rcases List.mem_append.mp hmem with hmem | hmem
        · exact hlater m'' hmem
        · rw [List.mem_singleton.mp hmem]
          exact hending

/-- A search is busy exactly while a lookup is under way. -/
theorem busy_iff (steps : List Step) :
    (initial.run steps).busy = true ↔ UnderWay (initial.moves steps) := by
  induction steps using List.reverseRecOn with
  | nil =>
      refine ⟨fun hc => absurd hc Bool.false_ne_true, ?_⟩
      rintro ⟨before, m, later, hmoves, -⟩
      have hne := List.append_ne_nil_of_right_ne_nil before (List.cons_ne_nil m later)
      exact absurd hmoves.symm hne
  | append_singleton steps st ih =>
      rw [run_append, moves_append]
      rcases step_cases (s := initial.run steps) st with ⟨hm, hstep⟩ | ⟨m, hm, hmoved⟩
      · rw [hm, hstep, Option.toList_none, List.append_nil]
        exact ih
      · rw [hm, Option.toList_some, underWay_append, ← ih, (counts_of_moved hm hmoved).1]
        cases hsubmission : m.isSubmission with
        | true => simp only [if_true, true_or]
        | false =>
            cases m.isEnding with
            | true => simp only [Bool.false_eq_true, if_false, if_true, Bool.true_eq_false,
                false_and, or_self]
            | false => simp only [Bool.false_eq_true, if_false, true_and, false_or]

/-- Every question that was asked has been answered, up to the one that the
    lookup under way is asking. -/
theorem count_asks (steps : List Step) :
    (initial.moves steps).countP Move.isAsk
      = (initial.moves steps).countP Move.isEnding + (initial.run steps).asking?.isSome.toNat := by
  induction steps using List.reverseRecOn with
  | nil => rfl
  | append_singleton steps st ih =>
      rw [run_append, moves_append]
      rcases step_cases (s := initial.run steps) st with ⟨hm, hstep⟩ | ⟨m, hm, hmoved⟩
      · rw [hm, hstep, Option.toList_none, List.append_nil]
        exact ih
      · have hcount := (counts_of_moved hm hmoved).2
        have hone : ∀ p : Move → Bool, [m].countP p = (p m).toNat := by
          intro p
          rw [List.countP_singleton]
          cases p m <;> rfl
        rw [hm, Option.toList_some, List.countP_append, List.countP_append, hone, hone, ih]
        omega

end Runs

/-- An act of the user, while lookups are begun or not. -/
def Act.under (running : Bool) : Act → Act
  | .submit _ text mode tip => .submit running text mode tip
  | .activate _ tip => .activate running tip
  | a => a

end Search

namespace Monitor

open Search (Act Mode Move Step)

/-- What can happen to a search in a session, whoever looks things up. -/
inductive Deed where
  /-- The user acts. -/
  | act (a : Act)
  /-- The lookup that waited begins to ask. -/
  | ask
  /-- The lookup ends with a result, or breaks down with a message. -/
  | settle (ending : Except Text Lookup.Result)
  /-- No task is begun any more. -/
  | stop
  /-- The scheduled redraw. -/
  | redraw

/-- A lookup does not end with a placeholder. -/
def Deed.Finds : Deed → Prop
  | .settle ending => (Step.settle ending).Finds
  | _ => True

/-- What a deed does to the search. -/
def Deed.step? (running : Bool) : Deed → Option Step
  | .act a => some (.act (a.under running))
  | .ask => some .begin
  | .settle ending => some (.settle ending)
  | .stop | .redraw => none

namespace Session

/-- A lookup is submitted; whether it was accepted comes first. -/
def submit (s : Session) (text : Text) (mode : Mode) (tip : Double) :
    Bool × Session × List Request :=
  s.withSearch (s.search.submit s.running text mode tip)

/-- The session after a deed. -/
def deed (s : Session) : Deed → Session
  | .act a => (s.withSearch (s.search.act (a.under s.running))).2.1
  | .ask => { s with search := s.search.begin }
  | .settle ending => if s.search.asking?.isSome then s.settleLookup ending else s
  | .stop => { s with running := false }
  | .redraw => s.deliver.2

/-- The session after several deeds. -/
def deeds (s : Session) (run : List Deed) : Session := run.foldl deed s

/-- What the deeds of a run did to the search. -/
def searchSteps (s : Session) : List Deed → List Step
  | [] => []
  | d :: rest => (d.step? s.running).toList ++ (s.deed d).searchSteps rest

section Deeds

variable {s : Session}

theorem settle_of_not_asking {search : Search} (h : search.asking? = none)
    (ending : Except Text Lookup.Result) : search.settle ending = search := by
  unfold Search.asking? at h
  unfold Search.settle
  cases hworker : search.worker with
  | none => rfl
  | some worker =>
      cases worker with
      | waiting query => rfl
      | asking query screen =>
          rw [hworker] at h
          exact absurd h (Option.some_ne_none query)

/-- A deed comes to a step of the search or leaves it alone. -/
theorem search_deed (d : Deed) :
    (s.deed d).search = (d.step? s.running).elim s.search s.search.step := by
  cases d with
  | act a => exact search_withSearch _
  | ask => rfl
  | settle ending =>
      unfold deed
      cases hasking : s.search.asking? with
      | none => exact (settle_of_not_asking hasking ending).symm
      | some query => rfl
  | stop | redraw => rfl

theorem search_deeds (run : List Deed) :
    (s.deeds run).search = s.search.run (s.searchSteps run) := by
  induction run generalizing s with
  | nil => rfl
  | cons d rest ih =>
      have hrest : (s.deeds (d :: rest)).search = ((s.deed d).deeds rest).search := rfl
      rw [hrest, ih, search_deed, searchSteps]
      cases d.step? s.running with
      | none => rfl
      | some st => rfl

theorem finds_searchSteps {run : List Deed} (h : ∀ d ∈ run, d.Finds) :
    ∀ st ∈ s.searchSteps run, st.Finds := by
  induction run generalizing s with
  | nil => exact fun st hst => absurd hst List.not_mem_nil
  | cons d rest ih =>
      intro st hst
      rcases List.mem_append.mp hst with hst | hst
      · have hd := h d List.mem_cons_self
        rw [Option.mem_toList] at hst
        cases d with
        | act a => cases hst; trivial
        | ask => cases hst; trivial
        | settle ending => cases hst; exact hd
        | stop | redraw => cases hst
      · exact ih (fun d' hd' => h d' (List.mem_cons_of_mem d hd')) st hst

theorem running_deeds (run : List Deed) :
    (s.deeds run).running = true ↔ s.running = true ∧ .stop ∉ run := by
  induction run generalizing s with
  | nil => exact ⟨fun h => ⟨h, List.not_mem_nil⟩, fun h => h.1⟩
  | cons d rest ih =>
      change ((s.deed d).deeds rest).running = true ↔ _
      have hother : d ≠ .stop → (s.deed d).running = s.running := by
        intro hd
        cases d with
        | act a =>
            change (s.withSearch _).2.1.running = s.running
            cases s.search.act (a.under s.running) <;> rfl
        | settle ending =>
            change (if s.search.asking?.isSome then s.settleLookup ending else s).running = _
            split <;> rfl
        | stop => exact absurd rfl hd
        | ask | redraw => rfl
      rw [ih, List.mem_cons, not_or]
      by_cases hd : d = .stop
      · subst hd
        exact ⟨fun h => absurd h.1 Bool.false_ne_true, fun h => absurd rfl h.2.1⟩
      · rw [hother hd]
        exact ⟨fun h => ⟨h.1, Ne.symm hd, h.2⟩, fun h => ⟨h.1, h.2.2⟩⟩

/-- In a session, too, an empty screen never has anything to go back to. -/
theorem blank_after (run : List Occurrence) (h : s.search.current = none → s.search.history = []) :
    (s.after run).search.current = none → (s.after run).search.history = [] := by
  induction run generalizing s with
  | nil => exact h
  | cons o rest ih =>
      refine ih (s := (s.occur o).1) ?_
      cases o with
      | event event =>
          rcases exists_steps (s := s) event with ⟨steps, hsteps, -⟩
          change (s.step event).1.search.current = none → (s.step event).1.search.history = []
          rw [hsteps]
          exact Search.blank_run h steps
      | subscribe | unsubscribe => exact h

/-- A lookup is refused while another one is under way, and after the stop. A
    refusal changes nothing. -/
theorem submit_cases (s : Session) (text : Text) (mode : Mode) (tip : Double) :
    ((s.submit text mode tip).1 = false ↔ s.search.busy = true ∨ s.running = false) ∧
      ((s.submit text mode tip).1 = false → s.submit text mode tip = (false, s, [])) := by
  unfold submit Search.submit
  cases s.search.busy with
  | true => exact ⟨⟨fun _ => .inl rfl, fun _ => rfl⟩, fun _ => rfl⟩
  | false =>
      cases s.running with
      | false => exact ⟨⟨fun _ => .inr rfl, fun _ => rfl⟩, fun _ => rfl⟩
      | true =>
          refine ⟨⟨fun hc => absurd hc.symm Bool.false_ne_true, ?_⟩,
            fun hc => absurd hc.symm Bool.false_ne_true⟩
          rintro (hc | hc)
          · exact absurd hc Bool.false_ne_true
          · exact absurd hc.symm Bool.false_ne_true

end Deeds

/-- A run of a search in a session. One question at most is asked and not
    answered. A lookup is under way exactly from its submission to its end.
    Another one is refused in the meantime, as all are after the stop, and a
    refusal leaves the whole session as it is and asks for nothing. No
    placeholder is on the screen while no lookup is under way, and none is ever
    among the results to go back to, of which there are thirty-two at most and
    none while the screen is empty. -/
theorem one_lookup (run : List Deed) (hrun : ∀ d ∈ run, d.Finds) :
    let s := initial.deeds run
    let moves := Search.initial.moves (initial.searchSteps run)
    moves.countP Move.isAsk = moves.countP Move.isEnding + s.search.asking?.isSome.toNat ∧
      (s.searching = true ↔ Search.UnderWay moves) ∧
      (∀ text mode tip,
        ((s.submit text mode tip).1 = false ↔ s.searching = true ∨ .stop ∈ run) ∧
        ((s.submit text mode tip).1 = false → s.submit text mode tip = (false, s, []))) ∧
      (s.searching = false → ∀ r, s.search.current = some r → r.outcome ≠ .searching) ∧
      (∀ r ∈ s.search.history, r.outcome ≠ .searching) ∧
      s.search.history.length ≤ 32 ∧
      (s.search.current = none → s.search.history = []) := by
  intro s moves
  have hsearch : s.search = Search.initial.run (initial.searchSteps run) := search_deeds run
  have htidy : s.search.Tidy := by
    rw [hsearch]
    exact Search.tidy_run Search.tidy_initial (finds_searchSteps hrun)
  have hstopped : s.running = false ↔ .stop ∈ run := by
    rw [← Bool.not_eq_true, running_deeds, not_and_not_right]
    exact ⟨fun h => h rfl, fun h _ => h⟩
  refine ⟨?_, ?_, fun text mode tip => ?_, htidy.idle, htidy.history, htidy.room, htidy.blank⟩
  · rw [hsearch]
    exact Search.count_asks _
  · change s.search.busy = true ↔ _
    rw [hsearch]
    exact Search.busy_iff _
  · rw [← hstopped]
    exact submit_cases s text mode tip

/-- A lookup is dismissed while it asks. It is under way until it ends, another
    one is refused until then, and nothing is left of it. -/
theorem one_lookup_dismissed :
    let found : Lookup.Result := .failed "7" "late"
    let asking : List Deed := [.act (.submit true "7" .topLevel 0), .ask, .act .dismiss]
    let s := initial.deeds asking
    let t := initial.deeds (asking ++ [.settle (.ok found)])
    s.submit "8" .topLevel 0 = (false, s, []) ∧ s.search.current = none ∧
      t.searching = false ∧ t.search.current = none ∧ t.search.history = [] ∧
      (t.submit "8" .topLevel 0).1 = true := by
  intro found asking s t
  have hasking : ∀ d ∈ asking, d.Finds := by
    intro d hd
    simp only [asking, List.mem_cons, List.not_mem_nil, or_false] at hd
    rcases hd with rfl | rfl | rfl <;> trivial
  have hall : ∀ d ∈ asking ++ [.settle (.ok found)], d.Finds := by
    intro d hd
    rcases List.mem_append.mp hd with hd | hd
    · exact hasking d hd
    · rw [List.mem_singleton.mp hd]
      exact Lookup.Outcome.noConfusion
  have hrefused := (one_lookup asking hasking).2.2.1 "8" .topLevel 0
  have hcurrent : t.search.current = none := by rfl
  exact ⟨hrefused.2 (hrefused.1.mpr (.inl rfl)), rfl, rfl, hcurrent,
    (one_lookup _ hall).2.2.2.2.2.2 hcurrent, rfl⟩

end Session

end Monitor

end NodeWatch
