import NodeWatch.Proofs.Lookup.Navigation
import NodeWatch.Proofs.Monitor.Browsing
import NodeWatch.Proofs.Monitor.Events

/-!
# The Cursors of a Session

Whatever happens to a session, every result that it holds keeps the invariant
of the cursors, the one on the screen as well as those to go back to. A lookup
ends with a result whose cursor was never moved; the user moves the cursor of
the result on the screen only, opens and closes its lists, and puts it away and
takes it up again as it is.

An event comes to a few steps of the search and often to none, so the argument
is made for steps. The one thing that is asked of a run is that the cursor is
moved by integers.

## Main definitions

* `Search.Kept`: All results that a search holds keep the invariant.
* `Search.Step.Whole`, `Monitor.Event.Whole`: The cursor is moved by integers.

## Theorems

* `kept_of_moved`: One move of a search.
* `exists_steps`: The steps of the search that an event comes to.
* `kept_after`: A whole run of a session.
-/

namespace NodeWatch

namespace Search

open Lookup (Result)

/-- All results that a search holds keep the invariant. -/
def Kept (s : Search) : Prop := ∀ r, s.current = some r ∨ r ∈ s.history → r.Kept

/-- A step moves the cursor by an integer, if it moves it, and a result that a
    lookup ends with keeps the invariant. -/
def Step.Whole : Step → Prop
  | .act (.navigate delta) => delta.isInteger = true
  | .settle (.ok result) => result.Kept
  | _ => True

/-- The same for what a step comes to. -/
def Move.Whole : Move → Prop
  | .navigate delta => delta.isInteger = true
  | .find result => result.Kept
  | _ => True

section Steps

variable {s t : Search}

theorem kept_initial : initial.Kept := by
  rintro r (hr | hr)
  · exact absurd hr (by simp only [initial, reduceCtorEq, not_false_eq_true])
  · exact absurd hr List.not_mem_nil

/-- A move that is the same whatever the search was left with. -/
theorem eq_of_map_eq {u : Option Search} {m m' : Move} (h : u.map (fun _ => m) = some m') :
    m' = m := by
  rw [Option.map_eq_some_iff] at h
  rcases h with ⟨-, -, h⟩
  exact h.symm

theorem eq_some_of_orElse {u u' : Option Move} {m : Move} (h : (u <|> u') = some m) :
    u = some m ∨ u' = some m := by
  cases u with
  | none => exact .inr h
  | some m' => exact .inl h

/-- What a step comes to moves the cursor as the step does. -/
theorem whole_of_moved? {st : Step} {m : Move} (hm : s.moved? st = some m) (hst : st.Whole) :
    m.Whole := by
  cases st with
  | act a =>
      cases a with
      | navigate delta =>
          rw [eq_of_map_eq hm]
          exact hst
      | submit running text mode tip =>
          rw [eq_of_map_eq hm]
          trivial
      | close | back | dismiss =>
          rw [eq_of_map_eq hm]
          trivial
      | activate running tip =>
          simp only [moved?] at hm
          split at hm
          · rw [← Option.some.inj hm]
            trivial
          · rw [eq_of_map_eq hm]
            trivial
          · exact absurd hm (by simp only [reduceCtorEq, not_false_eq_true])
      | escape =>
          -- It closes, goes back or dismisses, and none of these moves a cursor.
          rcases eq_some_of_orElse hm with hclose | hrest
          · rw [eq_of_map_eq hclose]
            trivial
          · rcases eq_some_of_orElse hrest with hback | hdismiss
            · rw [eq_of_map_eq hback]
              trivial
            · rw [eq_of_map_eq hdismiss]
              trivial
  | begin =>
      simp only [moved?] at hm
      split at hm
      · rw [← Option.some.inj hm]
        trivial
      · exact absurd hm (by simp only [reduceCtorEq, not_false_eq_true])
  | settle ending =>
      simp only [moved?] at hm
      split at hm
      · rw [← Option.some.inj hm]
        exact hst
      · rw [← Option.some.inj hm]
        trivial
      · exact absurd hm (by simp only [reduceCtorEq, not_false_eq_true])

theorem kept_searching (text : Text) : (Result.searching text).Kept :=
  Lookup.kept_result_unset text .searching

/-- One move keeps the invariant of every result that is held after it. -/
theorem kept_of_moved {m : Move} (h : s.Kept) (hm : Moved s m t) (hwhole : m.Whole) : t.Kept := by
  have hhistory : ∀ r ∈ s.history, r.Kept := fun r hr => h r (.inr hr)
  cases hm with
  | @submit text mode tip =>
      rintro r (hr | hr)
      · rw [← Option.some.inj hr]
        exact kept_searching text
      -- The history was there before, or is the result that was on the screen.
      · cases mode with
        | topLevel => exact absurd hr List.not_mem_nil
        | drillDown =>
            simp only [historyAfter] at hr
            cases hcurrent : s.current with
            | none =>
                rw [hcurrent] at hr
                exact hhistory r hr
            | some r' =>
                rw [hcurrent] at hr
                rcases List.mem_cons.mp (List.mem_of_mem_take hr) with rfl | hr
                · exact h r (.inl hcurrent)
                · exact hhistory r hr
  | navigate hr =>
      rintro r' (hr' | hr')
      · rw [← Option.some.inj hr']
        exact Lookup.kept_result_move (h _ (.inl hr)) hwhole
      · exact hhistory r' hr'
  | openList hr hopened =>
      rintro r' (hr' | hr')
      · rw [← Option.some.inj hr']
        exact Lookup.kept_result_opened (h _ (.inl hr)) hopened
      · exact hhistory r' hr'
  | closeList hr hclosed =>
      rintro r' (hr' | hr')
      · rw [← Option.some.inj hr']
        exact Lookup.kept_result_closed (h _ (.inl hr)) hclosed
      · exact hhistory r' hr'
  | back hstack =>
      rintro r' (hr' | hr')
      · rw [← Option.some.inj hr']
        exact hhistory _ (by rw [hstack]; exact List.mem_cons_self)
      · exact hhistory r' (by rw [hstack]; exact List.mem_cons_of_mem _ hr')
  | dismiss =>
      rintro r' (hr' | hr')
      · exact absurd hr' (by simp only [reduceCtorEq, not_false_eq_true])
      · exact absurd hr' List.not_mem_nil
  | ask => exact h
  | @find query screen result hw =>
      rintro r' (hr' | hr')
      · simp only at hr'
        split at hr'
        · rw [← Option.some.inj hr']
          exact hwhole
        · exact h r' (.inl hr')
      · exact hhistory r' hr'
  | breakDown hw =>
      rintro r' (hr' | hr')
      · rw [← Option.some.inj hr']
        exact Lookup.kept_result_unset _ _
      · exact hhistory r' hr'

theorem kept_step (h : s.Kept) {st : Step} (hst : st.Whole) : (s.step st).Kept := by
  rcases step_cases (s := s) st with ⟨-, hstep⟩ | ⟨m, hm, hmoved⟩
  · rw [hstep]
    exact h
  · exact kept_of_moved h hmoved (whole_of_moved? hm hst)

theorem kept_run (h : s.Kept) {steps : List Step} (hsteps : ∀ st ∈ steps, st.Whole) :
    (s.run steps).Kept := by
  induction steps generalizing s with
  | nil => exact h
  | cons st rest ih =>
      exact ih (kept_step h (hsteps st List.mem_cons_self))
        fun st' hmem => hsteps st' (List.mem_cons_of_mem st hmem)

end Steps

end Search

namespace Monitor

open Search (Step)

/-- The user moves the cursor by an integer. -/
def Event.Whole : Event → Prop
  | .user (.navigate delta) => delta.isInteger = true
  | _ => True

namespace Session

/-- An occurrence moves the cursor by an integer, if it moves it. -/
def Occurrence.Whole : Occurrence → Prop
  | .event e => e.Whole
  | _ => True

section Events

variable {s t : Session} {event : Event} {requests : List Request}

theorem search_withSearch (outcome : Option Search) :
    (s.withSearch outcome).2.1.search = outcome.getD s.search := by
  cases outcome <;> rfl

/-- What the user does is an act on the search, or it is refused beforehand. -/
theorem exists_steps_of_user (event : UserEvent) :
    ∃ steps : List Step, (s.step (.user event)).1.search = s.search.run steps ∧
      ((Event.user event).Whole → ∀ st ∈ steps, st.Whole) := by
  have hsearch : (s.step (.user event)).1.search = (s.operate event).getD s.search :=
    search_withSearch (s.operate event)
  have hone : ∀ a : Search.Act, s.operate event = s.search.act a →
      ((Event.user event).Whole → (Step.act a).Whole) →
      ∃ steps : List Step, (s.step (.user event)).1.search = s.search.run steps ∧
        ((Event.user event).Whole → ∀ st ∈ steps, st.Whole) := by
    intro a ha hwhole
    refine ⟨[.act a], ?_, fun h st hst => ?_⟩
    · rw [hsearch, ha]
      rfl
    · rw [List.mem_singleton.mp hst]
      exact hwhole h
  cases event with
  | submit query =>
      by_cases hquery : Hex.isQuery query.trim = true
      · refine hone (.submit s.running query.trim .topLevel s.snapshot.chain.blocks) ?_
          fun _ => trivial
        simp only [operate, if_pos hquery]
        rfl
      · refine ⟨[], ?_, fun _ st hst => absurd hst List.not_mem_nil⟩
        rw [hsearch]
        simp only [operate, if_neg hquery]
        rfl
  | navigate delta => exact hone (.navigate delta) rfl id
  | activate => exact hone (.activate s.running s.snapshot.chain.blocks) rfl fun _ => trivial
  | close => exact hone .close rfl fun _ => trivial
  | back => exact hone .back rfl fun _ => trivial
  | dismiss => exact hone .dismiss rfl fun _ => trivial

/-- What else happens begins a lookup, ends one or leaves the search alone. -/
theorem exists_steps_of_stepped (h : Stepped s event t requests) (hnot : ¬ event.IsUser) :
    ∃ steps : List Step, t.search = s.search.run steps ∧ ∀ st ∈ steps, st.Whole := by
  cases h with
  | lookupBegun hworker hbegin =>
      refine ⟨[.begin], rfl, fun st hst => ?_⟩
      rw [List.mem_singleton.mp hst]
      trivial
  | @lookupFound query stage answer outcome hquery hlookup hnext =>
      refine ⟨[.settle (.ok ⟨query.text, outcome, .unset⟩)], rfl, fun st hst => ?_⟩
      rw [List.mem_singleton.mp hst]
      exact Lookup.kept_result_unset query.text outcome
  | @lookupBroken message hbusy =>
      refine ⟨[.begin, .settle (.error message)], rfl, fun st hst => ?_⟩
      rcases List.mem_pair.mp hst with rfl | rfl <;> trivial
  | lookupSubmitted huser | operated huser => exact absurd huser hnot
  | _ => exact ⟨[], rfl, fun st hst => absurd hst List.not_mem_nil⟩

/-- An event comes to a few steps of the search. -/
theorem exists_steps (event : Event) :
    ∃ steps : List Step, (s.step event).1.search = s.search.run steps ∧
      (event.Whole → ∀ st ∈ steps, st.Whole) := by
  have hstepped := stepped (s := s) event
  cases event with
  | user event => exact exists_steps_of_user event
  | escape =>
      refine ⟨[.act .escape], search_withSearch s.search.escape, fun _ st hst => ?_⟩
      rw [List.mem_singleton.mp hst]
      trivial
  | _ =>
      rcases exists_steps_of_stepped hstepped not_false with ⟨steps, hsteps, hall⟩
      exact ⟨steps, hsteps, fun _ => hall⟩

theorem kept_of_step (h : s.search.Kept) (hwhole : event.Whole) :
    (s.step event).1.search.Kept := by
  rcases exists_steps (s := s) event with ⟨steps, hsteps, hall⟩
  rw [hsteps]
  exact Search.kept_run h (hall hwhole)

/-- Every result that a session holds keeps the invariant, whatever happens to
    it. -/
theorem kept_after (h : s.search.Kept) {run : List Occurrence}
    (hwhole : ∀ o ∈ run, o.Whole) : (s.after run).search.Kept := by
  induction run generalizing s with
  | nil => exact h
  | cons o rest ih =>
      have hone : (s.occur o).1.search.Kept := by
        cases o with
        | event event => exact kept_of_step h (hwhole (.event event) List.mem_cons_self)
        | subscribe | unsubscribe => exact h
      exact ih hone fun o' hmem => hwhole o' (List.mem_cons_of_mem o hmem)

end Events

end Session

end Monitor

end NodeWatch
