import NodeWatch.Proofs.Monitor.LateResult
import Mathlib.Data.List.Induction

/-!
# Going Back

The results to go back to are a stack, like the pages that a browser has
shown: following a result pushes it, going back pops it, and a new search from
the prompt or a dismissal empties it. A browser with room for everything is
easily described. The search keeps thirty-two results, so it agrees with such
a browser only at the recent end of the stack, and the question is what can be
missing at the other end.

The browser runs beside the search and is told what every step came to, and
nothing else. It is told and not asked, because a search that has forgotten
its oldest results refuses to go back when the browser would not. What is
missing is collected in a list. `Agree` ties the three together: the stack is
the history and behind it what is missing. A result joins that list in one way
only, when it is the oldest of thirty-three.

No order of steps is excluded. The user may go back or clear the screen while
a lookup is under way, so the browser has to know whether what the lookup finds
will still be seen; that is `Browser.awaited`.

## Main definitions

* `Search.Step`, `Search.step`: An act of the user, or a lookup that goes on.
* `Search.Move`, `Search.moved?`: What a step comes to.
* `Browser`, `Browser.move`: A browser with an unlimited stack.
* `Search.beside`: A run of a search and of the browser beside it.
* `Search.Overflows`: A drill-down pushes one result too many.
* `Search.Inside`: Steps that stay within the result on the screen.

## Theorems

* `step_cases`: What a step leaves of a search, by what it came to.
* `agree_of_moved`: One move keeps the search and the browser in agreement.
* `back_after_inside`: Going back undoes a drill-down.
* `history_refines_stack`: A whole run.
-/

namespace NodeWatch

namespace Search

open Lookup (Query Result)

/-- What happens to a search: the user acts, or the lookup under way goes on. -/
inductive Step where
  | act (a : Act)
  | begin
  | settle (ending : Except Text Result)

/-- The search after a step; refused acts change nothing. -/
def step (s : Search) : Step → Search
  | .act a => (s.act a).getD s
  | .begin => s.begin
  | .settle ending => s.settle ending

/-- The search after a sequence of steps. -/
def run (s : Search) (steps : List Step) : Search := steps.foldl step s

/-- What a step comes to: something the user did, or a part of a lookup. -/
inductive Move where
  | submit (text : Text) (mode : Mode)
  | navigate (delta : Double)
  | openList
  | closeList
  | back
  | dismiss
  | ask
  | find (result : Result)
  | breakDown (text message : Text)

/-- What a step comes to, unless it is refused. The enter key opens a list or
    follows the result; the escape key closes, goes back or dismisses. -/
def moved? (s : Search) : Step → Option Move
  | .act (.submit running text mode tip) =>
    (s.submit running text mode tip).map fun _ => .submit text mode
  | .act (.navigate delta) => (s.navigate delta).map fun _ => .navigate delta
  | .act (.activate running tip) =>
    match s.current.map Result.activate with
    | some (.opened _) => some .openList
    | some (.follow text) =>
      (s.submit running text .drillDown tip).map fun _ => .submit text .drillDown
    | _ => none
  | .act .close => s.close.map fun _ => .closeList
  | .act .back => s.back.map fun _ => .back
  | .act .dismiss => s.dismiss.map fun _ => .dismiss
  | .act .escape =>
    (s.close.map fun _ => .closeList) <|> (s.back.map fun _ => .back) <|>
      s.dismiss.map fun _ => .dismiss
  | .begin =>
    match s.worker with
    | some (.waiting _) => some .ask
    | _ => none
  | .settle ending =>
    match s.worker, ending with
    | some (.asking _ _), .ok result => some (.find result)
    | some (.asking query _), .error message => some (.breakDown query.text message)
    | _, _ => none

/-- The step is a drill-down that pushes one result more than are kept, and
    `oldest` is the oldest of them. -/
def Overflows (s : Search) (st : Step) (oldest : Result) : Prop :=
  ∃ r text, s.moved? st = some (.submit text .drillDown) ∧ s.current = some r ∧
    (r :: s.history).length = maxHistory + 1 ∧ (r :: s.history).getLast? = some oldest

/-- A move within the result on the screen, or a part of a lookup. -/
def Move.IsInside : Move → Prop
  | .submit _ _ | .back | .dismiss => False
  | _ => True

/-- All of a sequence of steps stay within the result on the screen. -/
def Inside (s : Search) : List Step → Prop
  | [] => True
  | st :: rest => (∀ m, s.moved? st = some m → m.IsInside) ∧ Inside (s.step st) rest

end Search

/-- A browser: the result on the screen and all results to go back to, the
    last one first. -/
structure Browser where
  current : Option Lookup.Result
  stack : List Lookup.Result
  /-- What the lookup finds will be seen: the screen was not cleared since it
      began to ask. -/
  awaited : Bool

namespace Browser

open Lookup (Result)

/-- Nothing was shown yet. -/
def blank : Browser := ⟨none, [], false⟩

/-- A result whose list under the cursor is open. -/
def opened (r : Result) : Result :=
  match r.activate with
  | .opened cursor => { r with cursor }
  | _ => r

/-- The browser after a move. -/
def move (b : Browser) : Search.Move → Browser
  | .submit text .topLevel => { b with current := some (.searching text), stack := [] }
  | .submit text .drillDown =>
    { b with current := some (.searching text), stack := b.current.toList ++ b.stack }
  | .navigate delta => { b with current := b.current.map fun r => r.move delta }
  | .openList => { b with current := b.current.map opened }
  | .closeList => { b with current := b.current.bind Result.closeList }
  | .back => { b with current := b.stack.head?, stack := b.stack.tail }
  | .dismiss => blank
  | .ask => { b with awaited := true }
  | .find result => { b with current := if b.awaited then some result else b.current }
  | .breakDown text message => { b with current := some (.failed text message) }

end Browser

namespace Search

open Lookup (Query Result)

/-- One step of a search and of the browser beside it, which makes the move
    that the step came to. -/
def stepBeside (pair : Search × Browser) (st : Step) : Search × Browser :=
  (pair.1.step st, (pair.1.moved? st).elim pair.2 pair.2.move)

/-- A run of a search and of the browser beside it. -/
def beside (steps : List Step) : Search × Browser :=
  steps.foldl stepBeside (initial, .blank)

/-! ### One move -/

/-- What a move leaves of a search. -/
inductive Moved (s : Search) : Move → Search → Prop where
  | submit {text : Text} {mode : Mode} {tip : Double} :
      Moved s (.submit text mode) { s with
        history := s.historyAfter mode
        current := some (.searching text)
        worker := some (.waiting ⟨text, Hex.isHeight text, tip⟩) }
  | navigate {r : Result} {delta : Double} (hr : s.current = some r) :
      Moved s (.navigate delta) { s with current := some (r.move delta) }
  | openList {r : Result} {cursor : Lookup.Cursor} (hr : s.current = some r)
      (hopened : r.activate = .opened cursor) :
      Moved s .openList { s with current := some { r with cursor } }
  | closeList {r closed : Result} (hr : s.current = some r) (hclosed : r.closeList = some closed) :
      Moved s .closeList { s with current := some closed }
  | back {r : Result} {rest : List Result} (hhistory : s.history = r :: rest) :
      Moved s .back { s with current := some r, history := rest }
  | dismiss :
      Moved s .dismiss { s with current := none, history := [], screen := s.screen + 1 }
  | ask {query : Query} (hw : s.worker = some (.waiting query)) :
      Moved s .ask { s with worker := some (.asking query s.screen) }
  | find {query : Query} {screen : Nat} {result : Result}
      (hw : s.worker = some (.asking query screen)) :
      Moved s (.find result) { s with
        current := if screen = s.screen then some result else s.current
        worker := none }
  | breakDown {query : Query} {screen : Nat} {message : Text}
      (hw : s.worker = some (.asking query screen)) :
      Moved s (.breakDown query.text message) { s with
        current := some (.failed query.text message)
        worker := none }

/-- What became of an act: the move that it came to and the search it left,
    or neither of them. -/
inductive Fits (s : Search) : Option Move → Option Search → Prop where
  | refused : Fits s none none
  | moved {m : Move} {t : Search} (h : Moved s m t) : Fits s (some m) (some t)

section Moves

variable {s t : Search}

theorem moved_of_submit {running : Bool} {text : Text} {mode : Mode} {tip : Double}
    (h : s.submit running text mode tip = some t) : Moved s (.submit text mode) t := by
  rcases begun_of_submit h with ⟨-, rfl⟩
  exact Moved.submit

theorem moved_of_navigate {delta : Double} (h : s.navigate delta = some t) :
    Moved s (.navigate delta) t := by
  unfold navigate at h
  simp only [Option.bind_eq_bind, Option.bind_eq_some_iff, Option.pure_def,
    Option.some.injEq] at h
  rcases h with ⟨r, hr, tx, -, rfl⟩
  exact Moved.navigate hr

theorem moved_of_close (h : s.close = some t) : Moved s .closeList t := by
  unfold close at h
  simp only [Option.bind_eq_bind, Option.bind_eq_some_iff, Option.pure_def,
    Option.some.injEq] at h
  rcases h with ⟨r, hr, closed, hclosed, rfl⟩
  exact Moved.closeList hr hclosed

theorem moved_of_back (h : s.back = some t) : Moved s .back t := by
  rcases returned_of_back h with ⟨r, rest, hhistory, rfl⟩
  exact Moved.back hhistory

theorem moved_of_dismiss (h : s.dismiss = some t) : Moved s .dismiss t := by
  rcases cleared_of_dismiss h with ⟨-, -, rfl⟩
  exact Moved.dismiss

theorem activate_eq {r : Result} (hr : s.current = some r) (running : Bool) (tip : Double) :
    s.activate running tip = match r.activate with
      | .stay => none
      | .opened cursor => some { s with current := some { r with cursor } }
      | .follow text => s.submit running text .drillDown tip := by
  unfold activate
  rw [hr]
  rfl

theorem fits_map {u : Option Search} {m : Move} (h : ∀ t, u = some t → Moved s m t) :
    Fits s (u.map fun _ => m) u := by
  cases u with
  | none => exact Fits.refused
  | some t => exact Fits.moved (h t rfl)

theorem Fits.orElse {m m' : Option Move} {u u' : Option Search} (h : Fits s m u)
    (h' : Fits s m' u') : Fits s (m <|> m') (u <|> u') := by
  cases h with
  | refused => exact h'
  | moved h => exact Fits.moved h

theorem fits_of_activate (running : Bool) (tip : Double) :
    Fits s (s.moved? (.act (.activate running tip))) (s.activate running tip) := by
  unfold moved?
  cases hr : s.current with
  | none =>
      have hnone : s.activate running tip = none := by
        unfold activate
        rw [hr]
        rfl
      rw [hnone]
      exact Fits.refused
  | some r =>
      rw [activate_eq hr]
      cases ha : r.activate with
      | stay =>
          simp only [Option.map_some, ha]
          exact Fits.refused
      | opened cursor =>
          simp only [Option.map_some, ha]
          exact Fits.moved (Moved.openList hr ha)
      | follow text =>
          simp only [Option.map_some, ha]
          exact fits_map fun t => moved_of_submit

/-- An act comes to a move exactly when it is accepted, and leaves what the
    move leaves. -/
theorem fits_of_act (a : Act) : Fits s (s.moved? (.act a)) (s.act a) := by
  cases a with
  | submit running text mode tip => exact fits_map fun t => moved_of_submit
  | navigate delta => exact fits_map fun t => moved_of_navigate
  | activate running tip => exact fits_of_activate running tip
  | close => exact fits_map fun t => moved_of_close
  | back => exact fits_map fun t => moved_of_back
  | dismiss => exact fits_map fun t => moved_of_dismiss
  | escape =>
      exact (fits_map fun t => moved_of_close).orElse
        ((fits_map fun t => moved_of_back).orElse (fits_map fun t => moved_of_dismiss))

/-- A step comes to nothing and changes nothing, or it leaves what its move
    leaves. -/
theorem step_cases (st : Step) :
    (s.moved? st = none ∧ s.step st = s) ∨ ∃ m, s.moved? st = some m ∧ Moved s m (s.step st) := by
  cases st with
  | act a =>
      have hfits := fits_of_act (s := s) a
      simp only [step]
      generalize s.moved? (.act a) = m at hfits ⊢
      generalize s.act a = u at hfits ⊢
      cases hfits with
      | refused => exact .inl ⟨rfl, rfl⟩
      | moved h => exact .inr ⟨_, rfl, h⟩
  | begin =>
      cases hw : s.worker with
      | none => exact .inl ⟨by simp only [moved?, hw], by simp only [step, begin, hw]⟩
      | some w =>
          cases w with
          | waiting query =>
              refine .inr ⟨.ask, by simp only [moved?, hw], ?_⟩
              simp only [step, begin_waiting hw]
              exact Moved.ask hw
          | asking query screen =>
              exact .inl ⟨by simp only [moved?, hw], by simp only [step, begin, hw]⟩
  | settle ending =>
      cases hw : s.worker with
      | none => exact .inl ⟨by simp only [moved?, hw], by simp only [step, settle, hw]⟩
      | some w =>
          cases w with
          | waiting query =>
              exact .inl ⟨by simp only [moved?, hw], by simp only [step, settle, hw]⟩
          | asking query screen =>
              cases ending with
              | ok result =>
                  refine .inr ⟨.find result, by simp only [moved?, hw], ?_⟩
                  simp only [step, (settle_asking hw result []).1]
                  exact Moved.find hw
              | error message =>
                  refine .inr ⟨.breakDown query.text message, by simp only [moved?, hw], ?_⟩
                  simp only [step, (settle_asking hw (.searching []) message).2]
                  exact Moved.breakDown hw

end Moves

/-! ### Side by side -/

/-- A search and a browser agree, up to results that are missing: the stack is
    the history and behind it what is missing. -/
structure Agree (s : Search) (b : Browser) (missing : List Result) : Prop where
  current : b.current = s.current
  stack : b.stack = s.history ++ missing
  length : s.history.length ≤ maxHistory
  awaited : ∀ query screen, s.worker = some (.asking query screen) →
    screen ≤ s.screen ∧ (b.awaited = true ↔ screen = s.screen)

/-- What is missing after a move. A drill-down adds what has no place among
    the results that are kept, and what empties the stack empties the list. -/
def missingAfter (s : Search) (missing : List Result) : Move → List Result
  | .submit _ .topLevel | .dismiss => []
  | .submit _ .drillDown => (s.current.toList ++ s.history).drop maxHistory ++ missing
  | _ => missing

section Agreement

variable {s t : Search} {b : Browser} {missing : List Result}

theorem agree_initial : Agree initial .blank [] where
  current := rfl
  stack := rfl
  length := Nat.zero_le _
  awaited _ _ h := absurd h (by simp only [initial, reduceCtorEq, not_false_eq_true])

/-- The results kept at a drill-down are the newest ones. -/
theorem historyAfter_drillDown (h : s.history.length ≤ maxHistory) :
    s.historyAfter .drillDown = (s.current.toList ++ s.history).take maxHistory := by
  unfold historyAfter
  cases s.current with
  | none =>
      simp only [Option.toList_none, List.nil_append]
      exact (List.take_of_length_le h).symm
  | some r => simp only [Option.toList_some, List.singleton_append]

/-- One move keeps the search and the browser in agreement. -/
theorem agree_of_moved {m : Move} (h : Agree s b missing) (hm : Moved s m t) :
    Agree t (b.move m) (s.missingAfter missing m) := by
  have hwaiting : ∀ {query : Query} {P : Query → Nat → Prop} (q : Query) (screen : Nat),
      some (Worker.waiting query) = some (.asking q screen) → P q screen := by
    intro query P q screen hc
    exact absurd hc (by simp only [Option.some.injEq, reduceCtorEq, not_false_eq_true])
  cases hm with
  | @submit text mode tip =>
      cases mode with
      | topLevel => exact ⟨rfl, rfl, Nat.zero_le _, hwaiting⟩
      | drillDown =>
          refine ⟨rfl, ?_, ?_, hwaiting⟩
          · -- What is pushed beyond the bound goes over to what is missing.
            have hsplit := List.take_append_drop maxHistory (s.current.toList ++ s.history)
            simp only [Browser.move, missingAfter, historyAfter_drillDown h.length, h.current,
              h.stack, ← List.append_assoc, hsplit]
          · simp only [historyAfter_drillDown h.length]
            exact List.length_take_le _ _
  | navigate hr =>
      refine ⟨?_, h.stack, h.length, h.awaited⟩
      simp only [Browser.move, h.current, hr, Option.map_some]
  | openList hr hopened =>
      refine ⟨?_, h.stack, h.length, h.awaited⟩
      simp only [Browser.move, h.current, hr, Option.map_some, Browser.opened, hopened]
  | closeList hr hclosed =>
      refine ⟨?_, h.stack, h.length, h.awaited⟩
      simp only [Browser.move, h.current, hr, Option.bind_some, hclosed]
  | @back r rest hhistory =>
      have hstack : b.stack = r :: (rest ++ missing) := by
        rw [h.stack, hhistory, List.cons_append]
      have hlength := h.length
      rw [hhistory, List.length_cons] at hlength
      refine ⟨?_, ?_, ?_, h.awaited⟩
      · simp only [Browser.move, hstack, List.head?_cons]
      · simp only [Browser.move, hstack, List.tail_cons, missingAfter]
      · simp only
        omega
  | dismiss =>
      refine ⟨rfl, rfl, Nat.zero_le _, fun query screen hw => ?_⟩
      -- The screen that the lookup asked for is not there any more.
      have hle := (h.awaited query screen hw).1
      simp only [Browser.move, Browser.blank, Bool.false_eq_true, false_iff]
      omega
  | ask =>
      refine ⟨h.current, h.stack, h.length, fun query screen hw => ?_⟩
      simp only [Option.some.injEq, Worker.asking.injEq] at hw
      rw [← hw.2]
      exact ⟨Nat.le_refl _, fun _ => rfl, fun _ => rfl⟩
  | @find query screen result hw =>
      refine ⟨?_, h.stack, h.length, fun _ _ hc => absurd hc (by simp only [reduceCtorEq,
        not_false_eq_true])⟩
      -- The browser waits for the result exactly when its screen is still there.
      have hawaited := (h.awaited query screen hw).2
      by_cases hscreen : screen = s.screen
      · simp only [Browser.move, hawaited.mpr hscreen, hscreen, if_true]
      · have hnot : b.awaited = false := Bool.eq_false_iff.mpr fun hc => hscreen (hawaited.mp hc)
        simp only [Browser.move, hnot, Bool.false_eq_true, if_false, hscreen, h.current]
  | breakDown hw =>
      exact ⟨rfl, h.stack, h.length, fun _ _ hc => absurd hc (by simp only [reduceCtorEq,
        not_false_eq_true])⟩

/-- Of a list that is one too long, what lies beyond the bound is the last. -/
theorem getLast?_of_mem_drop {l : List Result} {n : Nat} {r : Result} (hlength : l.length ≤ n + 1)
    (hmem : r ∈ l.drop n) : l.length = n + 1 ∧ l.getLast? = some r := by
  have hdrop : (l.drop n).length = l.length - n := List.length_drop
  have hpos := List.length_pos_of_mem hmem
  have hone : (l.drop n).length = 1 := by omega
  rcases List.length_eq_one_iff.mp hone with ⟨last, hlast⟩
  have heq : r = last := by
    rw [hlast] at hmem
    exact List.mem_singleton.mp hmem
  refine ⟨by omega, ?_⟩
  rw [← List.take_append_drop n l, hlast, List.getLast?_append, heq]
  rfl

/-- A result is missing because it was, or because a drill-down overflows. -/
theorem overflows_of_mem {st : Step} {m : Move} (hst : s.moved? st = some m)
    (hlength : s.history.length ≤ maxHistory) {oldest : Result}
    (hmem : oldest ∈ s.missingAfter missing m) : oldest ∈ missing ∨ s.Overflows st oldest := by
  cases m with
  | submit text mode =>
      cases mode with
      | topLevel => exact absurd hmem List.not_mem_nil
      | drillDown =>
          rcases List.mem_append.mp hmem with hpushed | hbefore
          · cases hr : s.current with
            -- With nothing on the screen nothing is pushed.
            | none =>
                rw [hr, Option.toList_none, List.nil_append,
                  List.drop_eq_nil_of_le hlength] at hpushed
                exact absurd hpushed List.not_mem_nil
            | some r =>
                rw [hr, Option.toList_some, List.singleton_append] at hpushed
                have hlast := getLast?_of_mem_drop (by
                  rw [List.length_cons]
                  omega) hpushed
                exact .inr ⟨r, text, hst, hr, hlast.1, hlast.2⟩
          · exact .inl hbefore
  | dismiss => exact absurd hmem List.not_mem_nil
  | _ => exact .inl hmem

theorem beside_append (steps : List Step) (st : Step) :
    beside (steps ++ [st]) = stepBeside (beside steps) st := by
  unfold beside
  rw [List.foldl_append]
  rfl

theorem run_append (steps : List Step) (st : Step) :
    s.run (steps ++ [st]) = (s.run steps).step st := by
  unfold run
  rw [List.foldl_append]
  rfl

/-- The search beside the browser is the search by itself. -/
theorem beside_fst (steps : List Step) : (beside steps).1 = initial.run steps := by
  induction steps using List.reverseRecOn with
  | nil => rfl
  | append_singleton steps st ih =>
      rw [beside_append, run_append, ← ih]
      rfl

/-- Search and browser agree at the end of a run, and whatever is missing then
    overflowed in it. -/
theorem agree_of_run (steps : List Step) :
    ∃ missing, Agree (initial.run steps) (beside steps).2 missing ∧
      ∀ oldest ∈ missing, ∃ before st rest, steps = before ++ st :: rest ∧
        (initial.run before).Overflows st oldest := by
  induction steps using List.reverseRecOn with
  | nil => exact ⟨[], agree_initial, fun _ h => absurd h List.not_mem_nil⟩
  | append_singleton steps st ih =>
      rcases ih with ⟨missing, hagree, hmissing⟩
      -- What overflowed before overflowed in the longer run as well.
      have hlonger : ∀ oldest ∈ missing, ∃ before st' rest, steps ++ [st] = before ++ st' :: rest ∧
          (initial.run before).Overflows st' oldest := by
        intro oldest hmem
        rcases hmissing oldest hmem with ⟨before, st', rest, hsteps, hover⟩
        refine ⟨before, st', rest ++ [st], ?_, hover⟩
        rw [hsteps, List.append_assoc, List.cons_append]
      rw [run_append, beside_append, stepBeside, beside_fst]
      rcases step_cases (s := initial.run steps) st with ⟨hst, hstep⟩ | ⟨m, hst, hmoved⟩
      · simp only [hst, hstep, Option.elim_none]
        exact ⟨missing, hagree, hlonger⟩
      · simp only [hst, Option.elim_some]
        refine ⟨_, agree_of_moved hagree hmoved, fun oldest hmem => ?_⟩
        rcases overflows_of_mem hst hagree.length hmem with hbefore | hover
        · exact hlonger oldest hbefore
        · exact ⟨steps, st, [], rfl, hover⟩

end Agreement

/-! ### Inside a result -/

section Within

variable {s t : Search}

theorem history_of_inside {m : Move} (hm : Moved s m t) (hinside : m.IsInside) :
    t.history = s.history := by
  cases hm with
  | submit => exact hinside.elim
  | back => exact hinside.elim
  | dismiss => exact hinside.elim
  | _ => rfl

/-- Steps that stay within a result leave the results to go back to alone. -/
theorem history_of_run_inside (inside : List Step) (h : s.Inside inside) :
    (s.run inside).history = s.history := by
  induction inside generalizing s with
  | nil => rfl
  | cons st rest ih =>
      have hstep : (s.step st).history = s.history := by
        rcases step_cases (s := s) st with ⟨-, hstep⟩ | ⟨m, hst, hmoved⟩
        · rw [hstep]
        · exact history_of_inside hmoved (h.1 m hst)
      rw [← hstep]
      exact ih h.2

/-- Going back undoes a drill-down, whatever the user does within the new
    result and however its lookup ends. -/
theorem back_after_inside {st : Step} {text : Text} {r : Result}
    (hst : s.moved? st = some (.submit text .drillDown)) (hr : s.current = some r)
    (inside : List Step) (hinside : (s.step st).Inside inside) :
    ((s.step st).run inside).back = some { (s.step st).run inside with
      current := some r
      history := s.history.take (maxHistory - 1) } := by
  have hpushed : (s.step st).history = r :: s.history.take (maxHistory - 1) := by
    rcases step_cases (s := s) st with ⟨hnone, -⟩ | ⟨m, hm, hmoved⟩
    · rw [hst] at hnone
      exact absurd hnone (Option.some_ne_none _)
    · rw [hst, Option.some.injEq] at hm
      subst hm
      generalize s.step st = t at hmoved
      cases hmoved with
      | submit => simp only [historyAfter, hr, maxHistory, List.take_succ_cons, Nat.add_one_sub_one]
  have hkept := history_of_run_inside inside hinside
  unfold back
  rw [hkept, hpushed]

end Within

/-- A run of a search beside a browser that keeps everything. The screen is
    always the same. The search keeps thirty-two results at most, the most
    recent ones that the browser keeps; those that it lacks were each the
    oldest of thirty-three when a drill-down was pushed. It refuses to go back
    exactly when it has no results left. And a drill-down is undone by going
    back, whatever the user does within the new result and however its lookup
    ends: the earlier result is on the screen again as it was. -/
theorem history_refines_stack (steps : List Step) :
    let s := initial.run steps
    let b := (beside steps).2
    b.current = s.current ∧
      (∃ missing, b.stack = s.history ++ missing ∧
        ∀ oldest ∈ missing, ∃ before st rest, steps = before ++ st :: rest ∧
          (initial.run before).Overflows st oldest) ∧
      s.history.length ≤ maxHistory ∧
      (s.back = none ↔ s.history = []) ∧
      ∀ st text r, s.moved? st = some (.submit text .drillDown) → s.current = some r →
        ∀ inside, (s.step st).Inside inside →
          ((s.step st).run inside).back = some { (s.step st).run inside with
            current := some r
            history := s.history.take (maxHistory - 1) } := by
  intro s b
  rcases agree_of_run steps with ⟨missing, hagree, hmissing⟩
  refine ⟨hagree.current, ⟨missing, hagree.stack, hmissing⟩, hagree.length, ?_, ?_⟩
  · constructor
    · exact history_of_back_eq_none
    · intro hnil
      unfold back
      rw [hnil]
  · intro st text r hst hr inside hinside
    exact back_after_inside hst hr inside hinside

/-- A result is followed, and going back from what was found restores it. -/
theorem returns_from_drillDown :
    let earlier : Result := .failed "1" "Method not found"
    let steps : List Step := [.act (.submit true "1" .topLevel 0), .begin, .settle (.ok earlier)]
    let follow : Step := .act (.submit true "2" .drillDown 0)
    let inside : List Step :=
      [.begin, .act (.navigate 1), .settle (.ok (.failed "2" "late")), .act .close]
    (initial.run steps).moved? follow = some (.submit "2" .drillDown) ∧
      (((initial.run steps).step follow).run inside).current = some (.failed "2" "late") ∧
      (((initial.run steps).step follow).run inside).back = some { initial with
        current := some earlier } := by
  intro earlier steps follow inside
  have hfollow : (initial.run steps).moved? follow = some (.submit "2" .drillDown) := rfl
  have hinside : ((initial.run steps).step follow).Inside inside := by
    refine ⟨fun m hm => ?_, fun m hm => ?_, fun m hm => ?_, fun m hm => ?_, trivial⟩
    · rw [show m = .ask from (Option.some.inj hm).symm]
      trivial
    · exact absurd hm (Option.some_ne_none m).symm
    · rw [show m = .find (.failed "2" "late") from (Option.some.inj hm).symm]
      trivial
    · exact absurd hm (Option.some_ne_none m).symm
  exact ⟨hfollow, rfl,
    (history_refines_stack steps).2.2.2.2 follow "2" earlier hfollow rfl inside hinside⟩

/-- Thirty-three results are followed one after the other, and the first is missing. -/
example :
    let follow (n : Nat) : List Step :=
      [.act (.submit true (Text.ofNat n) .drillDown 0), .begin,
        .settle (.ok (.failed (Text.ofNat n) "found"))]
    let pair := beside ((List.range 34).flatMap follow)
    pair.1.history = pair.2.stack.take 32 ∧
      pair.2.stack.drop 32 = [.failed "0" "found"] := by
  decide +kernel

end Search

end NodeWatch
