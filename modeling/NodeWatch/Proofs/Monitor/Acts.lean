import NodeWatch.Monitor.Search

/-!
# What the User Does to a Search

The operations of the user as data, and what a sequence of them leaves of a
search. `Acted` says once what an act that is not refused can do: it begins a
lookup, turns the result on the screen into another one, brings an earlier
result back, or clears the screen. Every fact about acts is read off these
four cases, and no other proof opens the operations.

Two of the four take the result off the screen that was there. Which act does
so depends on the search only for the escape key, which closes, goes back or
dismisses, whatever is possible first.

## Main definitions

* `Search.Act`, `Search.act`: An act of the user, and what it does.
* `Search.after`: What a sequence of acts leaves.
* `Search.returns`, `Search.dismisses`: An act goes back, or clears the screen.
* `Search.Act.allowed`: An act may begin a lookup.
* `Search.Acted`: What an act can do.

## Theorems

* `acted_of_act`: An act that is not refused does one of four things.
* `worker_of_act`: Which acts begin a lookup.
* `after_worker`: No act ends or replaces a lookup that is under way.
* `after_screen`: The screen is cleared exactly by the acts that dismiss.
* `after_placeholder`: A placeholder stays until an act takes it away.
-/

namespace NodeWatch

namespace Search

open Lookup (Query Result)

/-- What the user can do. The state of the program that an act depends on is
    a part of it: whether lookups are still begun, and the tip of the chain. -/
inductive Act where
  | submit (running : Bool) (text : Text) (mode : Mode) (tip : Double)
  | navigate (delta : Double)
  | activate (running : Bool) (tip : Double)
  | close
  | back
  | dismiss
  | escape

/-- The search after an act, unless the act is refused. -/
def act (s : Search) : Act → Option Search
  | .submit running text mode tip => s.submit running text mode tip
  | .navigate delta => s.navigate delta
  | .activate running tip => s.activate running tip
  | .close => s.close
  | .back => s.back
  | .dismiss => s.dismiss
  | .escape => s.escape

/-- The search after a sequence of acts, of which refused ones change nothing. -/
def after (s : Search) : List Act → Search
  | [] => s
  | a :: rest => ((s.act a).getD s).after rest

/-- An act brings an earlier result back. -/
def returns (s : Search) : Act → Bool
  | .back => !s.history.isEmpty
  | .escape => s.close.isNone && !s.history.isEmpty
  | _ => false

/-- An act clears the screen. -/
def dismisses (s : Search) : Act → Bool
  | .dismiss => s.current.isSome
  | .escape => s.close.isNone && s.history.isEmpty && s.current.isSome
  | _ => false

/-- Whether one of a sequence of acts, done one after the other, is such an act. -/
def someAct (p : Search → Act → Bool) (s : Search) : List Act → Bool
  | [] => false
  | a :: rest => p s a || someAct p ((s.act a).getD s) rest

/-- One of a sequence of acts clears the screen. -/
def dismissed (s : Search) (acts : List Act) : Bool := someAct dismisses s acts

/-- One of a sequence of acts takes the result away that was on the screen. -/
def removed (s : Search) (acts : List Act) : Bool :=
  someAct (fun s a => s.returns a || s.dismisses a) s acts

/-- Whether an act may begin a lookup. -/
def Act.allowed : Act → Bool
  | .submit running _ _ _ => running
  | .activate running _ => running
  | _ => false

/-- What an act that is not refused can do. -/
inductive Acted (s : Search) (a : Act) : Search → Prop where
  /-- A lookup begins. -/
  | begun {text : Text} {mode : Mode} {tip : Double} (hidle : s.busy = false)
      (hreturns : s.returns a = false) (hdismisses : s.dismisses a = false) :
      Acted s a { s with
        history := s.historyAfter mode
        current := some (.searching text)
        worker := some (.waiting ⟨text, Hex.isHeight text, tip⟩) }
  /-- The result on the screen turns into another one, but no placeholder does. -/
  | turned {r r' : Result} (hcurrent : s.current = some r) (hr : ∀ text, r ≠ .searching text)
      (hreturns : s.returns a = false) (hdismisses : s.dismisses a = false) :
      Acted s a { s with current := some r' }
  /-- The last result comes back. -/
  | returned {r : Result} {rest : List Result} (hhistory : s.history = r :: rest)
      (hreturns : s.returns a = true) (hdismisses : s.dismisses a = false) :
      Acted s a { s with current := some r, history := rest }
  /-- The screen is cleared. -/
  | cleared {r : Result} (hcurrent : s.current = some r)
      (hreturns : s.returns a = false) (hdismisses : s.dismisses a = true) :
      Acted s a { s with current := none, history := [], screen := s.screen + 1 }

/-! ### One act -/

section Inversion

variable {s t : Search}

theorem begun_of_submit {running : Bool} {text : Text} {mode : Mode} {tip : Double}
    (h : s.submit running text mode tip = some t) :
    s.busy = false ∧ t = { s with
      history := s.historyAfter mode
      current := some (.searching text)
      worker := some (.waiting ⟨text, Hex.isHeight text, tip⟩) } := by
  unfold submit at h
  by_cases hc : (s.busy || !running) = true
  · rw [if_pos hc] at h
    exact absurd h (by simp only [reduceCtorEq, not_false_eq_true])
  · rw [if_neg hc, Option.some.injEq] at h
    rw [Bool.or_eq_true, not_or] at hc
    exact ⟨Bool.eq_false_iff.mpr hc.1, h.symm⟩

/-- A placeholder is not about a confirmed transaction. -/
theorem ne_searching_of_confirmed {r : Result} {tx : Lookup.ConfirmedTx}
    (h : r.confirmed? = some tx) (text : Text) : r ≠ .searching text := by
  rintro rfl
  exact absurd h (by simp only [Result.confirmed?, Result.searching, reduceCtorEq,
    not_false_eq_true])

theorem turned_of_navigate {delta : Double} (h : s.navigate delta = some t) :
    ∃ r r', s.current = some r ∧ (∀ text, r ≠ .searching text) ∧
      t = { s with current := some r' } := by
  unfold navigate at h
  simp only [Option.bind_eq_bind, Option.bind_eq_some_iff, Option.pure_def,
    Option.some.injEq] at h
  rcases h with ⟨r, hr, tx, htx, rfl⟩
  exact ⟨r, _, hr, ne_searching_of_confirmed htx, rfl⟩

theorem turned_of_close (h : s.close = some t) :
    ∃ r r', s.current = some r ∧ (∀ text, r ≠ .searching text) ∧
      t = { s with current := some r' } := by
  unfold close at h
  simp only [Option.bind_eq_bind, Option.bind_eq_some_iff, Option.pure_def,
    Option.some.injEq] at h
  rcases h with ⟨r, hr, closed, hclosed, rfl⟩
  refine ⟨r, closed, hr, ?_, rfl⟩
  -- No list is open on a placeholder.
  rintro text rfl
  exact absurd hclosed (by simp only [Result.closeList, Result.searching, Lookup.Cursor.close?,
    Lookup.Cursor.unset, Lookup.Overlay.closed, Bool.false_eq_true, if_false, Option.map_none,
    reduceCtorEq, not_false_eq_true])

/-- The enter key turns the result or begins a lookup that follows it. -/
theorem cases_of_activate {running : Bool} {tip : Double} (h : s.activate running tip = some t) :
    (∃ r r', s.current = some r ∧ (∀ text, r ≠ .searching text) ∧
        t = { s with current := some r' }) ∨
      ∃ text, s.submit running text .drillDown tip = some t := by
  unfold activate at h
  simp only [Option.bind_eq_bind, Option.bind_eq_some_iff] at h
  rcases h with ⟨r, hr, h⟩
  cases hact : r.activate with
  | stay =>
      rw [hact] at h
      exact absurd h (by simp only [reduceCtorEq, not_false_eq_true])
  | opened cursor =>
      rw [hact, Option.some.injEq] at h
      cases htx : r.confirmed? with
      | none =>
          rw [Result.activate, htx] at hact
          exact absurd hact (by simp only [reduceCtorEq, not_false_eq_true])
      | some tx => exact .inl ⟨r, _, hr, ne_searching_of_confirmed htx, h.symm⟩
  | follow text =>
      rw [hact] at h
      exact .inr ⟨text, h⟩

theorem returned_of_back (h : s.back = some t) :
    ∃ r rest, s.history = r :: rest ∧ t = { s with current := some r, history := rest } := by
  unfold back at h
  cases hh : s.history with
  | nil =>
      rw [hh] at h
      exact absurd h (by simp only [reduceCtorEq, not_false_eq_true])
  | cons r rest =>
      rw [hh, Option.some.injEq] at h
      exact ⟨r, rest, rfl, h.symm⟩

theorem cleared_of_dismiss (h : s.dismiss = some t) :
    ∃ r, s.current = some r ∧
      t = { s with current := none, history := [], screen := s.screen + 1 } := by
  unfold dismiss at h
  cases hc : s.current with
  | none =>
      rw [hc] at h
      exact absurd h (by simp only [reduceCtorEq, not_false_eq_true])
  | some r =>
      rw [hc, Option.some.injEq] at h
      exact ⟨r, rfl, h.symm⟩

/-- Escape closes, goes back or dismisses, whatever is possible first. -/
theorem cases_of_escape (h : s.escape = some t) :
    s.close = some t ∨ (s.close = none ∧ s.back = some t) ∨
      (s.close = none ∧ s.back = none ∧ s.dismiss = some t) := by
  unfold escape at h
  cases hclose : s.close with
  | some u =>
      rw [hclose] at h
      exact .inl h
  | none =>
      rw [hclose] at h
      cases hback : s.back with
      | some u =>
          rw [hback] at h
          exact .inr (.inl ⟨rfl, h⟩)
      | none =>
          rw [hback] at h
          exact .inr (.inr ⟨rfl, rfl, h⟩)

theorem history_of_back_eq_none (h : s.back = none) : s.history = [] := by
  unfold back at h
  cases hh : s.history with
  | nil => rfl
  | cons r rest =>
      rw [hh] at h
      exact absurd h (by simp only [reduceCtorEq, not_false_eq_true])

/-- An act that is not refused does one of four things. -/
theorem acted_of_act {a : Act} (h : s.act a = some t) : Acted s a t := by
  cases a with
  | submit running text mode tip =>
      rcases begun_of_submit h with ⟨hidle, rfl⟩
      exact Acted.begun hidle rfl rfl
  | navigate delta =>
      rcases turned_of_navigate h with ⟨r, r', hr, hne, rfl⟩
      exact Acted.turned hr hne rfl rfl
  | activate running tip =>
      rcases cases_of_activate h with ⟨r, r', hr, hne, rfl⟩ | ⟨text, h⟩
      · exact Acted.turned hr hne rfl rfl
      · rcases begun_of_submit h with ⟨hidle, rfl⟩
        exact Acted.begun hidle rfl rfl
  | close =>
      rcases turned_of_close h with ⟨r, r', hr, hne, rfl⟩
      exact Acted.turned hr hne rfl rfl
  | back =>
      rcases returned_of_back h with ⟨r, rest, hh, rfl⟩
      exact Acted.returned hh (by simp only [returns, hh, List.isEmpty_cons, Bool.not_false]) rfl
  | dismiss =>
      rcases cleared_of_dismiss h with ⟨r, hr, rfl⟩
      exact Acted.cleared hr rfl (by simp only [dismisses, hr, Option.isSome_some])
  | escape =>
      rcases cases_of_escape h with h | ⟨hclose, h⟩ | ⟨hclose, hback, h⟩
      · have hsome : s.close.isNone = false := by rw [h, Option.isNone_some]
        rcases turned_of_close h with ⟨r, r', hr, hne, rfl⟩
        exact Acted.turned hr hne (by simp only [returns, hsome, Bool.false_and])
          (by simp only [dismisses, hsome, Bool.false_and])
      · rcases returned_of_back h with ⟨r, rest, hh, rfl⟩
        exact Acted.returned hh
          (by simp only [returns, hclose, hh, Option.isNone_none, List.isEmpty_cons,
            Bool.not_false, Bool.and_self])
          (by simp only [dismisses, hh, List.isEmpty_cons, Bool.and_false, Bool.false_and])
      · have hh := history_of_back_eq_none hback
        rcases cleared_of_dismiss h with ⟨r, hr, rfl⟩
        exact Acted.cleared hr
          (by simp only [returns, hh, List.isEmpty_nil, Bool.not_true, Bool.and_false])
          (by simp only [dismisses, hclose, hh, hr, Option.isNone_none, Option.isSome_some,
            List.isEmpty_nil, Bool.and_self])

/-- An act leaves the lookup alone, or begins one because none is under way. -/
theorem worker_of_act {a : Act} (h : s.act a = some t) :
    t.worker = s.worker ∨
      (a.allowed = true ∧ s.busy = false ∧ ∃ query, t.worker = some (.waiting query)) := by
  have hsubmit : ∀ {running text mode tip}, s.submit running text mode tip = some t →
      running = true ∧ s.busy = false ∧ ∃ query, t.worker = some (.waiting query) := by
    intro running text mode tip h
    rcases begun_of_submit h with ⟨hidle, ht⟩
    refine ⟨?_, hidle, _, congrArg Search.worker ht⟩
    cases running with
    | true => rfl
    | false =>
        unfold submit at h
        rw [Bool.not_false, Bool.or_true, if_pos rfl] at h
        exact absurd h (by simp only [reduceCtorEq, not_false_eq_true])
  cases a with
  | submit running text mode tip => exact .inr (hsubmit h)
  | activate running tip =>
      rcases cases_of_activate h with ⟨r, r', -, -, rfl⟩ | ⟨text, h⟩
      · exact .inl rfl
      · exact .inr (hsubmit h)
  | navigate delta =>
      rcases turned_of_navigate h with ⟨r, r', -, -, rfl⟩
      exact .inl rfl
  | close =>
      rcases turned_of_close h with ⟨r, r', -, -, rfl⟩
      exact .inl rfl
  | back =>
      rcases returned_of_back h with ⟨r, rest, -, rfl⟩
      exact .inl rfl
  | dismiss =>
      rcases cleared_of_dismiss h with ⟨r, -, rfl⟩
      exact .inl rfl
  | escape =>
      rcases cases_of_escape h with h | ⟨-, h⟩ | ⟨-, -, h⟩
      · rcases turned_of_close h with ⟨r, r', -, -, rfl⟩
        exact .inl rfl
      · rcases returned_of_back h with ⟨r, rest, -, rfl⟩
        exact .inl rfl
      · rcases cleared_of_dismiss h with ⟨r, -, rfl⟩
        exact .inl rfl

end Inversion

/-! ### Sequences of acts -/

section Sequences

variable {s : Search}

theorem current_of_dismiss_eq_none (h : s.dismiss = none) : s.current = none := by
  unfold dismiss at h
  cases hc : s.current with
  | none => rfl
  | some r =>
      rw [hc] at h
      exact absurd h (by simp only [reduceCtorEq, not_false_eq_true])

/-- An act that is refused neither goes back nor clears the screen. -/
theorem refused_of_act {a : Act} (h : s.act a = none) :
    s.returns a = false ∧ s.dismisses a = false := by
  cases a with
  | back =>
      have hh := history_of_back_eq_none h
      exact ⟨by simp only [returns, hh, List.isEmpty_nil, Bool.not_true], rfl⟩
  | dismiss =>
      have hc := current_of_dismiss_eq_none h
      exact ⟨rfl, by simp only [dismisses, hc, Option.isSome_none]⟩
  | escape =>
      -- Neither of the two that the escape key falls back on is possible.
      have hboth : s.back = none ∧ s.dismiss = none := by
        change s.escape = none at h
        unfold escape at h
        cases hclose : s.close with
        | some u =>
            rw [hclose] at h
            exact absurd h (Option.some_ne_none u)
        | none =>
            rw [hclose] at h
            cases hback : s.back with
            | some u =>
                rw [hback] at h
                exact absurd h (Option.some_ne_none u)
            | none =>
                rw [hback] at h
                exact ⟨rfl, h⟩
      have hh := history_of_back_eq_none hboth.1
      have hc := current_of_dismiss_eq_none hboth.2
      exact ⟨by simp only [returns, hh, List.isEmpty_nil, Bool.not_true, Bool.and_false],
        by simp only [dismisses, hc, Option.isSome_none, Bool.and_false]⟩
  | _ => exact ⟨rfl, rfl⟩

/-- What every act preserves holds after any sequence of them. -/
theorem after_invariant {P : Search → Prop} (hs : P s)
    (hstep : ∀ u a t, P u → Acted u a t → P t) (acts : List Act) : P (s.after acts) := by
  induction acts generalizing s with
  | nil => exact hs
  | cons a rest ih =>
      cases ha : s.act a with
      | none =>
          rw [after, ha]
          exact ih hs
      | some t =>
          rw [after, ha]
          exact ih (hstep s a t hs (acted_of_act ha))

/-- No act ends or replaces a lookup that is under way. -/
theorem after_worker {w : Worker} (hw : s.worker = some w) (acts : List Act) :
    (s.after acts).worker = some w := by
  -- A lookup begins only when none is under way; no other act touches it.
  refine after_invariant (P := fun u => u.worker = some w) hw (fun u a t hu hacted => ?_) acts
  cases hacted with
  | begun hidle =>
      rw [busy, hu] at hidle
      exact absurd hidle (by simp only [Option.isSome_some, Bool.true_eq_false,
        not_false_eq_true])
  | turned => exact hu
  | returned => exact hu
  | cleared => exact hu

theorem act_screen (a : Act) :
    ((s.act a).getD s).screen = s.screen + if s.dismisses a then 1 else 0 := by
  cases ha : s.act a with
  | none =>
      rw [(refused_of_act ha).2]
      rfl
  | some t =>
      rw [Option.getD_some]
      cases acted_of_act ha with
      | begun _ _ hd => rw [hd]; rfl
      | turned _ _ _ hd => rw [hd]; rfl
      | returned _ _ hd => rw [hd]; rfl
      | cleared _ _ hd => rw [hd]; rfl

theorem screen_le_after (acts : List Act) : s.screen ≤ (s.after acts).screen := by
  induction acts generalizing s with
  | nil => exact Nat.le_refl _
  | cons a rest ih =>
      rw [after]
      refine Nat.le_trans ?_ ih
      rw [act_screen]
      exact Nat.le_add_right _ _

/-- The screen is cleared exactly by the acts that dismiss. -/
theorem after_screen (acts : List Act) :
    (s.after acts).screen = s.screen ↔ s.dismissed acts = false := by
  induction acts generalizing s with
  | nil => exact ⟨fun _ => rfl, fun _ => rfl⟩
  | cons a rest ih =>
      have hstep := act_screen (s := s) a
      have hle := screen_le_after (s := (s.act a).getD s) rest
      rw [dismissed, someAct, Bool.or_eq_false_iff, after]
      cases hd : s.dismisses a with
      | false =>
          rw [hd, if_neg Bool.false_ne_true, Nat.add_zero] at hstep
          rw [← hstep, ih]
          exact ⟨fun h => ⟨rfl, h⟩, fun h => h.2⟩
      -- Once the screen was cleared the number is greater for good.
      | true =>
          rw [hd, if_pos rfl] at hstep
          constructor
          · intro h
            omega
          · intro h
            exact absurd h.1 (by decide)

/-- A placeholder stays until an act takes it away: nothing else can be done
    with it. -/
theorem after_placeholder {w : Worker} {text : Text} (hw : s.worker = some w)
    (hs : s.current = some (.searching text)) (acts : List Act)
    (hkept : s.removed acts = false) : (s.after acts).current = some (.searching text) := by
  induction acts generalizing s with
  | nil => exact hs
  | cons a rest ih =>
      -- The first act takes nothing away, and neither do those after it.
      rw [removed, someAct, Bool.or_eq_false_iff, Bool.or_eq_false_iff] at hkept
      rcases hkept with ⟨⟨hreturns, hdismisses⟩, hrest⟩
      have hworker := after_worker hw [a]
      rw [after, after] at hworker
      rw [after]
      refine ih hworker ?_ hrest
      cases ha : s.act a with
      | none => exact hs
      | some t =>
          rw [Option.getD_some]
          cases acted_of_act ha with
          | begun hidle =>
              rw [busy, hw] at hidle
              exact absurd hidle (by simp only [Option.isSome_some, Bool.true_eq_false,
                not_false_eq_true])
          -- What turns is not a placeholder.
          | turned hcurrent hne =>
              rw [hs, Option.some.injEq] at hcurrent
              exact absurd hcurrent.symm (hne text)
          | returned _ hr =>
              rw [hreturns] at hr
              exact absurd hr (by decide)
          | cleared _ _ hd =>
              rw [hdismisses] at hd
              exact absurd hd (by decide)

end Sequences

end Search

end NodeWatch
