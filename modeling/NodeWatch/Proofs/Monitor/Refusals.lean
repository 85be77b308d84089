import NodeWatch.Proofs.Monitor.Escaping

/-!
# Refused Events

What the user does is accepted or refused, and whoever asked is told which of
the two it was. A refusal should leave no trace, and what was accepted should
be seen. The first is a matter of looking at the session that a refusal leaves.
The second is not, since most operations put a result in the place of another
one, and the two may be the same.

Each operation has a reason of its own why they differ. A placeholder takes the
place of something that is none, because no lookup is under way when another one
is submitted; that is `Tidy`, which a whole session keeps, since no lookup ends
with a placeholder. A list that opens was closed, and one that closes was open.
Going back makes the history shorter. One operation has no such reason: an arrow
key is accepted on any confirmed transaction, and leaves everything as it is
when the cursor is already at the end that the key leads to. That this is the
only way is where the invariant of the cursors comes in.

## Main definitions

* `ConfirmedTx.moving`, `Result.AtEnd`: The cursor that the arrow keys move,
  and when they cannot move it.
* `Search.contents`: What can be read of a search.
* `Session.Ignored`: A session goes on as if something had not happened.

## Theorems

* `atEnd_of_move`: An arrow key that changes nothing was pressed at an end.
* `tidy_after`: No placeholder is left behind in any session.
* `refused_or_changed`: What is refused leaves no trace, and what is accepted
  is seen.
-/

namespace NodeWatch

namespace Lookup

/-- Where the cursor is that the arrow keys move, and the last place for it. -/
def ConfirmedTx.moving (tx : ConfirmedTx) (cursor : Cursor) : Double × Int :=
  match tx.openList cursor with
  | some side => ((cursor.on side).selected, tx.size side - 1)
  | none => (cursor.selected, tx.lastRow)

/-- The cursor that the arrow keys move is at the end that a step leads to: the
    last place, or nowhere for a step back. -/
def Result.AtEnd (r : Result) (step : Int) : Prop :=
  ∃ tx i, r.confirmed? = some tx ∧ (tx.moving r.cursor).1.toInt? = some i ∧
    (0 < step → i = (tx.moving r.cursor).2) ∧ (step < 0 → i = -1)

section Moves

variable {r : Result} {tx : ConfirmedTx} {cursor : Cursor} {x y : Double} {b last : Int}

/-- A step that is cut off to nothing was taken at an end. -/
theorem end_of_clamp (hx : Within x last) (hy : y.toInt? = some b) (hlast : last < twoPow 53)
    (hsame : clamp (x + y) last = x) :
    ∃ i, x.toInt? = some i ∧ (0 < b → i = last) ∧ (b < 0 → i = -1) := by
  rcases hx with ⟨i, hi, hlow, hhigh⟩
  have htwo : twoPow 53 = 2 ^ 53 := rfl
  have hclamp : (clamp (x + y) last).toInt? = some (min (max (i + b) (-1)) last) :=
    toInt?_clamp hi hy (by omega)
  rw [hsame, hi, Option.some.injEq] at hclamp
  exact ⟨i, hi, fun hb => by omega, fun hb => by omega⟩

/-- An arrow key that changes nothing was pressed at an end. -/
theorem atEnd_of_move (hkept : r.Kept) (htx : r.confirmed? = some tx) (hcount : tx.Countable)
    {delta : Double} (hdelta : delta.toInt? = some b) (hsame : r.move delta = r) : r.AtEnd b := by
  have hcursor := hkept.confirmed tx htx hcount
  have hmove : tx.move r.cursor delta = r.cursor := by
    rw [Result.move, htx] at hsame
    exact congrArg Result.cursor hsame
  rw [move_eq] at hmove
  unfold Result.AtEnd ConfirmedTx.moving
  refine ⟨tx, ?_⟩
  cases hopen : tx.openList r.cursor with
  | none =>
      rw [hopen] at hmove
      have hrows := lastRow_bounds tx
      have htwo : twoPow 53 = 2 ^ 53 := rfl
      rcases end_of_clamp hcursor.row hdelta (by omega) (congrArg Cursor.selected hmove) with
        ⟨i, hi, hend⟩
      exact ⟨i, htx, hi, hend⟩
  | some side =>
      rw [hopen] at hmove
      have hentry : (r.cursor.on side).move delta (tx.size side) = r.cursor.on side := by
        have hput := congrArg (Cursor.on · side) hmove
        rw [on_put, if_pos rfl] at hput
        exact hput
      have hsize := hcount side
      rcases end_of_clamp (hcursor.entry side) hdelta (by omega)
        (congrArg Overlay.selected hentry) with ⟨i, hi, hend⟩
      exact ⟨i, htx, hi, hend⟩

/-- A list with entries that does not have the cursor is closed while no list has it. -/
theorem isOpen_of_openList_eq_none (h : tx.openList cursor = none) {side : Side}
    (hsize : 0 < tx.size side) : (cursor.on side).isOpen = false := by
  rw [ConfirmedTx.openList] at h
  cases side with
  | inputs | outputs =>
      rw [ConfirmedTx.size, List.length_pos_iff] at hsize
      simp only [Cursor.on]
      grind

/-- A list that opens was closed. -/
theorem cursor_ne_of_opened (h : r.activate = .opened cursor) : cursor ≠ r.cursor := by
  rw [Result.activate] at h
  cases htx : r.confirmed? with
  | none =>
      rw [htx] at h
      cases h
  | some tx =>
      rw [htx] at h
      rcases opened_cases h with ⟨side, hnone, hrow, rfl⟩
      rw [isOn, Bool.and_eq_true, decide_eq_true_iff] at hrow
      have hclosed := isOpen_of_openList_eq_none hnone ((size_pos_iff side).mpr hrow.1)
      intro hsame
      have hopen : ((r.cursor.put side .opened).on side).isOpen = true := by
        rw [on_put, if_pos rfl]
        rfl
      rw [hsame, hclosed] at hopen
      exact absurd hopen Bool.false_ne_true

/-- A list that closes was open. -/
theorem ne_of_closeList {closed : Result} (h : r.closeList = some closed) : closed ≠ r := by
  rcases Option.map_eq_some_iff.mp h with ⟨cursor, hcursor, rfl⟩
  intro hsame
  have hfewer := openLists_of_close? hcursor
  rw [show cursor = r.cursor from congrArg Result.cursor hsame] at hfewer
  omega

/-- A lookup does not end with a placeholder. -/
theorem ne_searching_of_next {query : Query} {stage : Stage} {answer : Rpc.Answer}
    {outcome : Outcome} (h : next query stage answer = .done outcome) : outcome ≠ .searching := by
  have hfail : ∀ {e : Rpc.Error}, fail e = .done outcome → outcome ≠ .searching := by
    intro e he
    rw [← Move.done.inj he]
    exact Outcome.noConfusion
  match stage, answer with
  | .hash, .ok v =>
      simp only [next] at h
      split at h
      · cases h
      · exact hfail h
  | .block hash, .ok found =>
      simp only [next, withBlock] at h
      split at h
      · cases h
      · rw [← Move.done.inj h]
        exact Outcome.noConfusion
  | .hash, .error _ | .block _, .error _ => exact hfail h
  | .pending, .error _ | .confirmed, .error _ => cases h
  | .pending, .ok _ | .confirmed, .ok _ | .pool _, .ok _ | .pool _, .error _ =>
      rw [← Move.done.inj h]
      exact Outcome.noConfusion

end Moves

end Lookup

namespace Search

open Lookup (Result)

/-- What can be read of a search: the result on the screen and those to go
    back to. -/
def contents (s : Search) : Option Result × List Result := (s.current, s.history)

section Contents

variable {s t : Search}

theorem contents_ne_of_current (h : t.current ≠ s.current) : t.contents ≠ s.contents :=
  fun hsame => h (congrArg Prod.fst hsame)

/-- What is on the screen while no lookup is under way is no placeholder. -/
theorem contents_ne_of_submit (hs : s.Tidy) {running : Bool} {text : Text} {mode : Mode}
    {tip : Double} (h : s.submit running text mode tip = some t) : t.contents ≠ s.contents := by
  rcases begun_of_submit h with ⟨hidle, rfl⟩
  refine contents_ne_of_current fun hsame => ?_
  exact hs.idle hidle _ hsame.symm rfl

theorem contents_ne_of_activate (hs : s.Tidy) {running : Bool} {tip : Double}
    (h : s.activate running tip = some t) : t.contents ≠ s.contents := by
  cases hr : s.current with
  | none =>
      rw [activate, hr] at h
      exact absurd h (Option.some_ne_none t).symm
  | some r =>
      rw [activate_eq hr] at h
      cases hactivate : r.activate with
      | stay =>
          rw [hactivate] at h
          exact absurd h (Option.some_ne_none t).symm
      | opened cursor =>
          rw [hactivate] at h
          refine contents_ne_of_current fun hsame => ?_
          rw [← Option.some.inj h, hr] at hsame
          exact Lookup.cursor_ne_of_opened hactivate
            (congrArg Result.cursor (Option.some.inj hsame))
      | follow text =>
          rw [hactivate] at h
          exact contents_ne_of_submit hs h

theorem contents_ne_of_close (h : s.close = some t) : t.contents ≠ s.contents := by
  cases moved_of_close h with
  | closeList hr hclosed =>
      refine contents_ne_of_current fun hsame => ?_
      exact Lookup.ne_of_closeList hclosed (Option.some.inj (hsame.trans hr))

theorem contents_ne_of_back (h : s.back = some t) : t.contents ≠ s.contents := by
  rcases returned_of_back h with ⟨r, rest, hhistory, rfl⟩
  intro hsame
  have hrest : rest = r :: rest := (congrArg Prod.snd hsame).trans hhistory
  exact absurd hrest.symm (List.cons_ne_self r rest)

theorem contents_ne_of_dismiss (h : s.dismiss = some t) : t.contents ≠ s.contents := by
  rcases cleared_of_dismiss h with ⟨r, hr, rfl⟩
  refine contents_ne_of_current fun hsame => ?_
  exact absurd (hr.symm.trans hsame.symm) (Option.some_ne_none r)

theorem contents_ne_of_escape (h : s.escape = some t) : t.contents ≠ s.contents := by
  rcases cases_of_escape h with hclose | ⟨-, hback⟩ | ⟨-, -, hdismiss⟩
  · exact contents_ne_of_close hclose
  · exact contents_ne_of_back hback
  · exact contents_ne_of_dismiss hdismiss

/-- An arrow key that is accepted is seen unless the cursor is at the end. -/
theorem contents_ne_of_navigate (hs : s.Kept) {delta : Double} (h : s.navigate delta = some t) :
    t.contents ≠ s.contents ∨ ∃ r tx, s.current = some r ∧ r.confirmed? = some tx ∧
      ∀ step, delta.toInt? = some step → tx.Countable → r.AtEnd step := by
  by_cases hsame : t.contents = s.contents
  · right
    simp only [navigate, Option.bind_eq_bind, Option.bind_eq_some_iff, Option.pure_def,
      Option.some.injEq] at h
    rcases h with ⟨r, hr, tx, htx, rfl⟩
    have hmove : r.move delta = r :=
      Option.some.inj ((congrArg Prod.fst hsame).trans hr)
    exact ⟨r, tx, hr, htx, fun step hstep hcount =>
      Lookup.atEnd_of_move (hs r (.inl hr)) htx hcount hstep hmove⟩
  · exact .inl hsame

end Contents

end Search

namespace Monitor

namespace Session

open Search (Step)

/-- A session goes on as if something had not happened: it is the same session,
    and all that follows is the same. -/
def Ignored (s : Session) (o : Occurrence) : Prop :=
  s.occur o = (s, []) ∧ ∀ later, s.after (o :: later) = s.after later ∧
    s.requests (o :: later) = s.requests later

section Events

variable {s t : Session} {event : Event} {requests : List Request}

theorem ignored_of_occur {o : Occurrence} (h : s.occur o = (s, [])) : s.Ignored o := by
  refine ⟨h, fun later => ⟨?_, ?_⟩⟩
  · rw [after, h]
  · rw [Session.requests, h]
    rfl

/-- No event leaves a placeholder behind. -/
theorem tidy_of_stepped (h : Stepped s event t requests) (hs : s.search.Tidy) :
    t.search.Tidy := by
  have hact : ∀ {a : Search.Act} {search : Search}, s.search.act a = some search →
      search.Tidy := by
    intro a search ha
    have htidy := Search.tidy_step hs (show (Search.Step.act a).Finds from trivial)
    rw [Search.step, ha] at htidy
    exact htidy
  cases h with
  | lookupSubmitted _ ha | operated _ ha => exact hact ha
  | lookupBegun => exact Search.tidy_step hs (show Search.Step.begin.Finds from trivial)
  | @lookupFound query stage answer outcome _ _ hnext =>
      have hfinds : (Search.Step.settle (.ok ⟨query.text, outcome, .unset⟩)).Finds :=
        Lookup.ne_searching_of_next hnext
      exact Search.tidy_step hs hfinds
  | @lookupBroken message =>
      have hbegun := Search.tidy_step hs (show Search.Step.begin.Finds from trivial)
      exact Search.tidy_step hbegun (show (Search.Step.settle (.error message)).Finds from trivial)
  | _ => exact hs

theorem tidy_after (run : List Occurrence) : (initial.after run).search.Tidy :=
  occurrence_invariant (P := fun u => u.search.Tidy) Search.tidy_initial
    (fun _ _ _ _ hu h => tidy_of_stepped h hu) (fun _ _ _ hu => hu) run

/-- What the user asks for is refused and does nothing, or is accepted and leaves
    the search that it came to. -/
theorem withSearch_cases (outcome : Option Search) :
    (outcome = none ∧ s.withSearch outcome = (false, s, [])) ∨
      ∃ search, outcome = some search ∧ (s.withSearch outcome).1 = true ∧
        (s.withSearch outcome).2.1.search = search := by
  cases outcome with
  | none => exact .inl ⟨rfl, rfl⟩
  | some search => exact .inr ⟨search, rfl, rfl, rfl⟩

/-- An event that was accepted is seen, unless it is an arrow key at an end. -/
theorem contents_ne_of_dispatch (htidy : s.search.Tidy) (hkept : s.search.Kept)
    {event : UserEvent} (h : (s.dispatch event).1 = true) :
    (s.dispatch event).2.1.search.contents ≠ s.search.contents ∨
      ∃ delta r tx, event = .navigate delta ∧ s.search.current = some r ∧
        r.confirmed? = some tx ∧
        ∀ step, delta.toInt? = some step → tx.Countable → r.AtEnd step := by
  rcases withSearch_cases (s := s) (s.operate event) with
    ⟨-, hrefused⟩ | ⟨search, hsearch, -, hleft⟩
  · rw [dispatch, hrefused] at h
    exact absurd h Bool.false_ne_true
  rw [dispatch, hleft]
  cases event with
  | submit query =>
      simp only [operate] at hsearch
      split at hsearch
      · exact .inl (Search.contents_ne_of_submit htidy hsearch)
      · exact absurd hsearch (Option.some_ne_none search).symm
  | navigate delta =>
      rcases Search.contents_ne_of_navigate hkept hsearch with hne | ⟨r, tx, hr, htx, hend⟩
      · exact .inl hne
      · exact .inr ⟨delta, r, tx, rfl, hr, htx, hend⟩
  | activate => exact .inl (Search.contents_ne_of_activate htidy hsearch)
  | close => exact .inl (Search.contents_ne_of_close hsearch)
  | back => exact .inl (Search.contents_ne_of_back hsearch)
  | dismiss => exact .inl (Search.contents_ne_of_dismiss hsearch)

end Events

/-- What the user does after any run, at a moment when nothing or a lookup is
    under way, a list is open or the session is shut down. What is refused
    leaves no trace: the session is the one that it was, no redraw and nothing
    else is asked for, and all that follows is as if it had not happened. What
    is accepted changes what can be read of the search, with one exception: an
    arrow key on a confirmed transaction whose cursor is at the end that the
    key leads to. -/
theorem refused_or_changed (run : List Occurrence) (hrun : ∀ o ∈ run, o.Whole) :
    let s := initial.after run
    (∀ event, (s.dispatch event).1 = false → s.Ignored (.event (.user event))) ∧
      (s.escape.1 = false → s.Ignored (.event .escape)) ∧
      (∀ event, (s.dispatch event).1 = true →
        (s.dispatch event).2.1.search.contents ≠ s.search.contents ∨
          ∃ delta r tx, event = .navigate delta ∧ s.search.current = some r ∧
            r.confirmed? = some tx ∧
            ∀ step, delta.toInt? = some step → tx.Countable → r.AtEnd step) ∧
      (s.escape.1 = true → s.escape.2.1.search.contents ≠ s.search.contents) := by
  intro s
  have hrefused : ∀ outcome, (s.withSearch outcome).1 = false →
      (s.withSearch outcome).2 = (s, []) := by
    intro outcome h
    rcases withSearch_cases (s := s) outcome with ⟨-, hnone⟩ | ⟨search, -, haccepted, -⟩
    · rw [hnone]
    · exact absurd (h.symm.trans haccepted) Bool.false_ne_true
  refine ⟨fun event h => ignored_of_occur (hrefused _ h), fun h => ignored_of_occur (hrefused _ h),
    fun event => contents_ne_of_dispatch (tidy_after run) (kept_after Search.kept_initial hrun),
    fun h => ?_⟩
  rcases withSearch_cases (s := s) s.search.escape with ⟨-, hnone⟩ | ⟨search, hsearch, -, hleft⟩
  · rw [escape, hnone] at h
    exact absurd h Bool.false_ne_true
  · rw [escape, hleft]
    exact Search.contents_ne_of_escape hsearch

/-- A transaction without inputs and outputs has one row. On the first step down
    the cursor reaches it; a second one is accepted and changes nothing. A list
    to close is refused. -/
theorem refused_or_changed_at_end :
    let txid : Text := List.replicate 64 (ascii 'a')
    let run : List Occurrence :=
      [.event .start, .event (.user (.submit txid)), .event .lookupBegin,
        .event (.lookupAnswer (.error .unauthorized)), .event (.lookupAnswer (.ok (.object []))),
        .event (.user (.navigate 1))]
    let s := initial.after run
    (∀ o ∈ run, o.Whole) ∧ s.Ignored (.event (.user .close)) ∧
      (s.dispatch (.navigate 1)).1 = true ∧
      (s.dispatch (.navigate 1)).2.1.search.contents = s.search.contents ∧
      ∃ r, s.search.current = some r ∧ r.AtEnd 1 := by
  intro txid run s
  have hwhole : ∀ o ∈ run, o.Whole := by
    intro o ho
    simp only [run, List.mem_cons, List.not_mem_nil, or_false] at ho
    rcases ho with rfl | rfl | rfl | rfl | rfl | rfl
    case inr.inr.inr.inr.inr => rfl
    all_goals trivial
  have hclose : (s.dispatch .close).1 = false := by decide +kernel
  have haccepted : (s.dispatch (.navigate 1)).1 = true := by decide +kernel
  have hsame : (s.dispatch (.navigate 1)).2.1.search.contents = s.search.contents := by
    decide +kernel
  rcases refused_or_changed run hwhole with ⟨hignored, -, hchanged, -⟩
  refine ⟨hwhole, hignored .close hclose, haccepted, hsame, ?_⟩
  rcases hchanged (.navigate 1) haccepted with hne | ⟨delta, r, tx, hevent, hr, htx, hend⟩
  · exact absurd hsame hne
  · have hempty : (s.search.current.bind Lookup.Result.confirmed?).map
        (fun tx => (tx.inputs, tx.outputs)) = some ([], []) := by decide +kernel
    rw [hr, Option.bind_some, htx, Option.map_some, Option.some.injEq, Prod.mk.injEq] at hempty
    have hcount : tx.Countable := by
      intro side
      cases side with
      | inputs => exact lt_of_eq_of_lt (congrArg List.length hempty.1) (twoPow_pos 53)
      | outputs => exact lt_of_eq_of_lt (congrArg List.length hempty.2) (twoPow_pos 53)
    rw [← UserEvent.navigate.inj hevent] at hend
    exact ⟨r, hr, hend 1 (by decide +kernel) hcount⟩

end Session

end Monitor

end NodeWatch
