import NodeWatch.Dashboard.Screen
import NodeWatch.Proofs.Dashboard.Drawing
import NodeWatch.Proofs.Monitor.Cursors

/-!
# Highlight, Hints and Keys

Four things depend on where the cursor is: what the panel draws inverse, which
keys the status line offers, what the enter key does, and whether the escape
key is a matter of the open list. Each of them finds out for itself, with
comparisons of its own and in an order of its own. The status line asks for the
outputs before the inputs, the enter key the other way round; the escape key is
handed to a list if one has the cursor, and the search closes a list if one is
open.

With the invariant of the cursors they all come to the same question, which is
`ConfirmedTx.rowAt?`, the row that the cursor is on, or the entry at the cursor
of the list that is open. Each of the four is described by it, and then they
agree. The invariant holds of whatever is on the screen of a session, so this is
about all that a user can ever see.

## Main definitions

* `Focus.Offers`: The status line offers a key for something.
* `KeyPress.IsEnter`, `KeyPress.IsEscape`: The two keys.
* `Screen.typed`: A session after a key.
* `Session.lookUp`: The session looks something up and keeps the result.

## Theorems

* `offers_iff`: What is offered, by the row under the cursor.
* `Lookup.activate_eq`: What the enter key does, by the row under the cursor.
* `opens_iff`: When the enter key opens a list.
* `typed_escape`: The escape key is the escape of the session.
* `offers_iff_inverse`, `offers_iff_opens`: What is offered is what is inverse,
  and what the enter key does.
* `highlight_agrees`: All of them on the screen of any session.
-/

namespace NodeWatch

namespace Monitor

/-- The session looks something up, and keeps the result on the screen to go
    back to. -/
def Session.lookUp (s : Session) (text : Text) : Session × List Request :=
  (s.withSearch (s.search.submit s.running text .drillDown s.snapshot.chain.blocks)).2

end Monitor

namespace Lookup

section Enter

variable {tx : ConfirmedTx} {cursor : Cursor}

/-- On the row of a list the enter key opens it, and on the row of the block or
    on no row it leads to the block. -/
theorem activate_eq (h : cursor.Kept tx) (hlist : tx.openList cursor = none) :
    tx.activate cursor = match tx.rowAt? cursor with
      | some .inputs => .opened (cursor.put .inputs .opened)
      | some .outputs => .opened (cursor.put .outputs .opened)
      | _ => followBlock tx.blockHash := by
  have hinputs := isOn_eq h .inputs
  have houtputs := isOn_eq h .outputs
  simp only [ConfirmedTx.position] at hinputs houtputs
  rw [ConfirmedTx.activate, hlist]
  simp only [hinputs, houtputs, decide_eq_true_iff]
  generalize tx.rowAt? cursor = row
  cases row with
  | none => rfl
  | some row => cases row <;> rfl

/-- A list that the enter key opens has the row under the cursor. -/
theorem rowAt?_of_opened {cursor' : Cursor} (h : cursor.Kept tx) {side : Side}
    (hopened : tx.activate cursor = .opened cursor') (hopen : (cursor'.on side).isOpen = true) :
    tx.rowAt? cursor = some side.row := by
  rcases opened_cases hopened with ⟨side', hlist, hrow, rfl⟩
  rw [isOn_eq h, decide_eq_true_iff] at hrow
  rw [on_put] at hopen
  split at hopen
  · next heq => rw [heq, hrow]
  -- The other list was not open before.
  · rw [(openList_eq_none_iff h).mp hlist side] at hopen
    exact absurd hopen Bool.false_ne_true

end Enter

end Lookup

namespace Dashboard

open Lookup (ConfirmedTx Cursor Result Row Side)
open Monitor (Session Event Request)
open Monitor.Session (Occurrence)

/-- The status line offers a key for something. -/
def Focus.Offers (focus : Focus) (what : Text) : Prop := what <:+: focus.hints

instance (focus : Focus) (what : Text) : Decidable (focus.Offers what) :=
  inferInstanceAs (Decidable (what <:+: focus.hints))

/-- What a key is offered for when the cursor is on a row. -/
def rowHint : Row → Text
  | .block => "view block"
  | .inputs => "show inputs"
  | .outputs => "show outputs"

/-- The enter key, without a text that would be a command itself. -/
structure KeyPress.IsEnter (key : KeyPress) : Prop where
  enter : key.enter = true
  escape : key.escape = false
  slash : key.input ≠ ("/" : Text)
  letter : key.input ≠ ("q" : Text)

/-- The escape key, without a text that would be a command itself. -/
structure KeyPress.IsEscape (key : KeyPress) : Prop where
  escape : key.escape = true
  slash : key.input ≠ ("/" : Text)
  letter : key.input ≠ ("q" : Text)

/-- A session after a key on a screen that shows it as it is. -/
def Screen.typed (screen : Screen) (s : Session) (key : KeyPress) : Session × List Request :=
  ((screen.press s s.search.current key).2.map s.step).getD (s, [])

/-! ### What is offered -/

section Hints

variable {screen : Screen} {r : Result} {tx : ConfirmedTx}

theorem not_offers_of_not_confirmed (hprompt : screen.prompt = none) (htx : r.confirmed? = none)
    (row : Row) : ¬ (screen.focus (some r)).Offers (rowHint row) := by
  have hhints : (screen.focus (some r)).hints = "[Esc] dismiss  [q] quit" := by
    simp only [Focus.hints, Screen.focus, hprompt, Option.isSome_none, Bool.false_eq_true, if_false,
      htx]
  rw [Focus.Offers, hhints]
  cases row <;> decide +kernel

/-- A key is offered for the row under the cursor and for no other one. -/
theorem offers_iff (hprompt : screen.prompt = none) (htx : r.confirmed? = some tx)
    (h : r.cursor.Kept tx) (hlist : tx.openList r.cursor = none) (row : Row) :
    (screen.focus (some r)).Offers (rowHint row) ↔ tx.rowAt? r.cursor = some row := by
  have hblock := Lookup.isOn_eq h .block
  have hinputs := Lookup.isOn_eq h .inputs
  have houtputs := Lookup.isOn_eq h .outputs
  simp only [Lookup.ConfirmedTx.position] at hblock hinputs houtputs
  have hhints : (screen.focus (some r)).hints = transactionHints tx r.cursor := by
    simp only [Focus.hints, Screen.focus, hprompt, Option.isSome_none, Bool.false_eq_true, if_false,
      htx]
  rw [Focus.Offers, hhints, transactionHints, hlist]
  simp only [hblock, hinputs, houtputs, decide_eq_true_iff]
  generalize tx.rowAt? r.cursor = under
  cases under with
  | none => cases row <;> decide +kernel
  | some under => cases row <;> cases under <;> decide +kernel

end Hints

/-! ### Keys -/

section Keys

variable {screen : Screen} {s : Session} {key : KeyPress} {r : Result} {tx : ConfirmedTx}
  {current : Option Result}

theorem command_enter (hprompt : screen.prompt = none) (h : key.IsEnter) :
    (screen.focus current).command key = .session .activate := by
  simp only [Focus.command, Screen.focus, hprompt, Option.isSome_none, Bool.false_eq_true, if_false,
    listCommand, pageCommand, h.enter, h.escape, h.slash, h.letter, if_true, ite_self]

theorem command_escape (hprompt : screen.prompt = none) (h : key.IsEscape) :
    (screen.focus current).command key
      = if (screen.focus current).inList then .session .close else .escape := by
  simp only [Focus.command, Screen.focus, hprompt, Option.isSome_none, Bool.false_eq_true, if_false,
    listCommand, pageCommand, h.escape, h.slash, h.letter, if_true]

theorem typed_enter (hprompt : screen.prompt = none) (h : key.IsEnter) :
    screen.typed s key = s.step (.user .activate) := by
  rw [Screen.typed, Screen.press, command_enter hprompt h]
  rfl

/-- What the enter key does to a session, by what it does to the result. -/
theorem step_activate (hr : s.search.current = some r) :
    s.step (.user .activate) = match r.activate with
      | .stay => (s, [])
      | .opened cursor =>
        (s.withSearch (some { s.search with current := some { r with cursor } })).2
      | .follow text => s.lookUp text := by
  change (s.withSearch (s.search.activate s.running s.snapshot.chain.blocks)).2 = _
  rw [Search.activate_eq hr]
  cases r.activate with
  | stay | opened _ | follow _ => rfl

theorem step_follow {hash : Text} (hr : s.search.current = some r)
    (hfollow : r.activate = Lookup.followBlock hash) :
    s.step (.user .activate) = if hash = [] then (s, []) else s.lookUp hash := by
  rw [step_activate hr, hfollow, Lookup.followBlock]
  by_cases hhash : hash = []
  · rw [if_pos hhash, if_pos hhash]
  · rw [if_neg hhash, if_neg hhash]

/-- A lookup puts a placeholder on the screen or is refused. -/
theorem current_lookUp (hr : s.search.current = some r) (text : Text) :
    (s.lookUp text).1.search.current = some r ∨
      (s.lookUp text).1.search.current = some (.searching text) := by
  have hsearch : (s.lookUp text).1.search
      = (s.search.submit s.running text .drillDown s.snapshot.chain.blocks).getD s.search :=
    Monitor.Session.search_withSearch _
  rw [hsearch]
  cases hsubmit : s.search.submit s.running text .drillDown s.snapshot.chain.blocks with
  | none => exact .inl hr
  | some search =>
      rcases Search.begun_of_submit hsubmit with ⟨-, rfl⟩
      exact .inr rfl

/-- The enter key opens a list, with nothing highlighted in it, exactly when
    the cursor is on its row. -/
theorem opens_iff (hr : s.search.current = some r) (htx : r.confirmed? = some tx)
    (h : r.cursor.Kept tx) (hlist : tx.openList r.cursor = none) (side : Side) :
    (s.step (.user .activate)).1.search.current
        = some { r with cursor := r.cursor.put side .opened } ↔
      tx.rowAt? r.cursor = some side.row := by
  have hactivate : r.activate = tx.activate r.cursor := by
    rw [Result.activate, htx]
  rw [step_activate hr, hactivate]
  constructor
  · intro hopened
    -- The result is another one, for no list was open before.
    have hother : some r ≠ some { r with cursor := r.cursor.put side .opened } := by
      intro heq
      have hcursor := congrArg Result.cursor (Option.some.inj heq)
      have hclosed := (Lookup.openList_eq_none_iff h).mp hlist side
      rw [hcursor, Lookup.on_put, if_pos rfl] at hclosed
      exact absurd hclosed Bool.noConfusion
    cases ha : tx.activate r.cursor with
    | stay =>
        rw [ha] at hopened
        exact absurd (hr.symm.trans hopened) hother
    | opened cursor =>
        rw [ha] at hopened
        refine Lookup.rowAt?_of_opened h ha ?_
        have hcursor := congrArg Result.cursor (Option.some.inj hopened)
        simp only at hcursor
        rw [hcursor, Lookup.on_put, if_pos rfl]
        rfl
    | follow text =>
        rw [ha] at hopened
        rcases current_lookUp hr text with hsame | hsearching
        · exact absurd (hsame.symm.trans hopened) hother
        · have houtcome := congrArg Result.confirmed? (Option.some.inj
            (hsearching.symm.trans hopened))
          exact absurd (houtcome.trans htx) (Option.some_ne_none tx).symm
  · intro hrow
    rw [Lookup.activate_eq h hlist, hrow]
    cases side with
    | inputs | outputs => rfl

/-- A list that has the cursor can be closed. -/
theorem exists_close (hin : (screen.focus s.search.current).inList = true)
    (hkept : ∀ r tx, s.search.current = some r → r.confirmed? = some tx → r.cursor.Kept tx) :
    ∃ search, s.search.close = some search := by
  rw [Focus.inList, Option.isSome_iff_exists] at hin
  rcases hin with ⟨side, hside⟩
  simp only [Screen.focus, Option.bind_eq_some_iff, Result.openList, Option.bind_eq_bind] at hside
  rcases hside with ⟨r, hr, tx, htx, hlist⟩
  have hopen := (Lookup.openList_eq_some_iff (hkept r tx hr htx) side).mp hlist
  cases hclose : r.cursor.close? with
  | none =>
      rw [Lookup.close?_eq_none_iff.mp hclose side] at hopen
      exact absurd hopen Bool.false_ne_true
  | some cursor =>
      refine ⟨{ s.search with current := some { r with cursor } }, ?_⟩
      rw [Search.close, hr]
      simp only [Option.bind_eq_bind, Option.bind_some, Result.closeList, hclose, Option.map_some]
      rfl

/-- The escape key is the escape of the session, also when it is resolved as
    closing the list that has the cursor. -/
theorem typed_escape (hprompt : screen.prompt = none) (h : key.IsEscape)
    (hkept : ∀ r tx, s.search.current = some r → r.confirmed? = some tx → r.cursor.Kept tx) :
    screen.typed s key = s.escape.2 ∧
      (screen.press s s.search.current key).1 = screen.obey .escape s.escape.1 := by
  rw [Screen.typed, Screen.press, command_escape hprompt h]
  by_cases hin : (screen.focus s.search.current).inList = true
  · rcases exists_close hin hkept with ⟨search, hclose⟩
    -- Closing comes first in the escape of the session.
    have hescape : s.escape = s.dispatch .close := by
      change s.withSearch s.search.escape = s.withSearch s.search.close
      rw [Search.escape, hclose]
      rfl
    have haccepted : s.escape.1 = true := by
      rw [hescape]
      change (s.withSearch s.search.close).1 = true
      rw [hclose]
      rfl
    rw [if_pos hin, haccepted, hescape]
    refine ⟨rfl, ?_⟩
    simp only [Screen.obey, Bool.not_true, Bool.or_false]
  · rw [if_neg hin]
    exact ⟨rfl, rfl⟩

end Keys

/-! ### Agreement -/

section Agreement

variable {screen : Screen} {s : Session} {r : Result} {tx : ConfirmedTx}

/-- The rows are told apart by their labels. -/
theorem rowTexts_injective {row row' : Row} (h : rowTexts tx row = rowTexts tx row') :
    row = row' := by
  have hlabel : ∀ row : Row, (rowTexts tx row).head? = some (match row with
      | .block => "  Block #      : "
      | .inputs => "  Inputs       : "
      | .outputs => "  Outputs      : ") := by
    intro row
    cases row <;> rfl
  have hlabels := congrArg List.head? h
  rw [hlabel, hlabel] at hlabels
  cases row <;> cases row' <;> first | rfl | exact absurd hlabels (by decide)

theorem rowTexts_ne_nil (row : Row) : rowTexts tx row ≠ [] := by
  cases row <;> exact List.cons_ne_nil _ _

/-- What is inverse among the rows tells which row the cursor is on. -/
theorem inverse_eq_iff (htx : r.confirmed? = some tx) (hlist : tx.openList r.cursor = none)
    (h : r.cursor.Kept tx) (now : Double) (row : Row) :
    (resultPanel r now).inverse = rowTexts tx row ↔ tx.rowAt? r.cursor = some row := by
  rw [inverse_of_rows htx hlist h]
  cases tx.rowAt? r.cursor with
  | none =>
      rw [Option.elim_none]
      exact ⟨fun hc => absurd hc.symm (rowTexts_ne_nil row), fun hc => absurd hc.symm
        (Option.some_ne_none row)⟩
  | some row' =>
      rw [Option.elim_some, Option.some.injEq]
      exact ⟨rowTexts_injective, congrArg (rowTexts tx)⟩

/-- The row under the cursor is the one that is inverse. -/
theorem existsUnique_inverse (htx : r.confirmed? = some tx) (hlist : tx.openList r.cursor = none)
    (h : r.cursor.Kept tx) (now : Double) (hpos : 0 ≤ r.cursor.selected) :
    ∃! row, (resultPanel r now).inverse = rowTexts tx row := by
  rcases (Lookup.existsUnique_row h.row hpos).exists with ⟨row, hon⟩
  rw [Lookup.isOn_eq h, decide_eq_true_iff] at hon
  refine ⟨row, (inverse_eq_iff htx hlist h now row).mpr hon, fun row' h' => ?_⟩
  have hrow' := (inverse_eq_iff htx hlist h now row').mp h'
  exact Option.some.inj (hrow'.symm.trans hon)

/-- On the inputs the enter key follows the highlighted one. -/
theorem step_inputs (hr : s.search.current = some r) (htx : r.confirmed? = some tx)
    (hlist : tx.openList r.cursor = some .inputs) :
    s.step (.user .activate) = match Lookup.entryAt? tx.inputs r.cursor.inputs.selected with
      | some (.spend txid _) => s.lookUp txid
      | _ => (s, []) := by
  rw [step_activate hr, Result.activate, htx]
  simp only [ConfirmedTx.activate, hlist]
  cases Lookup.entryAt? tx.inputs r.cursor.inputs.selected with
  | none => rfl
  | some input => cases input <;> rfl

theorem step_outputs (hr : s.search.current = some r) (htx : r.confirmed? = some tx)
    (hlist : tx.openList r.cursor = some .outputs) : s.step (.user .activate) = (s, []) := by
  rw [step_activate hr, Result.activate, htx]
  simp only [ConfirmedTx.activate, hlist]

/-- With a cursor that was never moved the enter key opens nothing. -/
theorem ne_put_opened (h : r.cursor = .unset) (side : Side) :
    some r ≠ some { r with cursor := r.cursor.put side .opened } := by
  intro heq
  have hcursor := congrArg Result.cursor (Option.some.inj heq)
  have hclosed := congrArg Lookup.Overlay.isOpen (Lookup.on_unset side)
  rw [← h, hcursor, Lookup.on_put, if_pos rfl] at hclosed
  exact absurd hclosed Bool.noConfusion

end Agreement

/-! ### On the rows -/

section Rows

variable {screen : Screen} {s : Session} {r : Result} {tx : ConfirmedTx}

/-- While no list has the cursor, a row that it is on is inverse, and no other one. -/
theorem exists_inverse_row (hkept : r.Kept)
    (hcount : ∀ tx, r.confirmed? = some tx → tx.Countable) (hnone : r.openList = none)
    (now : Double) (hpos : 0 ≤ r.cursor.selected) :
    ∃ tx, r.confirmed? = some tx ∧ ∃! row, (resultPanel r now).inverse = rowTexts tx row := by
  cases htx : r.confirmed? with
  | none =>
      rw [hkept.other htx] at hpos
      exact absurd hpos (by decide +kernel)
  | some tx =>
      have hclosed := (Lookup.result_openList htx).symm.trans hnone
      exact ⟨tx, rfl, existsUnique_inverse htx hclosed (hkept.confirmed tx htx (hcount tx htx)) now
        hpos⟩

theorem inverse_eq_nil (hkept : r.Kept) (hcount : ∀ tx, r.confirmed? = some tx → tx.Countable)
    (hnone : r.openList = none) (now : Double) (hneg : r.cursor.selected < 0) :
    (resultPanel r now).inverse = [] := by
  cases htx : r.confirmed? with
  | none => exact inverse_of_not_confirmed htx now
  | some tx =>
      have hclosed := (Lookup.result_openList htx).symm.trans hnone
      have h := hkept.confirmed tx htx (hcount tx htx)
      rw [inverse_of_rows htx hclosed h, (Lookup.rowAt?_eq_none_iff h).mpr hneg]
      rfl

/-- A key is offered for the row that is inverse. -/
theorem offers_iff_inverse (hprompt : screen.prompt = none) (hkept : r.Kept)
    (hcount : ∀ tx, r.confirmed? = some tx → tx.Countable) (hnone : r.openList = none)
    (now : Double) (row : Row) : (screen.focus (some r)).Offers (rowHint row) ↔
      ∃ tx, r.confirmed? = some tx ∧ (resultPanel r now).inverse = rowTexts tx row := by
  cases htx : r.confirmed? with
  | none =>
      simp only [reduceCtorEq, false_and, exists_false, iff_false]
      exact not_offers_of_not_confirmed hprompt htx row
  | some tx =>
      have hclosed := (Lookup.result_openList htx).symm.trans hnone
      have h := hkept.confirmed tx htx (hcount tx htx)
      rw [offers_iff hprompt htx h hclosed row, ← inverse_eq_iff htx hclosed h now]
      constructor
      · intro hrow
        exact ⟨tx, rfl, hrow⟩
      · rintro ⟨tx', htx', hrow⟩
        rw [Option.some.inj htx']
        exact hrow

/-- What is offered for a list is what the enter key does. -/
theorem offers_iff_opens (hprompt : screen.prompt = none) (hr : s.search.current = some r)
    (hkept : r.Kept) (hcount : ∀ tx, r.confirmed? = some tx → tx.Countable)
    (hnone : r.openList = none) (side : Side) :
    (screen.focus (some r)).Offers (rowHint side.row) ↔
      (s.step (.user .activate)).1.search.current
        = some { r with cursor := r.cursor.put side .opened } := by
  cases htx : r.confirmed? with
  | none =>
      have hstay : s.step (.user .activate) = (s, []) := by
        rw [step_activate hr, Result.activate, htx]
      rw [hstay]
      exact ⟨fun ho => absurd ho (not_offers_of_not_confirmed hprompt htx side.row),
        fun hc => absurd (hr.symm.trans hc) (ne_put_opened (hkept.other htx) side)⟩
  | some tx =>
      have hclosed := (Lookup.result_openList htx).symm.trans hnone
      have h := hkept.confirmed tx htx (hcount tx htx)
      rw [offers_iff hprompt htx h hclosed side.row, opens_iff hr htx h hclosed]

/-- On the row of the block the enter key looks it up. -/
theorem step_of_offers_block (hprompt : screen.prompt = none) (hr : s.search.current = some r)
    (htx : r.confirmed? = some tx) (h : r.cursor.Kept tx) (hlist : tx.openList r.cursor = none)
    (hoffers : (screen.focus (some r)).Offers (rowHint .block)) :
    s.step (.user .activate) = if tx.blockHash = [] then (s, []) else s.lookUp tx.blockHash := by
  refine step_follow hr ?_
  rw [Result.activate, htx]
  simp only [Lookup.activate_eq h hlist, (offers_iff hprompt htx h hlist .block).mp hoffers]

end Rows

/-- On the screen of any session, whatever happened to it, while the prompt is
    closed. While no list has the cursor, one row is inverse if the cursor is on
    one and nothing is otherwise; a key is offered for that row and for no other
    one; the list of the row, and no other, is opened by the enter key, with
    nothing highlighted in it; and on the row of the block that key looks the
    block up, if its hash is known. In an open list the entry at the cursor is
    inverse and nothing else is; the enter key looks up what the highlighted
    input spends, and does nothing if there is no such thing, nor among the
    outputs. The escape key is the escape of the session, for the session and
    for the screen. -/
theorem highlight_agrees (run : List Occurrence) (hwhole : ∀ o ∈ run, o.Whole) (screen : Screen)
    (hprompt : screen.prompt = none) (r : Result)
    (hr : (Session.initial.after run).search.current = some r)
    (hcount : ∀ tx, r.confirmed? = some tx → tx.Countable) (now : Double)
    (enter escape : KeyPress) (henter : enter.IsEnter) (hescape : escape.IsEscape) :
    let s := Session.initial.after run
    let focus := screen.focus (some r)
    let highlighted := (resultPanel r now).inverse
    (r.openList = none →
      (0 ≤ r.cursor.selected → ∃ tx, r.confirmed? = some tx ∧
        ∃! row, highlighted = rowTexts tx row) ∧
      (r.cursor.selected < 0 → highlighted = []) ∧
      (∀ row, focus.Offers (rowHint row) ↔
        ∃ tx, r.confirmed? = some tx ∧ highlighted = rowTexts tx row) ∧
      (∀ side, focus.Offers (rowHint side.row) ↔
        (screen.typed s enter).1.search.current
          = some { r with cursor := r.cursor.put side .opened }) ∧
      ∀ tx, r.confirmed? = some tx → focus.Offers (rowHint .block) →
        screen.typed s enter = if tx.blockHash = [] then (s, []) else s.lookUp tx.blockHash) ∧
    (∀ side tx, r.openList = some side → r.confirmed? = some tx →
      highlighted = (Lookup.entryAt? (labels tx side) (r.cursor.on side).selected).elim []
        (entryTexts (r.cursor.on side).selected)) ∧
    (∀ tx, r.openList = some .inputs → r.confirmed? = some tx →
      screen.typed s enter = match Lookup.entryAt? tx.inputs r.cursor.inputs.selected with
        | some (.spend txid _) => s.lookUp txid
        | _ => (s, [])) ∧
    (r.openList = some .outputs → screen.typed s enter = (s, [])) ∧
    screen.typed s escape = s.escape.2 ∧
      (screen.press s s.search.current escape).1 = screen.obey .escape s.escape.1 := by
  intro s focus highlighted
  have hkept : r.Kept := Monitor.Session.kept_after Search.kept_initial hwhole r (.inl hr)
  have hcursor : ∀ tx, r.confirmed? = some tx → r.cursor.Kept tx :=
    fun tx htx => hkept.confirmed tx htx (hcount tx htx)
  have hlist : ∀ tx, r.confirmed? = some tx → tx.openList r.cursor = r.openList :=
    fun tx htx => (Lookup.result_openList htx).symm
  rw [typed_enter hprompt henter]
  refine ⟨fun hnone => ?_, ?_, ?_, ?_, typed_escape hprompt hescape fun r' tx hr' htx => ?_⟩
  · refine ⟨exists_inverse_row hkept hcount hnone now, inverse_eq_nil hkept hcount hnone now,
      offers_iff_inverse hprompt hkept hcount hnone now,
      offers_iff_opens hprompt hr hkept hcount hnone, fun tx htx hoffers => ?_⟩
    exact step_of_offers_block hprompt hr htx (hcursor tx htx) ((hlist tx htx).trans hnone) hoffers
  · intro side tx hside htx
    exact inverse_of_list htx (hcount tx htx) ((hlist tx htx).trans hside) (hcursor tx htx) now
  · intro tx hside htx
    exact step_inputs hr htx ((hlist tx htx).trans hside)
  · intro hside
    cases htx : r.confirmed? with
    | none =>
        rw [Result.openList, htx] at hside
        exact absurd hside (by simp only [Option.bind_eq_bind, Option.bind_none, reduceCtorEq,
          not_false_eq_true])
    | some tx => exact step_outputs hr htx ((hlist tx htx).trans hside)
  -- The result that has the cursor is the one on the screen.
  · obtain rfl : r = r' := Option.some.inj (hr.symm.trans hr')
    exact hcursor tx htx

/-- A transaction with one input is found, and the cursor moved to its inputs. -/
def sampleRun : List Occurrence :=
  [.event (.user (.submit (List.replicate 64 (ascii '5')))), .event .lookupBegin,
    .event (.lookupAnswer (.error (.other "gone"))),
    .event (.lookupAnswer (.ok (.object
      [("vin", .array [.object [("txid", .string "7a"), ("vout", .int 1)]])]))),
    .event (.user (.navigate 2))]

/-- What is on the screen after it. -/
def sampleResult : Result where
  query := List.replicate 64 (ascii '5')
  outcome := .confirmed ⟨0, 0, [], none, 0, 0, [.spend "7a" 1], [], 0⟩
  cursor := ⟨1, .closed, .closed⟩

/-- A key that is neither of the two. -/
def plainKey : KeyPress :=
  ⟨[], false, false, false, false, false, false, false, false, false, false, false, false⟩

theorem highlight_agrees_sample :
    let s := Session.initial.after sampleRun
    s.search.current = some sampleResult ∧
      (resultPanel sampleResult 0).inverse = ["  Inputs       : ", "1"] ∧
      (Screen.initial.focus (some sampleResult)).Offers "show inputs" ∧
      (Screen.initial.typed s { plainKey with enter := true }).1.search.current
        = some { sampleResult with cursor := sampleResult.cursor.put .inputs .opened } ∧
      Screen.initial.typed s { plainKey with escape := true } = s.escape.2 := by
  intro s
  have hr : s.search.current = some sampleResult := by decide +kernel
  have hwhole : ∀ o ∈ sampleRun, o.Whole := by
    intro o ho
    simp only [sampleRun, List.mem_cons, List.not_mem_nil, or_false] at ho
    rcases ho with rfl | rfl | rfl | rfl | rfl <;> trivial
  have hcount : ∀ tx, sampleResult.confirmed? = some tx → tx.Countable := by
    intro tx htx side
    rw [← Option.some.inj htx]
    cases side <;> decide
  have hinverse : (resultPanel sampleResult 0).inverse = ["  Inputs       : ", "1"] := by
    decide +kernel
  have henter : ({ plainKey with enter := true } : KeyPress).IsEnter :=
    ⟨rfl, rfl, by decide, by decide⟩
  have hescape : ({ plainKey with escape := true } : KeyPress).IsEscape :=
    ⟨rfl, by decide, by decide⟩
  rcases highlight_agrees sampleRun hwhole Screen.initial rfl sampleResult hr hcount 0 _ _ henter
    hescape with ⟨hrows, -, -, -, hsame, -⟩
  rcases hrows (by decide) with ⟨-, -, hoffers, hopens, -⟩
  have hoffer := (hoffers .inputs).mpr ⟨_, rfl, hinverse⟩
  exact ⟨hr, hinverse, hoffer, (hopens .inputs).mp hoffer, hsame⟩

end Dashboard

end NodeWatch
