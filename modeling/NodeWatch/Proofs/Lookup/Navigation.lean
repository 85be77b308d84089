import NodeWatch.Lookup.Navigation
import NodeWatch.Proofs.Double.Bounds
import NodeWatch.Proofs.Span

/-!
# Where the Cursor Can Be

A confirmed transaction has three cursors, one on its rows and one on each of
its lists, and a list may be open or not. The operations on them do not look at
the same things: a list has the cursor if it is open and has entries, but it
closes if it is open, whether it has entries or not. That this comes to the
same is an invariant and not a matter of one operation.

The invariant is `Cursor.Kept`. Every cursor is an integer between nowhere and
the last position, not more than one list is open, and an open list has
entries. All three operations put a cursor in one place, so they are read as
that first: a move and the enter key and closing are `Cursor.put` on a list, or
a move among the rows. From the invariant follows that the cursor among the
rows is always on one of them, and that the window of an open list contains
the entry that is highlighted in it.

Positions are doubles, and so are the lengths of the steps, which may be any
integers at all. Lists are shorter than `2 ^ 53`, so that every entry has a
number of its own.

## Main definitions

* `Row`, `ConfirmedTx.position`: The rows and where they are.
* `ConfirmedTx.rowAt?`: The row that the cursor is on.
* `Cursor.on`, `Cursor.put`: The cursor of a list.
* `Key`, `Result.press`, `Result.typed`: Keys on a result.
* `Cursor.Kept`: The invariant.
* `windowTop`: The first entry of a window.

## Theorems

* `openList_eq_some_iff`: With the invariant an open list has the cursor.
* `Cursor.Kept.put`: A cursor on a list may be put anywhere within it.
* `kept_press`: Every key keeps the invariant.
* `existsUnique_row`, `rowAt?_eq_none_iff`: A cursor among the rows is on one of
  them.
* `toInt?_window`, `between_window`: What the window shows.
* `navigation_of_keys`: Any keys on any confirmed transaction.
-/

namespace NodeWatch

namespace Lookup

/-- The rows that the cursor can be on. -/
inductive Row where
  | block | inputs | outputs
deriving DecidableEq, Repr

/-- Where a row is; a row that is not there has a negative place. -/
def ConfirmedTx.position (tx : ConfirmedTx) : Row → Int
  | .block => blockRow
  | .inputs => tx.inputsRow
  | .outputs => tx.outputsRow

/-- The row that the cursor is on. -/
def ConfirmedTx.rowAt? (tx : ConfirmedTx) (cursor : Cursor) : Option Row :=
  [Row.block, .inputs, .outputs].find? fun row => isOn cursor.selected (tx.position row)

/-- The row of a list. -/
def Side.row : Side → Row
  | .inputs => .inputs
  | .outputs => .outputs

/-- How many entries a list has. -/
def ConfirmedTx.size (tx : ConfirmedTx) : Side → Nat
  | .inputs => tx.inputs.length
  | .outputs => tx.outputs.length

/-- The cursor of a list. -/
def Cursor.on (cursor : Cursor) : Side → Overlay
  | .inputs => cursor.inputs
  | .outputs => cursor.outputs

/-- The cursor of a list put elsewhere. -/
def Cursor.put (cursor : Cursor) (side : Side) (overlay : Overlay) : Cursor :=
  match side with
  | .inputs => { cursor with inputs := overlay }
  | .outputs => { cursor with outputs := overlay }

/-- Every entry of a transaction has a number of its own. -/
def ConfirmedTx.Countable (tx : ConfirmedTx) : Prop := ∀ side, tx.size side < twoPow 53

/-- A position is one of those up to a last one, or it is nowhere. -/
def Within (x : Double) (last : Int) : Prop := ∃ i, x.toInt? = some i ∧ -1 ≤ i ∧ i ≤ last

/-- What holds of the cursors on a transaction at any time. -/
structure Cursor.Kept (tx : ConfirmedTx) (cursor : Cursor) : Prop where
  row : Within cursor.selected tx.lastRow
  entry : ∀ side, Within (cursor.on side).selected (tx.size side - 1)
  one : ∀ side side', (cursor.on side).isOpen = true → (cursor.on side').isOpen = true →
    side = side'
  nonempty : ∀ side, (cursor.on side).isOpen = true → 0 < tx.size side

/-- A key on a result: an arrow with a step of any whole length, the enter key,
    or the key that closes a list. -/
inductive Key where
  | move (delta : Double) (whole : delta.isInteger = true)
  | enter
  | close

/-- A result after a key. What the enter key leads to is not looked up here. -/
def Result.press (r : Result) : Key → Result
  | .move delta _ => r.move delta
  | .enter =>
    match r.activate with
    | .opened cursor => { r with cursor }
    | _ => r
  | .close => r.closeList.getD r

/-- A result after a sequence of keys. -/
def Result.typed (r : Result) (keys : List Key) : Result := keys.foldl Result.press r

/-- The invariant of a result. Nothing but a confirmed transaction has anything
    to move through. -/
structure Result.Kept (r : Result) : Prop where
  confirmed : ∀ tx, r.confirmed? = some tx → tx.Countable → r.cursor.Kept tx
  other : r.confirmed? = none → r.cursor = .unset

/-- How many of `n` entries a window shows. -/
def shown (n : Nat) : Nat := min n 10

/-- The first entry of the window on `n` entries, the one at `i` highlighted. -/
def windowTop (n : Nat) (i : Int) : Int :=
  if 0 ≤ i then min (max 0 (i - (shown n / 2 : Nat))) (n - shown n) else 0

/-! ### Positions -/

section Positions

variable {tx : ConfirmedTx} {x y : Double} {a b i last : Int}

theorem toInt?_nowhere : nowhere.toInt? = some (-1) := Double.toInt?_ofInt (by decide)

theorem within_nowhere (hlast : -1 ≤ last) : Within nowhere last :=
  ⟨-1, toInt?_nowhere, le_rfl, hlast⟩

/-- A step is cut off at the ends. -/
theorem toInt?_clamp (hx : x.toInt? = some a) (hy : y.toInt? = some b)
    (hlast : last.natAbs < twoPow 53) :
    (clamp (x + y) last).toInt? = some (min (max (a + b) (-1)) last) :=
  Double.toInt?_bounded_add hx hy toInt?_nowhere (Double.toInt?_ofInt hlast) (by decide) hlast

theorem exists_toInt?_of_isInteger (h : x.isInteger = true) : ∃ a, x.toInt? = some a := by
  rw [Double.toInt?, if_pos h]
  cases x with
  | finite s m q hq => exact ⟨_, rfl⟩
  | _ => exact absurd h Bool.false_ne_true

theorem within_clamp (hx : Within x last) (hy : y.isInteger = true) (hlow : -1 ≤ last)
    (hlast : last < twoPow 53) : Within (clamp (x + y) last) last := by
  rcases hx with ⟨a, ha, -, -⟩
  rcases exists_toInt?_of_isInteger hy with ⟨b, hb⟩
  refine ⟨_, toInt?_clamp ha hb ?_, ?_, min_le_right _ _⟩
  · have htwo : twoPow 53 = 2 ^ 53 := rfl
    omega
  · exact le_min (le_max_right _ _) hlow

theorem isOn_iff (hx : x.toInt? = some a) (hi : i.natAbs < twoPow 53) :
    isOn x i = true ↔ 0 ≤ i ∧ a = i := by
  rw [isOn, Bool.and_eq_true, decide_eq_true_iff, Double.equals_iff hx (Double.toInt?_ofInt hi)]

theorem entryAt?_map {α β : Type} (f : α → β) (entries : List α) (x : Double) :
    entryAt? (entries.map f) x = (entryAt? entries x).map f := by
  unfold entryAt?
  cases x.toInt? with
  | none => rfl
  | some i =>
      simp only [Option.bind_eq_bind, Option.bind_some]
      split
      · exact List.getElem?_map
      · rfl

end Positions

/-! ### Rows -/

section Rows

variable {tx : ConfirmedTx} {x : Double}

/-- Where the rows are, by which of the lists have entries. -/
theorem position_eq (row : Row) : tx.position row = match row with
    | .block => 0
    | .inputs => if 0 < tx.size .inputs then 1 else -1
    | .outputs => if 0 < tx.size .outputs then if 0 < tx.size .inputs then 2 else 1 else -1 := by
  cases row with
  | block => rfl
  | inputs | outputs =>
      simp only [ConfirmedTx.position, ConfirmedTx.inputsRow, ConfirmedTx.outputsRow,
        ConfirmedTx.size, List.isEmpty_iff, List.length_pos_iff, ne_eq, ite_not]

theorem lastRow_eq : tx.lastRow =
    (if 0 < tx.size .inputs then 1 else 0) + if 0 < tx.size .outputs then 1 else 0 := by
  simp only [ConfirmedTx.lastRow, ConfirmedTx.size, List.isEmpty_iff, List.length_pos_iff, ne_eq,
    ite_not]

theorem natAbs_position (row : Row) : (tx.position row).natAbs < twoPow 53 := by
  have htwo : twoPow 53 = 2 ^ 53 := rfl
  rw [position_eq]
  cases row with
  | block => exact twoPow_pos 53
  | inputs | outputs => grind

/-- A list has a row when it has entries. -/
theorem size_pos_iff (side : Side) : 0 < tx.size side ↔ 0 ≤ tx.position side.row := by
  cases side with
  | inputs | outputs =>
      rw [Side.row, position_eq]
      grind

theorem lastRow_bounds (tx : ConfirmedTx) : 0 ≤ tx.lastRow ∧ tx.lastRow ≤ 2 := by
  rw [lastRow_eq]
  grind

/-- The rows are numbered from the top, and one that is not there has no number. -/
theorem existsUnique_position {i : Int} (hi : 0 ≤ i) (hlast : i ≤ tx.lastRow) :
    ∃! row, tx.position row = i := by
  rw [lastRow_eq] at hlast
  have hunique : ∀ row row', tx.position row = i → tx.position row' = i → row' = row := by
    intro row row' h h'
    rw [position_eq] at h h'
    cases row <;> cases row' <;> grind
  have hexists : ∃ row, tx.position row = i := by
    rcases (by omega : i = 0 ∨ 0 < i) with rfl | hpos
    · exact ⟨.block, rfl⟩
    -- A list without entries has no row, and the next one moves up.
    · by_cases hin : i = 1 ∧ 0 < tx.size .inputs
      · refine ⟨.inputs, ?_⟩
        rw [position_eq]
        grind
      · refine ⟨.outputs, ?_⟩
        rw [position_eq]
        grind
  rcases hexists with ⟨row, hrow⟩
  exact ⟨row, hrow, fun row' h' => hunique row row' hrow h'⟩

theorem eq_of_isOn (hx : Within x tx.lastRow) {row row' : Row}
    (h : isOn x (tx.position row) = true) (h' : isOn x (tx.position row') = true) :
    row = row' := by
  rcases hx with ⟨i, hi, -, hlast⟩
  rcases (isOn_iff hi (natAbs_position row)).mp h with ⟨hpos, rfl⟩
  have heq := ((isOn_iff hi (natAbs_position row')).mp h').2
  exact (existsUnique_position hpos hlast).unique rfl heq.symm

/-- A cursor among the rows is on one of them. -/
theorem existsUnique_row (hx : Within x tx.lastRow) (hpos : 0 ≤ x) :
    ∃! row, isOn x (tx.position row) = true := by
  rcases hx with ⟨i, hi, hlow, hlast⟩
  have h0 : 0 ≤ i := (Double.le_iff Double.toInt?_zero hi).mp hpos
  rcases (existsUnique_position h0 hlast).exists with ⟨row, hrow⟩
  have hon : isOn x (tx.position row) = true :=
    (isOn_iff hi (natAbs_position row)).mpr ⟨by omega, hrow.symm⟩
  exact ⟨row, hon, fun row' h' => eq_of_isOn ⟨i, hi, hlow, hlast⟩ h' hon⟩

end Rows

/-! ### The invariant -/

section Invariant

variable {tx : ConfirmedTx} {cursor cursor' : Cursor} {overlay : Overlay}

theorem on_put (side side' : Side) :
    (cursor.put side overlay).on side' = if side' = side then overlay else cursor.on side' := by
  cases side <;> cases side' <;> rfl

theorem selected_put (side : Side) : (cursor.put side overlay).selected = cursor.selected := by
  cases side <;> rfl

theorem on_unset (side : Side) : Cursor.unset.on side = .closed := by
  cases side <;> rfl

theorem kept_unset : Cursor.unset.Kept tx where
  row := within_nowhere (by have := lastRow_bounds tx; omega)
  entry side := by
    rw [on_unset]
    exact within_nowhere (by omega)
  one side side' h := by
    rw [on_unset] at h
    exact absurd h Bool.false_ne_true
  nonempty side h := by
    rw [on_unset] at h
    exact absurd h Bool.false_ne_true

/-- With the invariant the list that has the cursor is the one that is open. -/
theorem openList_eq_some_iff (h : cursor.Kept tx) (side : Side) :
    tx.openList cursor = some side ↔ (cursor.on side).isOpen = true := by
  have hone := h.one .inputs .outputs
  have hin := h.nonempty .inputs
  have hout := h.nonempty .outputs
  simp only [Cursor.on, ConfirmedTx.size, List.length_pos_iff] at hone hin hout
  cases side with
  | inputs | outputs =>
      simp only [ConfirmedTx.openList, Cursor.on, Bool.and_eq_true, Bool.not_eq_true',
        List.isEmpty_eq_false_iff]
      grind

theorem openList_eq_none_iff (h : cursor.Kept tx) :
    tx.openList cursor = none ↔ ∀ side, (cursor.on side).isOpen = false := by
  rw [Option.eq_none_iff_forall_not_mem]
  refine forall_congr' fun side => ?_
  rw [Option.mem_def, openList_eq_some_iff h, Bool.not_eq_true]

/-- A cursor on a list may be put anywhere within it, and the list be open if
    the other one is not. -/
theorem Cursor.Kept.put (h : cursor.Kept tx) (side : Side)
    (hentry : Within overlay.selected (tx.size side - 1))
    (hopen : overlay.isOpen = true → 0 < tx.size side ∧
      ∀ other, other ≠ side → (cursor.on other).isOpen = false) :
    (cursor.put side overlay).Kept tx where
  row := by
    rw [selected_put]
    exact h.row
  entry side' := by
    rw [on_put]
    split
    · next heq =>
      rw [heq]
      exact hentry
    · exact h.entry side'
  one a b ha hb := by
    rw [on_put] at ha hb
    split at ha <;> split at hb
    · next hside hside' => rw [hside, hside']
    · next hb' => exact absurd ((hopen ha).2 b hb') (by rw [hb]; exact Bool.noConfusion)
    · next ha' hb' => exact absurd ((hopen hb).2 a ha') (by rw [ha]; exact Bool.noConfusion)
    · exact h.one a b ha hb
  nonempty side' h' := by
    rw [on_put] at h'
    split at h'
    · next heq =>
      rw [heq]
      exact (hopen h').1
    · exact h.nonempty side' h'

/-! ### The row under the cursor -/

theorem isOn_of_rowAt? {row : Row} (h : tx.rowAt? cursor = some row) :
    isOn cursor.selected (tx.position row) = true :=
  List.find?_some (p := fun row => isOn cursor.selected (tx.position row)) h

/-- The cursor is on one row at most. -/
theorem isOn_eq (h : cursor.Kept tx) (row : Row) :
    isOn cursor.selected (tx.position row) = decide (tx.rowAt? cursor = some row) := by
  rw [Bool.eq_iff_iff, decide_eq_true_iff]
  constructor
  · intro hon
    cases hrow : tx.rowAt? cursor with
    | none =>
        have hmem : row ∈ [Row.block, .inputs, .outputs] := by
          cases row <;> decide
        exact absurd hon (List.find?_eq_none.mp hrow row hmem)
    | some row' => rw [eq_of_isOn h.row (isOn_of_rowAt? hrow) hon]
  · exact isOn_of_rowAt?

/-- The cursor is on a row unless it is nowhere. -/
theorem rowAt?_eq_none_iff (h : cursor.Kept tx) :
    tx.rowAt? cursor = none ↔ cursor.selected < 0 := by
  rcases h.row with ⟨i, hi, hlow, hlast⟩
  rw [Double.lt_iff hi Double.toInt?_zero]
  constructor
  · intro hnone
    by_contra hpos
    rcases (existsUnique_row h.row ((Double.le_iff Double.toInt?_zero hi).mpr
      (not_lt.mp hpos))).exists with ⟨row, hon⟩
    rw [isOn_eq h row, hnone] at hon
    exact absurd hon (by simp only [reduceCtorEq, decide_false, Bool.false_eq_true,
      not_false_eq_true])
  · intro hneg
    cases hrow : tx.rowAt? cursor with
    | none => rfl
    | some row =>
        have hon := (isOn_iff hi (natAbs_position row)).mp (isOn_of_rowAt? hrow)
        omega

/-! ### Keys -/

/-- A move is one among the rows, or one on the list that has the cursor. -/
theorem move_eq (delta : Double) : tx.move cursor delta = match tx.openList cursor with
    | some side => cursor.put side ((cursor.on side).move delta (tx.size side))
    | none => { cursor with selected := clamp (cursor.selected + delta) tx.lastRow } := by
  unfold ConfirmedTx.move
  cases tx.openList cursor with
  | none => rfl
  | some side => cases side <;> rfl

theorem kept_move (h : cursor.Kept tx) (hcount : tx.Countable) {delta : Double}
    (hwhole : delta.isInteger = true) : (tx.move cursor delta).Kept tx := by
  rw [move_eq]
  cases hopen : tx.openList cursor with
  | none =>
      have hbounds := lastRow_bounds tx
      have htwo : twoPow 53 = 2 ^ 53 := rfl
      exact { h with row := within_clamp h.row hwhole (by omega) (by omega) }
  | some side =>
      have hside := (openList_eq_some_iff h side).mp hopen
      have hsize := hcount side
      refine h.put side ?_ fun _ => ⟨h.nonempty side hside, fun other hother => ?_⟩
      · exact within_clamp (h.entry side) hwhole (by omega) (by omega)
      · exact Bool.eq_false_iff.mpr fun hopen' => hother (h.one other side hopen' hside)

/-- A list opens under the cursor, with nothing highlighted in it, while none
    has the cursor. -/
theorem opened_cases (h : tx.activate cursor = .opened cursor') :
    ∃ side, tx.openList cursor = none ∧ isOn cursor.selected (tx.position side.row) = true ∧
      cursor' = cursor.put side .opened := by
  unfold ConfirmedTx.activate at h
  cases hopen : tx.openList cursor with
  | some side =>
      cases side with
      | inputs =>
          simp only [hopen] at h
          split at h <;> cases h
      | outputs =>
          simp only [hopen] at h
          cases h
  | none =>
      simp only [hopen] at h
      split at h
      · next hin =>
        exact ⟨.inputs, rfl, hin, (Activation.opened.inj h).symm⟩
      · split at h
        · next hout =>
          exact ⟨.outputs, rfl, hout, (Activation.opened.inj h).symm⟩
        · unfold followBlock at h
          split at h <;> cases h

theorem kept_opened (h : cursor.Kept tx) (hopened : tx.activate cursor = .opened cursor') :
    cursor'.Kept tx := by
  rcases opened_cases hopened with ⟨side, hnone, hrow, rfl⟩
  refine h.put side (within_nowhere (by omega)) fun _ => ⟨?_, fun other _ => ?_⟩
  · rw [size_pos_iff]
    rw [isOn, Bool.and_eq_true, decide_eq_true_iff] at hrow
    exact hrow.1
  · exact (openList_eq_none_iff h).mp hnone other

/-- What closes is open. -/
theorem closed_cases (h : cursor.close? = some cursor') :
    ∃ side, (cursor.on side).isOpen = true ∧ cursor' = cursor.put side (cursor.on side).close := by
  unfold Cursor.close? at h
  split at h
  · next hout => exact ⟨.outputs, hout, (Option.some.inj h).symm⟩
  · split at h
    · next hin => exact ⟨.inputs, hin, (Option.some.inj h).symm⟩
    · exact absurd h (by simp only [reduceCtorEq, not_false_eq_true])

theorem kept_close (h : cursor.Kept tx) (hclosed : cursor.close? = some cursor') :
    cursor'.Kept tx := by
  rcases closed_cases hclosed with ⟨side, -, rfl⟩
  exact h.put side (h.entry side) fun hopen => absurd hopen Bool.false_ne_true

theorem close?_eq_none_iff : cursor.close? = none ↔ ∀ side, (cursor.on side).isOpen = false := by
  constructor
  · intro h side
    unfold Cursor.close? at h
    cases side with
    | inputs | outputs =>
        simp only [Cursor.on]
        grind
  · intro h
    have hin := h .inputs
    have hout := h .outputs
    simp only [Cursor.on] at hin hout
    rw [Cursor.close?, hin, hout, if_neg Bool.false_ne_true, if_neg Bool.false_ne_true]

end Invariant

section Results

variable {r closed : Result} {tx : ConfirmedTx} {cursor : Cursor}

theorem kept_result_unset (query : Text) (outcome : Outcome) :
    (Result.mk query outcome .unset).Kept :=
  ⟨fun _ _ _ => kept_unset, fun _ => rfl⟩

theorem kept_result_move (h : r.Kept) {delta : Double} (hwhole : delta.isInteger = true) :
    (r.move delta).Kept := by
  unfold Result.move
  cases hr : r.confirmed? with
  | none => exact h
  | some tx =>
      refine ⟨fun tx' htx' hcount => ?_, fun hnone => ?_⟩
      -- The transaction is the one that there was.
      · obtain rfl : tx = tx' := Option.some.inj (hr.symm.trans htx')
        exact kept_move (h.confirmed tx hr hcount) hcount hwhole
      · exact absurd (hr.symm.trans hnone) (Option.some_ne_none tx)

theorem kept_result_opened (h : r.Kept) (hopened : r.activate = .opened cursor) :
    ({ r with cursor } : Result).Kept := by
  unfold Result.activate at hopened
  cases hr : r.confirmed? with
  | none =>
      rw [hr] at hopened
      cases hopened
  | some tx =>
      rw [hr] at hopened
      refine ⟨fun tx' htx' hcount => ?_, fun hnone => ?_⟩
      · obtain rfl : tx = tx' := Option.some.inj (hr.symm.trans htx')
        exact kept_opened (h.confirmed tx hr hcount) hopened
      · exact absurd (hr.symm.trans hnone) (Option.some_ne_none tx)

theorem kept_result_closed (h : r.Kept) (hclosed : r.closeList = some closed) : closed.Kept := by
  rw [Result.closeList, Option.map_eq_some_iff] at hclosed
  rcases hclosed with ⟨cursor, hcursor, rfl⟩
  refine ⟨fun tx htx hcount => kept_close (h.confirmed tx htx hcount) hcursor, fun hnone => ?_⟩
  -- With no transaction nothing was open that could close.
  rw [h.other hnone] at hcursor
  cases hcursor

/-- A key moves the cursor and nothing else. -/
theorem exists_press (r : Result) (key : Key) : ∃ cursor, r.press key = { r with cursor } := by
  cases key with
  | move delta whole =>
      rw [Result.press, Result.move]
      cases r.confirmed? with
      | none => exact ⟨r.cursor, rfl⟩
      | some tx => exact ⟨_, rfl⟩
  | enter =>
      rw [Result.press]
      cases r.activate with
      | opened cursor => exact ⟨cursor, rfl⟩
      | _ => exact ⟨r.cursor, rfl⟩
  | close =>
      rw [Result.press, Result.closeList]
      cases r.cursor.close? with
      | none => exact ⟨r.cursor, rfl⟩
      | some cursor => exact ⟨cursor, rfl⟩

theorem kept_press (h : r.Kept) (key : Key) : (r.press key).Kept := by
  cases key with
  | move delta whole => exact kept_result_move h whole
  | enter =>
      rw [Result.press]
      cases hr : r.activate with
      | opened cursor => exact kept_result_opened h hr
      | _ => exact h
  | close =>
      rw [Result.press]
      cases hr : r.closeList with
      | none => exact h
      | some closed => exact kept_result_closed h hr

/-- A sequence of keys keeps the invariant and leaves what was found alone. -/
theorem kept_typed (h : r.Kept) (keys : List Key) :
    (r.typed keys).Kept ∧ ∃ cursor, r.typed keys = { r with cursor } := by
  induction keys generalizing r with
  | nil => exact ⟨h, r.cursor, rfl⟩
  | cons key keys ih =>
      rcases exists_press r key with ⟨cursor, hpress⟩
      rcases ih (kept_press h key) with ⟨hkept, cursor', htyped⟩
      refine ⟨hkept, cursor', ?_⟩
      calc r.typed (key :: keys) = (r.press key).typed keys := rfl
        _ = { r.press key with cursor := cursor' } := htyped
        _ = { r with cursor := cursor' } := by rw [hpress]

end Results

/-! ### The window -/

section Windows

variable {n : Nat} {x : Double} {i : Int}

theorem shown_le (n : Nat) : shown n ≤ n ∧ shown n ≤ 10 :=
  ⟨Nat.min_le_left n 10, Nat.min_le_right n 10⟩

/-- Half of a window, without a fraction. -/
theorem toInt?_half {k : Nat} (hk : k ≤ 10) :
    (Double.floor (Double.ofNat k / 2)).toInt? = some ((k / 2 : Nat) : Int) := by
  have hall : ∀ k : Fin 11, (Double.floor (Double.ofNat k.val / 2)).toInt?
      = some ((k.val / 2 : Nat) : Int) := by
    decide +kernel
  exact hall ⟨k, by omega⟩

/-- A window is within the list, and the highlighted entry within the window. -/
theorem windowTop_bounds (hlow : -1 ≤ i) (hhigh : i ≤ (n : Int) - 1) :
    0 ≤ windowTop n i ∧ windowTop n i + shown n ≤ n ∧
      (0 ≤ i → windowTop n i ≤ i ∧ i < windowTop n i + shown n) := by
  have hshown : shown n = min n 10 := rfl
  unfold windowTop
  split <;> omega

/-- The window is computed with doubles as it would be with integers. -/
theorem toInt?_window (hn : n < twoPow 53) (hx : x.toInt? = some i) (hlow : -1 ≤ i)
    (hhigh : i ≤ (n : Int) - 1) :
    let w := Window.around (Double.ofNat n) x
    w.top.toInt? = some (windowTop n i) ∧ w.size = Double.ofNat (shown n) ∧
      (w.top + w.size).toInt? = some (windowTop n i + shown n) := by
  intro w
  have htwo : twoPow 53 = 2 ^ 53 := rfl
  have hbounds := windowTop_bounds hlow hhigh
  have hshown := shown_le n
  have hsize : w.size = Double.ofNat (shown n) := Double.min_ofNat (n := 10) hn (by decide)
  have hsize' : w.size.toInt? = some (shown n : Int) := by
    rw [hsize]
    exact Double.toInt?_ofNat (by omega)
  have htop : w.top.toInt? = some (windowTop n i) := by
    have hhalf := toInt?_half hshown.2
    rw [← hsize] at hhalf
    have hmiddle := Double.toInt?_max Double.toInt?_zero
      (Double.toInt?_sub hx hhalf (by omega))
    have hlast := Double.toInt?_sub (Double.toInt?_ofNat hn) hsize' (by omega)
    change (if 0 ≤ x then Double.min (Double.max 0 (x - Double.floor (w.size / 2)))
      (Double.ofNat n - w.size) else 0).toInt? = _
    rw [windowTop]
    by_cases h0 : 0 ≤ i
    · rw [if_pos h0, if_pos ((Double.le_iff Double.toInt?_zero hx).mpr h0)]
      exact Double.toInt?_min hmiddle hlast
    · rw [if_neg h0, if_neg (fun hc => h0 ((Double.le_iff Double.toInt?_zero hx).mp hc))]
      exact Double.toInt?_zero
  exact ⟨htop, hsize, Double.toInt?_add htop hsize' (by omega)⟩

/-- The part of a list that the window shows. -/
theorem between_window {α : Type} (l : List α) (hn : l.length < twoPow 53) (hx : x.toInt? = some i)
    (hlow : -1 ≤ i) (hhigh : i ≤ (l.length : Int) - 1) :
    let w := Window.around (Double.ofNat l.length) x
    Span.between l w.top (w.top + w.size)
      = (l.drop (windowTop l.length i).toNat).take (shown l.length) := by
  intro w
  have hbounds := windowTop_bounds hlow hhigh
  rcases toInt?_window hn hx hlow hhigh with ⟨htop, -, hstop⟩
  rw [Span.between_eq l htop hstop hbounds.1 (by omega), List.drop_take]
  congr 1
  omega

end Windows

theorem result_openList {r : Result} {tx : ConfirmedTx} (htx : r.confirmed? = some tx) :
    r.openList = tx.openList r.cursor := by
  rw [Result.openList, htx]
  rfl

theorem window_eq {r : Result} {tx : ConfirmedTx} {side : Side} (htx : r.confirmed? = some tx)
    (hside : tx.openList r.cursor = some side) :
    r.window = some (.around (Double.ofNat (tx.size side)) (r.cursor.on side).selected) := by
  rw [Result.window, htx]
  simp only [Option.bind_eq_bind, Option.bind_some, hside]
  cases side <;> rfl

/-- Any keys on any confirmed transaction, from the time when it was found. The
    cursors stay between nowhere and the last position. Not more than one list
    is open, and an open list has entries, so a list closes exactly when one
    has the cursor. A cursor among the rows is on one of them, and an entry
    that is highlighted in an open list is shown in its window. -/
theorem navigation_of_keys (tx : ConfirmedTx) (hcount : tx.Countable) (query : Text)
    (keys : List Key) :
    let r := (Result.mk query (.confirmed tx) .unset).typed keys
    (r.query = query ∧ r.outcome = .confirmed tx) ∧
      Within r.cursor.selected tx.lastRow ∧
      (∀ side, Within (r.cursor.on side).selected (tx.size side - 1)) ∧
      (∀ side side', (r.cursor.on side).isOpen = true → (r.cursor.on side').isOpen = true →
        side = side') ∧
      (∀ side, (r.cursor.on side).isOpen = true → 0 < tx.size side) ∧
      (r.closeList.isSome = true ↔ r.openList.isSome = true) ∧
      (0 ≤ r.cursor.selected → ∃! row, isOn r.cursor.selected (tx.position row) = true) ∧
      ∀ side, r.openList = some side → ∃ w, r.window = some w ∧
        (0 ≤ (r.cursor.on side).selected →
          (w.top ≤ (r.cursor.on side).selected ∧ (r.cursor.on side).selected < w.top + w.size) ∧
          ∃ i : Nat, (r.cursor.on side).selected.toInt? = some (i : Int) ∧
            i ∈ Span.between (List.range (tx.size side)) w.top (w.top + w.size)) := by
  intro r
  rcases kept_typed (kept_result_unset query (.confirmed tx)) keys with ⟨hkept, cursor, hr⟩
  have htx : r.confirmed? = some tx := by
    rw [show r = { query, outcome := .confirmed tx, cursor } from hr]
    rfl
  have hcursor := hkept.confirmed tx htx hcount
  have hlist := result_openList htx
  refine ⟨?_, hcursor.row, hcursor.entry, hcursor.one, hcursor.nonempty, ?_,
    existsUnique_row hcursor.row, ?_⟩
  · rw [show r = { query, outcome := .confirmed tx, cursor } from hr]
    exact ⟨rfl, rfl⟩
  · -- Nothing closes exactly when nothing is open, and then nothing has the cursor.
    rw [hlist, Result.closeList, Option.isSome_map, ← Option.ne_none_iff_isSome,
      ← Option.ne_none_iff_isSome, ne_eq, ne_eq, close?_eq_none_iff, openList_eq_none_iff hcursor]
  · intro side hside
    rw [hlist] at hside
    refine ⟨_, window_eq htx hside, fun hpos => ?_⟩
    rcases hcursor.entry side with ⟨i, hi, hlow, hhigh⟩
    have h0 : 0 ≤ i := (Double.le_iff Double.toInt?_zero hi).mp hpos
    rcases toInt?_window (hcount side) hi hlow hhigh with ⟨htop, -, hstop⟩
    have hbounds := windowTop_bounds hlow hhigh
    have hwithin := hbounds.2.2 h0
    refine ⟨⟨(Double.le_iff htop hi).mpr hwithin.1, (Double.lt_iff hi hstop).mpr hwithin.2⟩,
      i.toNat, by rw [hi, Int.toNat_of_nonneg h0], ?_⟩
    rw [Span.between_eq _ htop hstop hbounds.1 (by omega), List.mem_drop_iff_getElem]
    refine ⟨i.toNat - (windowTop (tx.size side) i).toNat, ?_, ?_⟩
    · rw [List.length_take, List.length_range]
      omega
    · rw [List.getElem_take, List.getElem_range]
      omega

/-- Two steps down lead to the inputs, and from the open list of them a step
    that is too long leads to the last one. -/
theorem navigation_of_enter :
    let tx : ConfirmedTx :=
      ⟨1, 4, "", none, 1, 0, .coinbase :: List.replicate 11 (.spend "5a" 0), [], 0⟩
    let keys : List Key := [.move 2 rfl, .enter, .move 100 rfl]
    let r := (Result.mk "7" (.confirmed tx) .unset).typed keys
    tx.Countable ∧ r.openList = some .inputs ∧ (r.cursor.on .inputs).selected = 11 ∧
      ∃ w, r.window = some w ∧ w.top ≤ 11 ∧ (11 : Double) < w.top + w.size := by
  intro tx keys r
  have hcount : tx.Countable := by
    intro side
    cases side <;> decide
  have hlist : r.openList = some .inputs := by decide +kernel
  have hselected : (r.cursor.on .inputs).selected = 11 := by decide +kernel
  have hpos : 0 ≤ (r.cursor.on .inputs).selected := by
    rw [hselected]
    decide +kernel
  rcases navigation_of_keys tx hcount "7" keys with ⟨-, -, -, -, -, -, -, hwindow⟩
  rcases hwindow .inputs hlist with ⟨w, hw, hshown⟩
  have hwithin := (hshown hpos).1
  change w.top ≤ (r.cursor.on .inputs).selected ∧ (r.cursor.on .inputs).selected < w.top + w.size
    at hwithin
  rw [hselected] at hwithin
  exact ⟨hcount, hlist, hselected, w, hw, hwithin⟩


end Lookup

end NodeWatch
