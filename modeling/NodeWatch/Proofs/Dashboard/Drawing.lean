import NodeWatch.Dashboard.ResultPanel
import NodeWatch.Proofs.Decimal.Shortest
import NodeWatch.Proofs.Lookup.Navigation

/-!
# What Is Drawn Inverse

A drawing is a tree, and what is highlighted in it are the texts that are drawn
inverse, wherever they are. In the panel of a result these are the two texts of
a row, or the two texts of an entry of an open list. There is never more than
one of them: the rows compare the cursor each with a place of their own, and
the entries are counted from the top of the window on, which is where the entry
of the cursor has to be found again.

## Main definitions

* `Element.inverse`: The texts that are drawn inverse.
* `rowTexts`, `entryTexts`: The texts of a row and of an entry.

## Theorems

* `inverseOf_confirmedRows`: Of the rows the one under the cursor is inverse.
* `inverse_listPanel`: Of an open list the highlighted entry is inverse.
* `inverse_of_rows`, `inverse_of_list`: The panel of a result.
-/

namespace NodeWatch

namespace Dashboard

open Lookup (ConfirmedTx Cursor Result Row Side Window Within)

mutual

/-- The texts that are drawn inverse, in the order in which they are drawn. -/
def Element.inverse : Element → List Text
  | .box _ children => inverseOf children
  | .text style content => if style.inverse = some true then [content] else []

/-- The same for several elements. -/
def inverseOf : List Element → List Text
  | [] => []
  | e :: rest => e.inverse ++ inverseOf rest

end

/-- The texts of a row that the cursor can be on. -/
def rowTexts (tx : ConfirmedTx) : Row → List Text
  | .block =>
    ["  Block #      : ",
      match tx.blockHeight with
        | none => unknown
        | some height => Report.height height]
  | .inputs => ["  Inputs       : ", Text.ofNat tx.inputs.length]
  | .outputs => ["  Outputs      : ", Text.ofNat tx.outputs.length]

/-- The texts of an entry, given where it is. -/
def entryTexts (x : Double) (label : Text) : List Text :=
  [("  [" : Text) ++ x.display ++ ("] " : Text), label]

/-- The label of every entry of a list. -/
def labels (tx : ConfirmedTx) : Side → List Text
  | .inputs => tx.inputs.map inputLabel
  | .outputs => tx.outputs.map outputLabel

/-- The entries of a list. -/
def entriesOf (tx : ConfirmedTx) : Side → List Entry
  | .inputs => inputEntries tx
  | .outputs => outputEntries tx

/-! ### Drawings -/

section Drawings

theorem inverseOf_append (first rest : List Element) :
    inverseOf (first ++ rest) = inverseOf first ++ inverseOf rest := by
  induction first with
  | nil => rfl
  | cons e first ih => rw [List.cons_append, inverseOf, inverseOf, ih, List.append_assoc]

theorem inverseOf_map {α : Type} (f : α → Element) (l : List α) :
    inverseOf (l.map f) = l.flatMap fun a => (f a).inverse := by
  induction l with
  | nil => rfl
  | cons a l ih => rw [List.map_cons, inverseOf, List.flatMap_cons, ih]

/-- Of a panel only its rows can be inverse. -/
theorem inverse_panel (title query : Text) (width : Nat) (rows : List Element) :
    (panel title query width rows).inverse = inverseOf rows := by
  simp only [panel, Element.inverse, inverseOf, bold, colored, reduceCtorEq, if_false,
    List.nil_append, List.append_nil]

theorem inverse_entryRow (x : Double) (entry : Entry) (selected : Double) :
    (entryRow x entry selected).inverse
      = if x.equals selected then entryTexts x entry.label else [] := by
  unfold entryRow
  cases x.equals selected <;> rfl

theorem inverseOf_windowNote (window : Window) (n : Double) :
    inverseOf (windowNote window n) = [] := by
  unfold windowNote
  split <;> rfl

/-- Nothing is inverse in a result that there is nothing to move through. -/
theorem inverse_of_not_confirmed {r : Result} (h : r.confirmed? = none) (now : Double) :
    (resultPanel r now).inverse = [] := by
  have hlist : openListPanel r = none := by
    rw [openListPanel, h]
    rfl
  rw [resultPanel, hlist, Option.getD_none, inverse_panel, panelRows]
  unfold Result.confirmed? at h
  cases houtcome : r.outcome with
  | confirmed tx =>
      rw [houtcome] at h
      exact absurd h (Option.some_ne_none tx)
  | _ => rfl

theorem inverseOf_listRow {α : Type} (label : Text) (entries : List α) (selected : Bool) :
    inverseOf (listRow label entries selected)
      = if !entries.isEmpty && selected then [label, Text.ofNat entries.length] else [] := by
  unfold listRow
  cases entries.isEmpty with
  | true => rfl
  | false => cases selected <;> rfl

/-- Of the rows of a transaction the one under the cursor is inverse. -/
theorem inverseOf_confirmedRows {tx : ConfirmedTx} {cursor : Cursor} (h : cursor.Kept tx)
    (now : Double) : inverseOf (confirmedRows tx cursor now)
      = (tx.rowAt? cursor).elim [] (rowTexts tx) := by
  have hblock := Lookup.isOn_eq h .block
  have hinputs := Lookup.isOn_eq h .inputs
  have houtputs := Lookup.isOn_eq h .outputs
  -- A row that is not there is not under the cursor.
  have hthere : ∀ side : Side, tx.rowAt? cursor = some side.row → 0 < tx.size side := by
    intro side hrow
    have hon := Lookup.isOn_of_rowAt? hrow
    rw [Lookup.isOn, Bool.and_eq_true, decide_eq_true_iff] at hon
    exact (Lookup.size_pos_iff side).mpr hon.1
  have hin := hthere .inputs
  have hout := hthere .outputs
  simp only [Lookup.ConfirmedTx.position] at hblock hinputs houtputs
  simp only [Lookup.Side.row, Lookup.ConfirmedTx.size, List.length_pos_iff] at hin hout
  rw [confirmedRows, inverseOf_append, inverseOf_append, inverseOf_append, inverseOf_listRow,
    inverseOf_listRow, hblock, hinputs, houtputs]
  generalize tx.rowAt? cursor = row at hin hout ⊢
  cases row with
  | none =>
      simp only [reduceCtorEq, decide_false, Bool.and_false, Bool.false_eq_true, if_false]
      rfl
  | some row =>
      cases row with
      | block =>
          simp only [Option.some.injEq, reduceCtorEq, decide_false, Bool.and_false,
            Bool.false_eq_true, if_false]
          rfl
      | inputs =>
          simp only [Option.some.injEq, reduceCtorEq, decide_false, Bool.and_false,
            List.isEmpty_eq_false_iff.mpr (hin rfl), Bool.false_eq_true, if_false]
          rfl
      | outputs =>
          simp only [Option.some.injEq, reduceCtorEq, decide_false, Bool.and_false,
            List.isEmpty_eq_false_iff.mpr (hout rfl), Bool.false_eq_true, if_false]
          rfl

/-- Of an entry at every place in a list the one at one place is kept. -/
theorem flatMap_zipIdx {α β : Type} (f : α → List β) (l : List α) (j start : Nat) :
    (l.zipIdx start).flatMap (fun p => if p.2 = j then f p.1 else [])
      = if start ≤ j then (l[j - start]?).elim [] f else [] := by
  induction l generalizing start with
  | nil =>
      rw [List.zipIdx_nil, List.flatMap_nil, List.getElem?_nil]
      split <;> rfl
  | cons a l ih =>
      rw [List.zipIdx_cons, List.flatMap_cons, ih]
      rcases Nat.lt_trichotomy start j with hlt | rfl | hgt
      · rw [if_neg hlt.ne, List.nil_append, if_pos (by omega), if_pos hlt.le,
          show j - start = (j - (start + 1)) + 1 by omega, List.getElem?_cons_succ]
      · rw [if_pos rfl, if_neg (by omega), if_pos le_rfl, Nat.sub_self, List.getElem?_cons_zero,
          List.append_nil]
        rfl
      · rw [if_neg hgt.ne', if_neg (by omega), if_neg (by omega)]
        rfl

/-- A row of a window is inverse if it is that of the highlighted entry. -/
theorem inverse_shownRow {n k : Nat} {selected : Double} {i : Int} (entry : Entry)
    (hn : n < twoPow 53) (hi : selected.toInt? = some i) (hlow : -1 ≤ i) (hhigh : i ≤ (n : Int) - 1)
    (hk : k < Lookup.shown n) :
    (entryRow ((Window.around (Double.ofNat n) selected).top + Double.ofNat k) entry
        selected).inverse
      = if Lookup.windowTop n i + k = i then entryTexts selected entry.label else [] := by
  have hbounds := Lookup.windowTop_bounds hlow hhigh
  have hplace := Double.toInt?_add (Lookup.toInt?_window hn hi hlow hhigh).1
    (Double.toInt?_ofNat (k := k) (by omega)) (by omega)
  rw [inverse_entryRow]
  by_cases heq : Lookup.windowTop n i + k = i
  · rw [if_pos heq, if_pos ((Double.equals_iff hplace hi).mpr heq), entryTexts, entryTexts,
      Double.display_eq hplace (by rw [heq]; exact hi)]
  · rw [if_neg heq, if_neg fun hc => heq ((Double.equals_iff hplace hi).mp hc)]

/-- Of an open list the highlighted entry is inverse. -/
theorem inverse_listPanel (title query : Text) (entries : List Entry) {selected : Double}
    (hn : entries.length < twoPow 53) (hselected : Within selected (entries.length - 1)) :
    (listPanel title query entries selected).inverse
      = (Lookup.entryAt? entries selected).elim []
        fun entry => entryTexts selected entry.label := by
  rcases hselected with ⟨i, hi, hlow, hhigh⟩
  have hbounds := Lookup.windowTop_bounds hlow hhigh
  have hpart := Lookup.between_window entries hn hi hlow hhigh
  unfold listPanel
  simp only
  rw [inverse_panel, inverseOf_append, inverseOf_windowNote, List.append_nil, entryRows,
    inverseOf_map, hpart]
  generalize hT : Lookup.windowTop entries.length i = T at hbounds ⊢
  generalize hS : Lookup.shown entries.length = S at hbounds ⊢
  have hrow : ∀ p ∈ ((entries.drop T.toNat).take S).zipIdx,
      (entryRow ((Window.around (Double.ofNat entries.length) selected).top + Double.ofNat p.2)
        p.1 selected).inverse
      = if T + p.2 = i then entryTexts selected p.1.label else [] := by
    intro p hp
    have hlt := List.snd_lt_add_of_mem_zipIdx hp
    have hlength := List.length_take_le S (entries.drop T.toNat)
    rw [← hT]
    exact inverse_shownRow p.1 hn hi hlow hhigh (by omega)
  rw [List.flatMap_congr hrow]
  by_cases h0 : 0 ≤ i
  -- The highlighted entry is at its distance from the first one that is shown.
  · have hplace : ∀ p : Entry × Nat, (if T + p.2 = i then entryTexts selected p.1.label else [])
        = if p.2 = (i - T).toNat then entryTexts selected p.1.label else [] := by
      intro p
      exact if_congr (by omega) rfl rfl
    rw [funext hplace, flatMap_zipIdx fun entry : Entry => entryTexts selected entry.label,
      if_pos (Nat.zero_le _), Nat.sub_zero, List.getElem?_take, if_pos (by omega),
      List.getElem?_drop, show T.toNat + (i - T).toNat = i.toNat by omega, Lookup.entryAt?, hi]
    simp only [Option.bind_eq_bind, Option.bind_some, if_pos h0]
  · rw [List.flatMap_eq_nil_iff.mpr fun p _ => if_neg (by omega), Lookup.entryAt?, hi]
    simp only [Option.bind_eq_bind, Option.bind_some, if_neg h0]
    rfl

section Panels

variable {r : Result} {tx : ConfirmedTx} {side : Side}

theorem inverse_of_rows (htx : r.confirmed? = some tx) (hlist : tx.openList r.cursor = none)
    (h : r.cursor.Kept tx) (now : Double) :
    (resultPanel r now).inverse = (tx.rowAt? r.cursor).elim [] (rowTexts tx) := by
  have hpanel : openListPanel r = none := by
    rw [openListPanel, htx]
    simp only [Option.bind_eq_bind, Option.bind_some, hlist, Option.bind_none]
  have houtcome : r.outcome = .confirmed tx := by
    unfold Result.confirmed? at htx
    split at htx
    · next houtcome => rw [houtcome, Option.some.inj htx]
    · exact absurd htx (by simp only [reduceCtorEq, not_false_eq_true])
  rw [resultPanel, hpanel, Option.getD_none, inverse_panel, panelRows, houtcome]
  exact inverseOf_confirmedRows h now

theorem length_entriesOf (tx : ConfirmedTx) (side : Side) :
    (entriesOf tx side).length = tx.size side := by
  cases side with
  | inputs | outputs => exact List.length_map ..

theorem map_label_entriesOf (side : Side) :
    (entriesOf tx side).map Entry.label = labels tx side := by
  cases side with
  | inputs | outputs => exact List.map_map ..

theorem exists_listPanel (htx : r.confirmed? = some tx) (hlist : tx.openList r.cursor = some side)
    (now : Double) : ∃ title, resultPanel r now
      = listPanel title r.query (entriesOf tx side) (r.cursor.on side).selected := by
  rw [resultPanel, openListPanel, htx]
  simp only [Option.bind_eq_bind, Option.bind_some, hlist]
  cases side with
  | inputs | outputs => exact ⟨_, rfl⟩

theorem inverse_of_list (htx : r.confirmed? = some tx) (hcount : tx.Countable)
    (hlist : tx.openList r.cursor = some side) (h : r.cursor.Kept tx) (now : Double) :
    (resultPanel r now).inverse
      = (Lookup.entryAt? (labels tx side) (r.cursor.on side).selected).elim []
        (entryTexts (r.cursor.on side).selected) := by
  rcases exists_listPanel htx hlist now with ⟨title, hpanel⟩
  have hlength := length_entriesOf tx side
  rw [hpanel, inverse_listPanel title r.query _ (by rw [hlength]; exact hcount side)
    (by rw [hlength]; exact h.entry side), ← map_label_entriesOf, Lookup.entryAt?_map,
    Option.elim_map]
  rfl

end Panels

end Drawings

end Dashboard

end NodeWatch
