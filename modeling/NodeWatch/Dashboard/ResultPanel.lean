import NodeWatch.Dashboard.Element
import NodeWatch.Decimal.Fixed
import NodeWatch.Lookup.Navigation
import NodeWatch.Report.Amount
import NodeWatch.Report.Calendar
import NodeWatch.Report.Elapsed
import NodeWatch.Report.Grouped
import NodeWatch.Report.Shortened
import NodeWatch.Span

/-!
# The panel of a result

The result of a lookup in a frame of its own: the figures of a block or of a
transaction, an error, or a note that the search goes on. Of a confirmed
transaction the row under the cursor is drawn inverse. An open list takes the
place of the rows, and shows the window around its highlighted entry.

## Main definitions

* `Dashboard.inputLabel`, `Dashboard.outputLabel`: The entries of the lists.
* `Dashboard.listPanel`: An open list.
* `Dashboard.resultPanel`: The panel.
-/

namespace NodeWatch

namespace Dashboard

open Lookup (Block ConfirmedTx Cursor Input Output PendingTx Result Window)

/-- The width of the panel. -/
def panelWidth : Nat := 70

/-- The width of the panel of a list. -/
def listWidth : Nat := 84

/-- A frame in the middle of the page, with a title and the query. -/
def panel (title query : Text) (width : Nat) (rows : List Element) : Element :=
  .box { grow := some 1, justify := some .center, centered := true }
    [.box { column := true, border := true, width := some (Double.ofNat width) }
      (.box { justify := some .between }
        [bold (some .brightYellow) title,
          colored .gray (ascii ' ' :: Report.hash query ++ [ascii ' '])] :: rows)]

/-- A row that the cursor can be on. -/
def linkRow (label value : Text) (selected : Bool) : Element :=
  row [.text { color := some .gray, inverse := some selected } label,
    .text { color := some .cyan, underline := some true, inverse := some selected } value]

/-- A hash beside a label. -/
def longHash (hash : Text) : Text := Report.abbreviate hash 4 44

/-- What stands for a figure that is not known. -/
def unknown : Text := "—"

/-- A figure that is only known at a time that is. -/
def sinceKnown (time : Double) (figure : Text) : Text := if 0 < time then figure else unknown

/-- The rows of a block. -/
def blockRows (b : Block) (now : Double) : List Element :=
  [bold (some .cyan) "  ⛏ BLOCK",
    labeled "  Height       : " (Report.height b.height),
    labeled "  Hash         : " (longHash b.hash),
    labeled "  Time         : " (sinceKnown b.time (Report.dateTime b.time)),
    labeled "  Age          : " (sinceKnown b.time (Report.age (now - b.time))),
    labeled "  Transactions : " (Report.count b.transactions),
    labeled "  Size         : " (Report.count b.size ++ (" B" : Text)),
    labeled "  Weight       : " (Report.count b.weight ++ (" WU" : Text)),
    labeled "  Difficulty   : " (Report.difficulty b.difficulty),
    labeled "  Miner        : " b.pool,
    labeled "  Confirmations: " (Report.count b.confirmations)]

/-- The rows of a waiting transaction. -/
def pendingRows (tx : PendingTx) (now : Double) : List Element :=
  [bold (some .yellow) "  ● MEMPOOL",
    labeledIn (some .green) "  Fee         : " (Report.coins tx.fee),
    labeled "  Fee rate    : " (tx.feeRate.fixed 1 ++ (" sat/vB" : Text)),
    labeled "  vsize       : " (Report.count tx.virtualSize ++ (" vB" : Text)),
    labeled "  Weight      : " (Report.count tx.weight ++ (" WU" : Text)),
    labeled "  Ancestors   : " (Report.count tx.ancestors),
    labeled "  Descendants : " (Report.count tx.descendants),
    labeled "  In mempool  : " (Report.age (now - tx.entryTime))]

/-- The row of a list, if the list has entries. -/
def listRow {α : Type} (label : Text) (entries : List α) (selected : Bool) : List Element :=
  if entries.isEmpty then [] else [linkRow label (Text.ofNat entries.length) selected]

/-- The rows of a confirmed transaction. -/
def confirmedRows (tx : ConfirmedTx) (cursor : Cursor) (now : Double) : List Element :=
  [bold (some .green) "  ✔ CONFIRMED",
    labeled "  Confirmations: " (Report.count tx.confirmations),
    linkRow "  Block #      : "
      (match tx.blockHeight with
        | none => unknown
        | some height => Report.height height)
      (Lookup.isOn cursor.selected Lookup.blockRow),
    labeled "  Block hash   : " (longHash tx.blockHash),
    labeled "  Block age    : " (sinceKnown tx.blockTime (Report.age (now - tx.blockTime))),
    labeled "  vsize        : " (Report.count tx.virtualSize ++ (" vB" : Text)),
    labeled "  Weight       : " (Report.count tx.weight ++ (" WU" : Text))] ++
  listRow "  Inputs       : " tx.inputs (Lookup.isOn cursor.selected tx.inputsRow) ++
  listRow "  Outputs      : " tx.outputs (Lookup.isOn cursor.selected tx.outputsRow) ++
  [labeledIn (some .green) "  Total out    : " (Report.coins tx.totalOutput)]

/-- The entry of an input. -/
def inputLabel : Input → Text
  | .coinbase => "coinbase"
  | .spend txid index => txid ++ ascii ':' :: index.display

/-- The entry of an output. -/
def outputLabel (o : Output) : Text :=
  let value := Report.coins o.value
  match o.address with
  | some address => value ++ ("  " : Text) ++ Report.fit address 60
  | none => if o.kind = [] then value else value ++ ("  [" : Text) ++ o.kind ++ ("]" : Text)

/-- An entry of a list: its text, and whether there is nothing behind it. -/
structure Entry where
  label : Text
  dimmed : Bool

/-- The row of an entry at a position. -/
def entryRow (x : Double) (entry : Entry) (selected : Double) : Element :=
  let inverse := some (x.equals selected)
  row [.text { color := some .gray, inverse } (("  [" : Text) ++ x.display ++ ("] " : Text)),
    .text { color := if entry.dimmed && x.isInteger then some .gray else none, inverse } entry.label]

/-- The rows of a window on several entries, each at its distance from the
    first; in a window that begins between two entries no row is dimmed. -/
def entryRows (window : Window) (entries : List Entry) (selected : Double) : List Element :=
  (Span.between entries window.top (window.top + window.size)).zipIdx.map fun (entry, k) =>
    entryRow (window.top + Double.ofNat k) entry selected

/-- The place of the window in a list that it does not show as a whole. -/
def windowNote (window : Window) (n : Double) : List Element :=
  if window.size < n then
    [.box { justify := some .stop } [colored .gray
      ((window.top + 1).display ++ ("–" : Text) ++ (window.top + window.size).display ++
        (" / " : Text) ++ n.display)]]
  else []

/-- An open list. -/
def listPanel (title query : Text) (entries : List Entry) (selected : Double) : Element :=
  let n := Double.ofNat entries.length
  let window := Window.around n selected
  panel (ascii ' ' :: title ++ (" (" : Text) ++ n.display ++ (") " : Text)) query listWidth
    (entryRows window entries selected ++ windowNote window n)

/-- The entries of the inputs; nothing is behind new coins. -/
def inputEntries (tx : ConfirmedTx) : List Entry :=
  tx.inputs.map fun input => ⟨inputLabel input, input = .coinbase⟩

/-- The entries of the outputs. -/
def outputEntries (tx : ConfirmedTx) : List Entry :=
  tx.outputs.map fun output => ⟨outputLabel output, false⟩

/-- The title of a panel. -/
def panelTitle : Lookup.Outcome → Text
  | .block _ => " Block Search "
  | _ => " Transaction Search "

/-- The rows of a panel. -/
def panelRows (r : Result) (now : Double) : List Element :=
  match r.outcome with
  | .searching => [colored .yellow "  Searching…"]
  | .block b => blockRows b now
  | .pending tx => pendingRows tx now
  | .confirmed tx => confirmedRows tx r.cursor now
  | .failed message => [colored .red (("  " : Text) ++ message)]

/-- The open list of a transaction, if there is one. -/
def openListPanel (r : Result) : Option Element := do
  let tx ← r.confirmed?
  match ← tx.openList r.cursor with
  | .outputs => return listPanel "Outputs" r.query (outputEntries tx) r.cursor.outputs.selected
  | .inputs => return listPanel "Inputs" r.query (inputEntries tx) r.cursor.inputs.selected

/-- The panel of a result, at a time in seconds. -/
def resultPanel (r : Result) (now : Double) : Element :=
  (openListPanel r).getD (panel (panelTitle r.outcome) r.query panelWidth (panelRows r now))

end Dashboard

end NodeWatch
