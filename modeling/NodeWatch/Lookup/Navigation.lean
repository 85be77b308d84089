import NodeWatch.Double.Arithmetic
import NodeWatch.Lookup.Result

/-!
# Moving through a result

The rows of a confirmed transaction are its block, its inputs and its
outputs, the last two only when there are any; an empty list has no row and
the one after it moves up. The cursor stays between the rows and nothing at
all. A list that is open takes the cursor over, as long as it has entries.
A step of the cursor may have any length, so it can come to stand between two
rows, and then it is on neither of them.

Enter opens the list under the cursor, follows the highlighted input to the
transaction that funds it, or leads to the block. What it leads to is for
others to look up.

## Main definitions

* `Lookup.ConfirmedTx.inputsRow`, `Lookup.ConfirmedTx.outputsRow`,
  `Lookup.ConfirmedTx.lastRow`: The rows.
* `Lookup.Result.openList`: The list that has the cursor.
* `Lookup.Result.move`: Arrow keys.
* `Lookup.Result.activate`: The enter key.
* `Lookup.Result.closeList`: Closing the open list.
* `Lookup.Window`: The part of a list that is shown.
-/

namespace NodeWatch

namespace Lookup

/-- The row of the block. -/
def blockRow : Int := 0

/-- The row of the inputs; negative when there are none. -/
def ConfirmedTx.inputsRow (tx : ConfirmedTx) : Int := if tx.inputs.isEmpty then -1 else 1

/-- The row of the outputs; negative when there are none. -/
def ConfirmedTx.outputsRow (tx : ConfirmedTx) : Int :=
  if tx.outputs.isEmpty then -1 else if tx.inputs.isEmpty then 1 else 2

/-- The last row. -/
def ConfirmedTx.lastRow (tx : ConfirmedTx) : Int :=
  (if tx.inputs.isEmpty then 0 else 1) + if tx.outputs.isEmpty then 0 else 1

/-- The two lists of a transaction. -/
inductive Side where
  | inputs | outputs
deriving DecidableEq, Repr

/-- A position kept between nowhere and a last one. -/
def clamp (x : Double) (last : Int) : Double := Double.min (Double.max x nowhere) (Double.ofInt last)

/-- Whether a position is that of a row or an entry. -/
def isOn (x : Double) (i : Int) : Bool := 0 ≤ i && x.equals (Double.ofInt i)

/-- The cursor of a list of `n` entries after a move. -/
def Overlay.move (overlay : Overlay) (delta : Double) (n : Nat) : Overlay :=
  { overlay with selected := clamp (overlay.selected + delta) (n - 1) }

/-- The list of a transaction that has the cursor, outputs first. -/
def ConfirmedTx.openList (tx : ConfirmedTx) (cursor : Cursor) : Option Side :=
  if cursor.outputs.isOpen && !tx.outputs.isEmpty then some .outputs
  else if cursor.inputs.isOpen && !tx.inputs.isEmpty then some .inputs
  else none

/-- The list that has the cursor. -/
def Result.openList (r : Result) : Option Side := do (← r.confirmed?).openList r.cursor

/-- The cursor after a move. -/
def ConfirmedTx.move (tx : ConfirmedTx) (cursor : Cursor) (delta : Double) : Cursor :=
  match tx.openList cursor with
  | some .outputs => { cursor with outputs := cursor.outputs.move delta tx.outputs.length }
  | some .inputs => { cursor with inputs := cursor.inputs.move delta tx.inputs.length }
  | none => { cursor with selected := clamp (cursor.selected + delta) tx.lastRow }

/-- A result after a move of the cursor. -/
def Result.move (r : Result) (delta : Double) : Result :=
  match r.confirmed? with
  | some tx => { r with cursor := tx.move r.cursor delta }
  | none => r

/-- What the enter key does. -/
inductive Activation where
  /-- Nothing. -/
  | stay
  /-- A list opens. -/
  | opened (cursor : Cursor)
  /-- Something is to be looked up. -/
  | follow (query : Text)
deriving DecidableEq

/-- Looking up a block, if its hash is known. -/
def followBlock (hash : Text) : Activation := if hash = [] then .stay else .follow hash

/-- The entry of a list at a position, if there is one. -/
def entryAt? {α : Type} (entries : List α) (x : Double) : Option α := do
  let i ← x.toInt?
  if 0 ≤ i then entries[i.toNat]? else none

/-- What the enter key does on a confirmed transaction. -/
def ConfirmedTx.activate (tx : ConfirmedTx) (cursor : Cursor) : Activation :=
  match tx.openList cursor with
  | some .inputs =>
    match entryAt? tx.inputs cursor.inputs.selected with
    | some (.spend txid _) => .follow txid
    | _ => .stay
  | some .outputs => .stay
  | none =>
    if isOn cursor.selected tx.inputsRow then .opened { cursor with inputs := .opened }
    else if isOn cursor.selected tx.outputsRow then .opened { cursor with outputs := .opened }
    else followBlock tx.blockHash

/-- What the enter key does on a result. -/
def Result.activate (r : Result) : Activation :=
  match r.confirmed? with
  | some tx => tx.activate r.cursor
  | none => .stay

/-- A list after it was closed; what was highlighted in it stays. -/
def Overlay.close (o : Overlay) : Overlay := { o with isOpen := false }

/-- A cursor after its open list was closed, outputs first. -/
def Cursor.close? (cursor : Cursor) : Option Cursor :=
  if cursor.outputs.isOpen then some { cursor with outputs := cursor.outputs.close }
  else if cursor.inputs.isOpen then some { cursor with inputs := cursor.inputs.close }
  else none

/-- A result after its open list was closed. -/
def Result.closeList (r : Result) : Option Result :=
  r.cursor.close?.map fun cursor => { r with cursor }

/-- The most entries of a list that are shown at once. -/
def windowSize : Double := 10

/-- The part of a list that is shown: its first entry and how many there are.
    Under a cursor between two entries the part begins between two as well. -/
structure Window where
  top : Double
  size : Double
deriving DecidableEq

/-- The window on a list of `n` entries, its middle on the highlighted one as
    far as the ends of the list allow. -/
def Window.around (n selected : Double) : Window :=
  let size := Double.min n windowSize
  let middle := Double.max 0 (selected - (size / 2).floor)
  ⟨if 0 ≤ selected then Double.min middle (n - size) else 0, size⟩

/-- The window on the list that has the cursor. -/
def Result.window (r : Result) : Option Window := do
  let tx ← r.confirmed?
  match ← tx.openList r.cursor with
  | .inputs => return .around (Double.ofNat tx.inputs.length) r.cursor.inputs.selected
  | .outputs => return .around (Double.ofNat tx.outputs.length) r.cursor.outputs.selected

end Lookup

end NodeWatch
