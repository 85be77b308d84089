import NodeWatch.Double.Basic
import NodeWatch.Text.Basic

/-!
# Results of a lookup

A lookup ends in a block, in a transaction that waits to be confirmed, in a
confirmed transaction or in an error; until then its result is the query with
a note that the search goes on. A result also knows where the cursor is on
it. Only confirmed transactions have anything to move through: a row for
their block and one for each of their two lists, and either list can be
opened on top of the rows with a cursor of its own.

## Main definitions

* `Lookup.Block`, `Lookup.PendingTx`, `Lookup.ConfirmedTx`: What is found.
* `Lookup.Outcome`: How a lookup stands.
* `Lookup.Overlay`, `Lookup.Cursor`: Where the cursor is.
* `Lookup.Result`: A query with its outcome and the cursor on it.
-/

namespace NodeWatch

namespace Lookup

/-- An input of a transaction. -/
inductive Input where
  /-- New coins. -/
  | coinbase
  /-- The output of an earlier transaction. -/
  | spend (txid : Text) (index : Double)
deriving DecidableEq

/-- An output of a transaction. -/
@[ext]
structure Output where
  value : Double
  address : Option Text
  /-- The kind of condition under which the output can be spent. -/
  kind : Text
deriving DecidableEq

/-- A block. -/
@[ext]
structure Block where
  hash : Text
  height : Double
  time : Double
  transactions : Double
  size : Double
  weight : Double
  difficulty : Double
  confirmations : Double
  /-- The tag of the pool that found the block. -/
  pool : Text
deriving DecidableEq

/-- A transaction that waits to be confirmed. -/
@[ext]
structure PendingTx where
  virtualSize : Double
  weight : Double
  fee : Double
  /-- The fee for each virtual byte, in hundred-millionths of a coin. -/
  feeRate : Double
  ancestors : Double
  descendants : Double
  entryTime : Double
deriving DecidableEq

/-- A confirmed transaction. -/
@[ext]
structure ConfirmedTx where
  virtualSize : Double
  weight : Double
  blockHash : Text
  /-- The height of the block, if the tip of the chain was known. -/
  blockHeight : Option Double
  confirmations : Double
  blockTime : Double
  inputs : List Input
  outputs : List Output
  totalOutput : Double
deriving DecidableEq

/-- How a lookup stands. -/
inductive Outcome where
  | searching
  | block (block : Block)
  | pending (tx : PendingTx)
  | confirmed (tx : ConfirmedTx)
  | failed (message : Text)
deriving DecidableEq

/-- A list on top of the rows. -/
structure Overlay where
  isOpen : Bool
  /-- The highlighted entry; none when negative or between two entries. -/
  selected : Double
deriving DecidableEq

/-- Where the cursor is on a result. -/
structure Cursor where
  /-- The highlighted row; none when negative or between two rows. -/
  selected : Double
  inputs : Overlay
  outputs : Overlay
deriving DecidableEq

/-- Where a cursor is that highlights nothing. -/
def nowhere : Double := Double.ofInt (-1)

/-- A list that is closed and has no highlighted entry. -/
def Overlay.closed : Overlay := ⟨false, nowhere⟩

/-- A list that was just opened. -/
def Overlay.opened : Overlay := ⟨true, nowhere⟩

/-- Nothing highlighted and nothing open. -/
def Cursor.unset : Cursor := ⟨nowhere, .closed, .closed⟩

/-- A query with its outcome and the cursor on it. -/
structure Result where
  query : Text
  outcome : Outcome
  cursor : Cursor
deriving DecidableEq

/-- The result that stands on the screen while a lookup goes on. -/
def Result.searching (query : Text) : Result := ⟨query, .searching, .unset⟩

/-- The result of a lookup that failed. -/
def Result.failed (query message : Text) : Result := ⟨query, .failed message, .unset⟩

/-- The confirmed transaction that a result is about. -/
def Result.confirmed? (r : Result) : Option ConfirmedTx :=
  match r.outcome with
  | .confirmed tx => some tx
  | _ => none

end Lookup

end NodeWatch
