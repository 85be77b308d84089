import NodeWatch.Json.Access
import NodeWatch.Lookup.PoolTag
import NodeWatch.Lookup.Result

/-!
# Reading answers about blocks and transactions

Every figure that is missing from an answer or of the wrong kind is taken to
be zero or empty, so that reading never fails. Two figures are derived: the
rate of a fee, and the height of a block from the tip of the chain and the
number of confirmations.

## Main definitions

* `Lookup.PendingTx.ofJson`, `Lookup.ConfirmedTx.ofJson`, `Lookup.Block.ofJson`: The readers.
* `Lookup.firstTransaction?`: The transaction that pays the finder of a block.
* `Lookup.poolOf`: The tag in that transaction.
-/

namespace NodeWatch

namespace Lookup

/-- A waiting transaction from its entry. The fee is among the fees, or in an
    entry without any in a field of its own. -/
def PendingTx.ofJson (entry : Json.Value) : PendingTx :=
  let fees := entry.field "fees"
  let fee := match fees with
    | .object _ => fees.numberOr "base" 0
    | _ => entry.numberOr "fee" 0
  let size := entry.numberOr "vsize" 0
  { virtualSize := size
    weight := entry.numberOr "weight" 0
    fee
    feeRate := if 0 < size then fee * 1e8 / size else 0
    ancestors := entry.numberOr "ancestorcount" 0
    descendants := entry.numberOr "descendantcount" 0
    entryTime := entry.numberOr "time" 0 }

/-- An input. -/
def Input.ofJson (v : Json.Value) : Input :=
  if v.hasKey "coinbase" then .coinbase else .spend (v.textOr "txid" []) (v.numberOr "vout" 0)

/-- An output; an empty address is none. -/
def Output.ofJson (v : Json.Value) : Output :=
  let condition := v.field "scriptPubKey"
  let address := condition.textOr "address" []
  ⟨v.numberOr "value" 0, if address = [] then none else some address, condition.textOr "type" []⟩

/-- The height of a block with a number of confirmations below a tip. -/
def heightBelow (tip confirmations : Double) : Option Double :=
  if 0 < tip ∧ 0 < confirmations then some (tip - confirmations + 1) else none

/-- The value of several outputs. -/
def totalValue (outputs : List Output) : Double :=
  outputs.foldl (fun sum output => sum + output.value) 0

/-- A confirmed transaction, at a time when the chain has a given tip. -/
def ConfirmedTx.ofJson (tx : Json.Value) (tip : Double) : ConfirmedTx :=
  let confirmations := tx.numberOr "confirmations" 0
  let outputs := (tx.field "vout").items.map Output.ofJson
  { virtualSize := tx.numberOr "vsize" 0
    weight := tx.numberOr "weight" 0
    blockHash := tx.textOr "blockhash" []
    blockHeight := heightBelow tip confirmations
    confirmations
    blockTime := tx.numberOr "blocktime" 0
    inputs := (tx.field "vin").items.map Input.ofJson
    outputs
    totalOutput := totalValue outputs }

/-- A block that was asked for by its hash, without a pool. -/
def Block.ofJson (block : Json.Value) (hash : Text) : Block :=
  { hash := block.textOr "hash" hash
    height := block.numberOr "height" 0
    time := block.numberOr "time" 0
    transactions := block.numberOr "nTx" 0
    size := block.numberOr "size" 0
    weight := block.numberOr "weight" 0
    difficulty := block.numberOr "difficulty" 0
    confirmations := block.numberOr "confirmations" 0
    pool := PoolTag.placeholder }

/-- The identifier of the first transaction of a block, if it lists one. -/
def firstTransaction? (block : Json.Value) : Option Text :=
  ((block.field "tx").at (.index 0)).asText?

/-- The tag in the first transaction of a block. -/
def poolOf (transaction : Json.Value) : Text :=
  let script := ((transaction.field "vin").at (.index 0)).textOr "coinbase" []
  match PoolTag.ofCoinbase script with
  | .ok tag => tag
  | .error _ => PoolTag.placeholder

end Lookup

end NodeWatch
