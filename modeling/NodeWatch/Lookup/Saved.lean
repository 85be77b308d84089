import NodeWatch.Lookup.Result
import NodeWatch.Monitor.Saved

/-!
# Saved results

A result of a lookup can be written down as a JSON document, outcome and
cursor included, and read back.

## Main definitions

* `Lookup.Result.toJson`, `Lookup.Result.restore`: Writing and reading.
* `Lookup.Outcome.kind`: The name of what was found.
* The same for the parts of a result.
-/

namespace NodeWatch

namespace Lookup

open Json (Value)

/-- The document of an input. -/
def Input.toJson : Input → Value
  | .coinbase => .object [("kind", .string "coinbase")]
  | .spend txid index =>
    .object [("kind", .string "prevout"), ("txid", .string txid), ("vout", .float index)]

/-- The input of a document. -/
def Input.restore (v : Value) : Input :=
  if v.textOr "kind" [] = ("coinbase" : Text) then .coinbase
  else .spend (v.textOr "txid" []) (v.numberOr "vout" 0)

/-- The document of an output. -/
def Output.toJson (o : Output) : Value :=
  .object [("value", .float o.value), ("address", .ofOption .string o.address),
    ("type", .string o.kind)]

/-- The output of a document. -/
def Output.restore (v : Value) : Output :=
  ⟨v.numberOr "value" 0, (v.field "address").asText?, v.textOr "type" []⟩

/-- The document of a block. -/
def Block.toJson (b : Block) : Value :=
  .object [("hash", .string b.hash), ("height", .float b.height), ("time", .float b.time),
    ("txCount", .float b.transactions), ("size", .float b.size), ("weight", .float b.weight),
    ("difficulty", .float b.difficulty), ("confirmations", .float b.confirmations),
    ("miner", .string b.pool)]

/-- The block of a document. -/
def Block.restore (v : Value) : Block :=
  ⟨v.textOr "hash" [], v.numberOr "height" 0, v.numberOr "time" 0, v.numberOr "txCount" 0,
    v.numberOr "size" 0, v.numberOr "weight" 0, v.numberOr "difficulty" 0,
    v.numberOr "confirmations" 0, v.textOr "miner" []⟩

/-- The document of a waiting transaction. -/
def PendingTx.toJson (t : PendingTx) : Value :=
  .object [("vsize", .float t.virtualSize), ("weight", .float t.weight), ("fee", .float t.fee),
    ("feeRate", .float t.feeRate), ("ancestors", .float t.ancestors),
    ("descendants", .float t.descendants), ("entryTime", .float t.entryTime)]

/-- The waiting transaction of a document. -/
def PendingTx.restore (v : Value) : PendingTx :=
  ⟨v.numberOr "vsize" 0, v.numberOr "weight" 0, v.numberOr "fee" 0, v.numberOr "feeRate" 0,
    v.numberOr "ancestors" 0, v.numberOr "descendants" 0, v.numberOr "entryTime" 0⟩

/-- The document of a confirmed transaction. -/
def ConfirmedTx.toJson (t : ConfirmedTx) : Value :=
  .object [("vsize", .float t.virtualSize), ("weight", .float t.weight),
    ("blockHash", .string t.blockHash), ("blockHeight", .ofOption .float t.blockHeight),
    ("confirmations", .float t.confirmations), ("blockTime", .float t.blockTime),
    ("inputs", .array (t.inputs.map Input.toJson)),
    ("outputs", .array (t.outputs.map Output.toJson)), ("totalOutput", .float t.totalOutput)]

/-- The confirmed transaction of a document. -/
def ConfirmedTx.restore (v : Value) : ConfirmedTx :=
  ⟨v.numberOr "vsize" 0, v.numberOr "weight" 0, v.textOr "blockHash" [],
    (v.field "blockHeight").asNumber?, v.numberOr "confirmations" 0, v.numberOr "blockTime" 0,
    v.itemsOf "inputs" Input.restore, v.itemsOf "outputs" Output.restore,
    v.numberOr "totalOutput" 0⟩

/-- The name of what was found. -/
def Outcome.kind : Outcome → Text
  | .searching => "searching"
  | .block _ => "block"
  | .pending _ => "mempool"
  | .confirmed _ => "confirmed"
  | .failed _ => "error"

/-- What was found, besides its name. -/
def Outcome.details : Outcome → List (Text × Value)
  | .searching => []
  | .block b => [("block", b.toJson)]
  | .pending t => [("tx", t.toJson)]
  | .confirmed t => [("tx", t.toJson)]
  | .failed message => [("message", .string message)]

/-- The document of an outcome. -/
def Outcome.toJson (o : Outcome) : Value := .object (("kind", .string o.kind) :: o.details)

/-- The outcome of a document. -/
def Outcome.restore (v : Value) : Outcome :=
  let kind := v.textOr "kind" []
  if kind = ("searching" : Text) then .searching
  else if kind = ("block" : Text) then .block (.restore (v.field "block"))
  else if kind = ("mempool" : Text) then .pending (.restore (v.field "tx"))
  else if kind = ("confirmed" : Text) then .confirmed (.restore (v.field "tx"))
  else .failed (v.textOr "message" [])

/-- The document of a list. -/
def Overlay.toJson (o : Overlay) : Value :=
  .object [("open", .bool o.isOpen), ("selected", .float o.selected)]

/-- The list of a document. -/
def Overlay.restore (v : Value) : Overlay :=
  ⟨v.boolOr "open" false, v.numberOr "selected" nowhere⟩

/-- The document of a cursor. -/
def Cursor.toJson (c : Cursor) : Value :=
  .object [("selected", .float c.selected), ("inputs", c.inputs.toJson),
    ("outputs", c.outputs.toJson)]

/-- The cursor of a document. -/
def Cursor.restore (v : Value) : Cursor :=
  ⟨v.numberOr "selected" nowhere, .restore (v.field "inputs"), .restore (v.field "outputs")⟩

/-- The document of a result. -/
def Result.toJson (r : Result) : Value :=
  .object [("query", .string r.query), ("outcome", r.outcome.toJson), ("nav", r.cursor.toJson)]

/-- The result of a document. -/
def Result.restore (v : Value) : Result :=
  ⟨v.textOr "query" [], .restore (v.field "outcome"), .restore (v.field "nav")⟩

end Lookup

end NodeWatch
