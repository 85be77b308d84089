import NodeWatch.Json.Parser

/-!
# The calls of the dashboard

Every question that the dashboard puts to the node. A call has a method and
parameters; numbers among the parameters have to be whole and in range, and a
call that breaks this rule is never sent.

## Main definitions

* `Rpc.Call`: The calls.
* `Rpc.Call.method`, `Rpc.Call.params`: How a call is sent.
* `Rpc.Sent`: A call with its parameters settled, and its text in logs.
-/

namespace NodeWatch

namespace Rpc

/-- A question to the node. -/
inductive Call where
  | chainInfo
  | networkInfo
  | mempoolInfo
  | peerInfo
  | blockHash (height : Double)
  | block (hash : Text) (verbosity : Double)
  | transaction (txid : Text) (verbose : Bool)
  | mempoolEntry (txid : Text)
  | blockStats (height : Double) (fields : List Text)
deriving DecidableEq

/-- The figures of a block that the block list shows. -/
def blockFields : List Text := ["height", "txs", "total_size", "total_weight", "time"]

/-- A block in the detail that lists its transactions by identifier. -/
def Call.blockByHash (hash : Text) : Call := .block hash 1

/-- The figures of the block at a height. -/
def Call.statsAt (height : Double) : Call := .blockStats height blockFields

/-- The method of a call. -/
def Call.method : Call → Text
  | .chainInfo => "getblockchaininfo"
  | .networkInfo => "getnetworkinfo"
  | .mempoolInfo => "getmempoolinfo"
  | .peerInfo => "getpeerinfo"
  | .blockHash _ => "getblockhash"
  | .block .. => "getblock"
  | .transaction .. => "getrawtransaction"
  | .mempoolEntry _ => "getmempoolentry"
  | .blockStats .. => "getblockstats"

/-- The parameters of a call. -/
def Call.params : Call → Except Json.IntError (List Json.Value)
  | .blockHash height => do return [← Json.intOfDouble? height]
  | .block hash verbosity => do return [.string hash, ← Json.intOfDouble? verbosity]
  | .transaction txid verbose => .ok [.string txid, .bool verbose]
  | .mempoolEntry txid => .ok [.string txid]
  | .blockStats height fields => do
    return [← Json.intOfDouble? height, .array (fields.map .string)]
  | _ => .ok []

/-- A call as it is sent. -/
structure Sent where
  method : Text
  params : List Json.Value

/-- The call as it is sent, if its parameters allow that. -/
def Call.send (call : Call) : Except Json.IntError Sent := do
  return ⟨call.method, ← call.params⟩

/-- A call that was sent in the form of a log. -/
def Sent.text (sent : Sent) : Text :=
  sent.method ++ "(" ++ Text.join "," (sent.params.map Json.Value.compact) ++ ")"

end Rpc

end NodeWatch
