import NodeWatch.Decimal.Numeral
import NodeWatch.Lookup.Reading
import NodeWatch.Rpc.Call
import NodeWatch.Rpc.Error

/-!
# The course of a lookup

A lookup is a short dialogue with the node. A height is first turned into the
hash of its block. Anything else may be the identifier of a waiting
transaction, of a confirmed one, or the hash of a block, and is tried as each
of these in turn; only the failure of the last attempt is reported. A block
that was found is completed by one more question, for the transaction that
pays its finder, whose failure costs the name of the pool and nothing else.

The dialogue is a machine: a stage is what is known while an answer is
waited for, and an answer leads on to the next question or to the outcome.

## Main definitions

* `Lookup.Query`: What is looked up.
* `Lookup.Stage`: What is known while an answer is waited for.
* `Lookup.Move`: The next question, or the outcome.
* `Lookup.begin`, `Lookup.next`: The first move, and the one after an answer.
* `Lookup.resolve`: The whole dialogue with a node that answers at once.
-/

namespace NodeWatch

namespace Lookup

/-- What is looked up, and the tip of the chain when the lookup began. -/
structure Query where
  text : Text
  isHeight : Bool
  tip : Double
deriving DecidableEq

/-- What is known while an answer is waited for. -/
inductive Stage where
  /-- The hash of a block is asked for by its height. -/
  | hash
  /-- A waiting transaction is asked for. -/
  | pending
  /-- A confirmed transaction is asked for. -/
  | confirmed
  /-- A block is asked for by its hash. -/
  | block (hash : Text)
  /-- The first transaction of a block is asked for. -/
  | pool (block : Block)
deriving DecidableEq

/-- The next question with the stage that waits for its answer, or the outcome. -/
inductive Move where
  | ask (call : Rpc.Call) (stage : Stage)
  | done (outcome : Outcome)

/-- A block is asked for. -/
def askBlock (hash : Text) : Move := .ask (.blockByHash hash) (.block hash)

/-- The first move of a lookup. -/
def begin (query : Query) : Move :=
  if query.isHeight then .ask (.blockHash (Double.ofNumeral query.text)) .hash
  else .ask (.mempoolEntry query.text) .pending

/-- The move after a block was found. -/
def withBlock (found : Json.Value) (hash : Text) : Move :=
  let block := Block.ofJson found hash
  match firstTransaction? found with
  | some txid => .ask (.transaction txid true) (.pool block)
  | none => .done (.block block)

/-- The end of a lookup whose last question failed. -/
def fail (e : Rpc.Error) : Move := .done (.failed e.message)

/-- The move after an answer. -/
def next (query : Query) : Stage → Rpc.Answer → Move
  | .hash, .ok v =>
    match v with
    | .string hash => askBlock hash
    | v => fail (.access (.conversion v.kind .string))
  | .hash, .error e => fail e
  | .pending, .ok entry => .done (.pending (PendingTx.ofJson entry))
  | .pending, .error _ => .ask (.transaction query.text true) .confirmed
  | .confirmed, .ok tx => .done (.confirmed (ConfirmedTx.ofJson tx query.tip))
  | .confirmed, .error _ => askBlock query.text
  | .block hash, .ok found => withBlock found hash
  | .block _, .error e => fail e
  | .pool block, .ok transaction => .done (.block { block with pool := poolOf transaction })
  | .pool block, .error _ => .done (.block block)

/-- The questions that are left at most, the one that is being asked included. -/
def Stage.remaining : Stage → Nat
  | .hash => 3
  | .pending => 4
  | .confirmed => 3
  | .block _ => 2
  | .pool _ => 1

/-- The questions that a move still leads to at most. -/
def Move.remaining : Move → Nat
  | .ask _ stage => stage.remaining
  | .done _ => 0

/-- A found block leaves one question at most. -/
theorem remaining_withBlock (found : Json.Value) (hash : Text) :
    (withBlock found hash).remaining ≤ 1 := by
  unfold withBlock
  split <;> simp [Move.remaining, Stage.remaining]

/-- Every answer brings a lookup closer to its end. -/
theorem remaining_next (query : Query) (stage : Stage) (answer : Rpc.Answer) :
    (next query stage answer).remaining < stage.remaining := by
  match stage, answer with
  | .block hash, .ok found => exact Nat.lt_succ_of_le (remaining_withBlock found hash)
  | .hash, .ok v =>
    simp only [next]
    split <;> simp [Move.remaining, Stage.remaining, askBlock, fail]
  | .hash, .error _ | .pending, .ok _ | .pending, .error _ | .confirmed, .ok _
  | .confirmed, .error _ | .block _, .error _ | .pool _, .ok _ | .pool _, .error _ =>
    simp [next, Move.remaining, Stage.remaining, askBlock, fail]

/-- The rest of a dialogue with a node that answers at once and may change
    with every call; the state of the node is passed along. -/
def finish {σ : Type} (node : σ → Rpc.Call → Rpc.Answer × σ) (query : Query) (s : σ) :
    Move → Outcome × σ
  | .done outcome => (outcome, s)
  | .ask call stage =>
    let (answer, s) := node s call
    finish node query s (next query stage answer)
termination_by move => move.remaining
decreasing_by exact remaining_next ..

/-- The whole dialogue with a node that answers at once. -/
def resolve {σ : Type} (node : σ → Rpc.Call → Rpc.Answer × σ) (query : Query) (s : σ) :
    Result × σ :=
  let (outcome, s) := finish node query s (begin query)
  (⟨query.text, outcome, .unset⟩, s)

end Lookup

end NodeWatch
