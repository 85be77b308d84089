import NodeWatch.Monitor.Reading
import NodeWatch.Monitor.Slide
import NodeWatch.Rpc.Call
import NodeWatch.Rpc.Error

/-!
# One poll of the node

A poll asks for the four core answers one after the other and writes them
into the snapshot together, so that the snapshot never mixes figures of
different polls; if one of the four fails, it writes the failure instead and
ends. If the tip has moved since the list of recent blocks was fetched, it
goes on to fetch the list, from the tip downwards and up to twenty blocks. A
failure there ends the list and is not reported: the next move of the tip
brings another list.

Like a lookup, a poll is a machine that waits for one answer at a time.

## Main definitions

* `Monitor.Poll`: What a poll knows while it waits for an answer.
* `Monitor.Poll.Outcome`: How a poll ended.
* `Monitor.Poll.begin`, `Monitor.Poll.next`: The first question, and what an answer leads to.
* `Monitor.Poll.conclude`: The rest of a poll of a node that answers at once.
-/

namespace NodeWatch

namespace Monitor

/-- The most blocks that are listed. -/
def maxBlocks : Nat := 20

namespace Poll

/-- What a poll knows while it waits for an answer. -/
inductive Stage where
  | chain
  | network (chain : Json.Value)
  | mempool (chain network : Json.Value)
  | peers (chain network mempool : Json.Value)
  /-- The block at the depth of those that are there already is waited for;
      they are listed from the newest on. -/
  | blocks (tip : Double) (fetched : List RecentBlock)

/-- How a poll ended. -/
inductive Outcome where
  /-- One of the core answers failed. -/
  | failed (message : Text)
  /-- The core answers arrived, and this many blocks if they were asked for. -/
  | polled (tip : Double) (blocks : Option Nat)
deriving DecidableEq

/-- The question that a stage waits for an answer to. -/
def Stage.call : Stage → Rpc.Call
  | .chain => .chainInfo
  | .network _ => .networkInfo
  | .mempool .. => .mempoolInfo
  | .peers .. => .peerInfo
  | .blocks tip fetched => .statsAt (tip - Double.ofNat fetched.length)

end Poll

/-- A poll that waits for an answer. -/
structure Poll where
  /-- The tip of the block list when the poll began. -/
  listTip : Double
  stage : Poll.Stage

namespace Poll

/-- What an answer leads to. -/
inductive Move where
  /-- Another question. -/
  | ask (poll : Poll)
  | done (outcome : Outcome)

/-- What an answer did. -/
structure Effect where
  snapshot : Snapshot
  /-- The figures on the screen changed. -/
  redraw : Bool
  move : Move

/-- The first question of a poll. -/
def begin (s : Snapshot) : Poll := ⟨s.blocksTip, .chain⟩

/-- The end of a list of blocks. -/
def finish (s : Snapshot) (redraw : Bool) (tip : Double) (fetched : List RecentBlock) : Effect :=
  ⟨s.withBlocks fetched tip, redraw, .done (.polled tip (some fetched.length))⟩

/-- The question for the next block of a list, or the end of the list. -/
def nextBlock (poll : Poll) (s : Snapshot) (redraw : Bool) (tip : Double)
    (fetched : List RecentBlock) : Effect :=
  if fetched.length < maxBlocks ∧ 0 ≤ tip - Double.ofNat fetched.length then
    ⟨s, redraw, .ask { poll with stage := .blocks tip fetched }⟩
  else finish s redraw tip fetched

/-- What follows the core answers. -/
def commit (poll : Poll) (s : Snapshot) (answers : CoreAnswers) (now : Double) : Effect :=
  let s := s.withCore answers now
  let tip := answers.tip
  if tip.equals poll.listTip || decide (tip ≤ 0) then ⟨s, true, .done (.polled tip none)⟩
  else nextBlock poll s true tip []

/-- What an answer leads to. -/
def next (poll : Poll) (s : Snapshot) (now : Double) (answer : Rpc.Answer) : Effect :=
  let ask (stage : Stage) : Effect := ⟨s, false, .ask { poll with stage }⟩
  match poll.stage, answer with
  | .chain, .ok chain => ask (.network chain)
  | .network chain, .ok network => ask (.mempool chain network)
  | .mempool chain network, .ok mempool => ask (.peers chain network mempool)
  | .peers chain network mempool, .ok peers =>
    poll.commit s ⟨chain, network, mempool, peers⟩ now
  | .blocks tip fetched, .ok block =>
    poll.nextBlock s false tip (fetched ++ [RecentBlock.ofJson block])
  | .blocks tip fetched, .error _ => finish s false tip fetched
  | _, .error e => ⟨s.withFailure e.message now, false, .done (.failed e.message)⟩

/-- The answers that a stage waits for at most, the one asked for included. -/
def Stage.remaining : Stage → Nat
  | .chain => maxBlocks + 5
  | .network _ => maxBlocks + 4
  | .mempool .. => maxBlocks + 3
  | .peers .. => maxBlocks + 2
  | .blocks _ fetched => maxBlocks - fetched.length + 1

/-- The answers that a move leads to at most. -/
def Move.remaining : Move → Nat
  | .ask poll => poll.stage.remaining
  | .done _ => 0

/-- A list of blocks leaves as many questions as it has places left. -/
theorem remaining_nextBlock (poll : Poll) (s : Snapshot) (redraw : Bool) (tip : Double)
    (fetched : List RecentBlock) :
    (poll.nextBlock s redraw tip fetched).move.remaining ≤ maxBlocks - fetched.length + 1 := by
  unfold nextBlock
  split <;> simp [finish, Move.remaining, Stage.remaining]

/-- The core answers leave the questions for a whole list at most. -/
theorem remaining_commit (poll : Poll) (s : Snapshot) (answers : CoreAnswers) (now : Double) :
    (poll.commit s answers now).move.remaining ≤ maxBlocks + 1 := by
  simp only [commit]
  split
  · simp [Move.remaining]
  · exact remaining_nextBlock ..

/-- Every answer brings a poll closer to its end. -/
theorem remaining_next (poll : Poll) (s : Snapshot) (now : Double) (answer : Rpc.Answer) :
    (poll.next s now answer).move.remaining < poll.stage.remaining := by
  obtain ⟨listTip, stage⟩ := poll
  match stage, answer with
  | .blocks tip fetched, .ok block =>
    simp only [Poll.next, nextBlock, List.length_append, List.length_singleton]
    split
    · simp only [Move.remaining, Stage.remaining, List.length_append, List.length_singleton]
      omega
    · simp [Move.remaining, Stage.remaining, finish]
  | .peers .., .ok _ => exact Nat.lt_succ_of_le (remaining_commit ..)
  | .chain, .ok _ | .network _, .ok _ | .mempool .., .ok _ =>
    simp [Poll.next, Move.remaining, Stage.remaining]
  | .chain, .error _ | .network _, .error _ | .mempool .., .error _ | .peers .., .error _
  | .blocks .., .error _ =>
    simp [Poll.next, Move.remaining, Stage.remaining, finish]

/-- The rest of a poll of a node that answers at once and may change with
    every call; the state of the node is passed along. -/
def conclude {σ : Type} (node : σ → Rpc.Call → Rpc.Answer × σ) (now : Double) (poll : Poll)
    (s : Snapshot) (redraw : Bool) (state : σ) : Outcome × Snapshot × Bool × σ :=
  let (answer, state) := node state poll.stage.call
  let effect := poll.next s now answer
  match _h : effect.move with
  | .done outcome => (outcome, effect.snapshot, redraw || effect.redraw, state)
  | .ask poll' => poll'.conclude node now effect.snapshot (redraw || effect.redraw) state
termination_by poll.stage.remaining
decreasing_by
  have := poll.remaining_next s now answer
  simp only [effect] at _h
  rwa [_h] at this

end Poll

end Monitor

end NodeWatch
