import NodeWatch.Bytes.Hex
import NodeWatch.Lookup.Navigation
import NodeWatch.Lookup.Stage

/-!
# The search

The result on the screen and the results to go back to. At most one lookup is
under way. Starting one puts a placeholder on the screen; a lookup from the
prompt forgets the earlier results, one that follows a result keeps it to go
back to. Only so many results are kept, and the oldest are given up.

A lookup waits until the one before it is completely over, then asks, and in
the end puts its result on the screen that it was begun for. Dismissing a
result clears the screen for good: a lookup that was asking at that time
still ends, but what it puts up is not seen any more. A lookup that breaks
down reports on whatever screen there is then.

Every operation that the user can ask for is refused by `none`, and then
changes nothing.

## Main definitions

* `Search`: The state.
* `Search.Mode`: From the prompt, or following a result.
* `Search.submit`, `Search.begin`, `Search.settle`: A lookup from beginning to end.
* `Search.navigate`, `Search.activate`, `Search.close`, `Search.back`,
  `Search.dismiss`, `Search.escape`: What the user can do.
-/

namespace NodeWatch

namespace Search

open Lookup (Query Result)

/-- Where a lookup comes from. -/
inductive Mode where
  /-- The prompt. -/
  | topLevel
  /-- The result on the screen. -/
  | drillDown
deriving DecidableEq, Repr

/-- A lookup under way. -/
inductive Worker where
  /-- The lookup has not asked for anything. -/
  | waiting (query : Query)
  /-- The lookup is asking, for the screen of this number. -/
  | asking (query : Query) (screen : Nat)
deriving DecidableEq

end Search

/-- The result on the screen, those to go back to, and the lookup under way. -/
structure Search where
  current : Option Lookup.Result
  /-- The last one first. -/
  history : List Lookup.Result
  /-- How often the screen was cleared for good. -/
  screen : Nat
  worker : Option Search.Worker
deriving DecidableEq

namespace Search

open Lookup (Query Result)

/-- Nothing is shown and nothing is looked up. -/
def initial : Search := ⟨none, [], 0, none⟩

/-- The most results to go back to. -/
def maxHistory : Nat := 32

/-- A lookup is under way. -/
def busy (s : Search) : Bool := s.worker.isSome

/-- The results to go back to once a lookup has begun. -/
def historyAfter (s : Search) : Mode → List Result
  | .topLevel => []
  | .drillDown =>
    match s.current with
    | some r => (r :: s.history).take maxHistory
    | none => s.history

/-- A new lookup at a given tip of the chain, unless one is under way or no
    lookups are begun any more. -/
def submit (s : Search) (running : Bool) (text : Text) (mode : Mode) (tip : Double) :
    Option Search :=
  if s.busy || !running then none
  else some { s with
    history := s.historyAfter mode
    current := some (.searching text)
    worker := some (.waiting ⟨text, Hex.isHeight text, tip⟩) }

/-- The lookup that waited begins to ask. -/
def begin (s : Search) : Search :=
  match s.worker with
  | some (.waiting query) => { s with worker := some (.asking query s.screen) }
  | _ => s

/-- The lookup ends with a result, or breaks down with a message. -/
def settle (s : Search) (ending : Except Text Result) : Search :=
  match s.worker with
  | some (.asking query screen) =>
    match ending with
    | .ok result =>
      { s with current := if screen = s.screen then some result else s.current, worker := none }
    | .error message => { s with current := some (.failed query.text message), worker := none }
  | _ => s

/-- The query of the lookup that is asking. -/
def asking? (s : Search) : Option Query :=
  match s.worker with
  | some (.asking query _) => some query
  | _ => none

/-- Arrow keys. -/
def navigate (s : Search) (delta : Double) : Option Search := do
  let current ← s.current
  let _ ← current.confirmed?
  return { s with current := some (current.move delta) }

/-- The enter key: a list opens or a lookup begins. -/
def activate (s : Search) (running : Bool) (tip : Double) : Option Search := do
  let current ← s.current
  match current.activate with
  | .stay => none
  | .opened cursor => some { s with current := some { current with cursor } }
  | .follow text => s.submit running text .drillDown tip

/-- The open list closes. -/
def close (s : Search) : Option Search := do
  let closed ← (← s.current).closeList
  return { s with current := some closed }

/-- The last result comes back. -/
def back (s : Search) : Option Search :=
  match s.history with
  | [] => none
  | r :: rest => some { s with current := some r, history := rest }

/-- The screen is cleared for good. -/
def dismiss (s : Search) : Option Search :=
  match s.current with
  | none => none
  | some _ => some { s with current := none, history := [], screen := s.screen + 1 }

/-- The open list closes, else the last result comes back, else the screen is cleared. -/
def escape (s : Search) : Option Search := s.close <|> s.back <|> s.dismiss

end Search

end NodeWatch
