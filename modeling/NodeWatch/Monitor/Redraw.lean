import NodeWatch.Text.Basic

/-!
# Redraw requests

Background work asks for a redraw whenever something on the screen changed,
and the listeners are called once for any number of requests, in a later
turn. The request that schedules a delivery hands over a callback and sets a
flag, and while the flag is set further requests have nothing left to do. The
callback clears the flag before it calls anybody, so a request that a listener
makes during the delivery schedules the next. Closing drops all listeners, and
a delivery that is scheduled then calls nobody.

Who is called is settled when a delivery begins. A listener may change the
subscriptions or close the whole thing, which has no effect on the others of
the same delivery.

## Main definitions

* `Redraw`: The listeners, the flag, and the callbacks that wait for their turn.
* `Redraw.subscribe`, `Redraw.resubscribe`, `Redraw.unsubscribe`,
  `Redraw.notify`, `Redraw.close`
* `Redraw.deliver`: The listeners that a callback calls.
* `Redraw.Step`, `Redraw.Script`: Listeners that act when they are called.
* `Redraw.Script.turn`: A turn, with everything that the listeners do in it.
-/

namespace NodeWatch

/-- Listeners of type `α`, each under a number of its own. -/
structure Redraw (α : Type) where
  /-- The listeners in the order of their subscriptions. -/
  listeners : List (Nat × α)
  /-- The number of the next subscription. -/
  next : Nat
  /-- A delivery is to come. -/
  scheduled : Bool
  /-- The callbacks that were handed over and have not run. -/
  callbacks : Nat
  closed : Bool

namespace Redraw

variable {α : Type}

/-- Nobody listens and nothing is scheduled. -/
def empty : Redraw α := ⟨[], 0, false, 0, false⟩

/-- The requests with one more listener, whose number is the old `next`. -/
def subscribe (r : Redraw α) (listener : α) : Redraw α :=
  { r with listeners := r.listeners ++ [(r.next, listener)], next := r.next + 1 }

/-- The requests with a listener that was subscribed before, under its number;
    one that is still there keeps its place. -/
def resubscribe (r : Redraw α) (number : Nat) (listener : α) : Redraw α :=
  if number < r.next ∧ number ∉ r.listeners.map (·.1) then
    { r with listeners := r.listeners ++ [(number, listener)] }
  else r

/-- The requests without the listener of a number. -/
def unsubscribe (r : Redraw α) (number : Nat) : Redraw α :=
  { r with listeners := r.listeners.filter (·.1 ≠ number) }

/-- A request, which schedules a delivery unless there is one already. -/
def notify (r : Redraw α) : Redraw α :=
  if r.closed || r.scheduled then r
  else { r with scheduled := true, callbacks := r.callbacks + 1 }

/-- No listener is called any more. -/
def close (r : Redraw α) : Redraw α := { r with closed := true, listeners := [] }

/-- A turn, in which the first callback runs if one waits: the listeners that it
    calls, and the state in which it calls them. -/
def deliver (r : Redraw α) : List (Nat × α) × Redraw α :=
  match r.callbacks with
  | 0 => ([], r)
  | callbacks + 1 =>
    (if r.closed then [] else r.listeners, { r with scheduled := false, callbacks })

/-- What a listener does when it is called, and what may be done in between. -/
inductive Step where
  | subscribe (name : Text) (steps : List Step)
  | unsubscribe (name : Text)
  | notify
  | close

/-- A listener that reports its name and then acts. -/
structure Listener where
  name : Text
  steps : List Step

/-- Requests with listeners that act, and the number of the last subscription
    under each name. -/
structure Script where
  redraw : Redraw Listener
  numbers : List (Text × Nat)

namespace Script

/-- Nobody listens. -/
def empty : Script := ⟨Redraw.empty, []⟩

/-- The effect of one step. -/
def step (s : Script) : Step → Script
  | .subscribe name steps =>
    ⟨s.redraw.subscribe ⟨name, steps⟩, (name, s.redraw.next) :: s.numbers⟩
  | .unsubscribe name =>
    match s.numbers.lookup name with
    | some number => { s with redraw := s.redraw.unsubscribe number }
    | none => s
  | .notify => { s with redraw := s.redraw.notify }
  | .close => { s with redraw := s.redraw.close }

/-- The effect of several steps. -/
def steps (s : Script) (steps : List Step) : Script := steps.foldl step s

/-- One turn: the names of the listeners that were called, and what they left. -/
def turn (s : Script) : List Text × Script :=
  let (called, redraw) := s.redraw.deliver
  (called.map (·.2.name), called.foldl (fun s c => s.steps c.2.steps) { s with redraw })

end Script

end Redraw

end NodeWatch
