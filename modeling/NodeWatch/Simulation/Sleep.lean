import NodeWatch.Double.Arithmetic

/-!
# Sleeps in virtual time

A sleep ends at a time of a clock that only moves when it is told to. Of
several sleeps the one with the earliest end is over first, and of those that
end together the one that began first.

Any number can be asked for as the length of a sleep, but a sleep lasts whole
milliseconds, one at least, and a length past the longest there is counts as
one millisecond too.

## Main definitions

* `Simulation.sleepLength`: How long a sleep lasts.
* `Simulation.Sleep`: A sleep and what it leads to.
* `Simulation.Sleep.first`: The sleep that is over first.
* `Simulation.wholeMs`: The whole milliseconds of a stretch of time.
-/

namespace NodeWatch

namespace Simulation

/-- The longest that a sleep can last, in milliseconds. -/
def longestSleep : Double := 2147483647

/-- How long a sleep lasts for which a given length was asked. -/
def sleepLength (ms : Double) : Double :=
  if 1 ≤ ms ∧ ms ≤ longestSleep then ms.trunc else 1

/-- The whole milliseconds of a stretch of time, none when it goes back. -/
def wholeMs (ms : Double) : Nat := (ms.truncInt?.getD 0).toNat

/-- A sleep, with its end and its number. -/
structure Sleep (α : Type) where
  due : Double
  number : Nat
  job : α

/-- Whether a sleep ends before another. -/
def Sleep.endsBefore {α : Type} (a b : Sleep α) : Bool :=
  a.due < b.due || (a.due.equals b.due && a.number < b.number)

/-- The sleep that is over first. -/
def Sleep.first {α : Type} (sleeps : List (Sleep α)) : Option (Sleep α) :=
  sleeps.foldl (fun first? s =>
    match first? with
    | none => some s
    | some first => if s.endsBefore first then some s else some first) none

end Simulation

end NodeWatch
