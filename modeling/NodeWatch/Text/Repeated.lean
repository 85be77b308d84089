import NodeWatch.Decimal.Shortest
import NodeWatch.Double.Arithmetic

/-!
# Repeated units

How often a unit is repeated is given by a number. A fraction is dropped, and
what is not a number stands for zero; a negative number and an infinity are
no counts. Neither is there room in a text for any number of units.

## Main definitions

* `Text.longest`: The most units of a text.
* `Text.CountFault`: Why a number of units cannot be had.
* `Text.countOf`: The number of units that is meant.
-/

namespace NodeWatch

namespace Text

/-- The most units of a text. -/
def longest : Nat := 536870888

/-- Why a number of units cannot be had. -/
inductive CountFault where
  /-- The number is no count. -/
  | noCount (count : Double)
  /-- There are more units than a text can have. -/
  | tooMany
deriving DecidableEq

/-- The wording of the fault. -/
def CountFault.message : CountFault → Text
  | .noCount count => "Invalid count value: " ++ count.display
  | .tooMany => "Invalid string length"

/-- A count, unless it is past the most units of a text. -/
def fitting (n : Nat) : Except CountFault Nat := if longest < n then .error .tooMany else .ok n

/-- The number of units that is meant. -/
def countOf (count : Double) : Except CountFault Nat :=
  match count with
  | .nan => .ok 0
  | .infinite s => .error (.noCount (.infinite s))
  | x =>
    let n := x.truncInt?.getD 0
    if n < 0 then .error (.noCount x) else fitting n.toNat

end Text

end NodeWatch
