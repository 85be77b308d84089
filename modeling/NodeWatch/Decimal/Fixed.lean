import NodeWatch.Decimal.Shortest

/-!
# Fixed places

A number with a fixed count of places is the nearest multiple of the last
place, a half away from zero, with as many digits after the point as there
are places. Numbers of twenty-two digits and more are shown in full
precision instead.

## Main definitions

* `Double.fixed`: A number with a given count of places.
* `Double.places?`: The count of places that a number asks for.
-/

namespace NodeWatch

namespace Double

/-- A whole number of last places with its point. -/
def placesText (places n : Nat) : Text :=
  let digits := Text.padStart (Text.ofNat n) (places + 1) (ascii '0')
  Decimal.pointAfter (digits.length - places) digits

/-- The text of a number with a given count of places. -/
def fixed (x : Double) (places : Nat) : Text :=
  match x with
  | .finite s m q _ =>
    let (num, den) := quotient m q
    if den * tenPow 21 ≤ num then display x
    else (if s && m != 0 then [ascii '-'] else []) ++
      placesText places (roundHalfUp (num * tenPow places) den)
  | _ => display x

/-- The count of places that a number asks for, fractions dropped: none below
    zero or above a hundred, and zero for what is not a number. -/
def places? (x : Double) : Option Nat :=
  match x with
  | .nan => some 0
  | .infinite _ => none
  | .finite .. =>
    match x.truncInt? with
    | some n => if 0 ≤ n ∧ n ≤ 100 then some n.toNat else none
    | none => none

end Double

end NodeWatch
