import NodeWatch.Double.Arithmetic

/-!
# Parts of lists

A part of a list is given by numbers that count from the front when they are
positive and from the end when they are negative. Fractions are dropped,
numbers past an end stand for that end, and what is not a number stands for
zero. A text is a list of code units, so a part of a text may begin or end
between the halves of a surrogate pair.

## Main definitions

* `Span.place`: The place that a number names in a list of a given length.
* `Span.upTo`, `Span.onwards`, `Span.between`: The parts.
-/

namespace NodeWatch

namespace Span

/-- The place that a number names in a list of a given length. -/
def place (length : Nat) (x : Double) : Nat :=
  match x with
  | .nan => 0
  | .infinite negative => if negative then 0 else length
  | x =>
    let n := x.truncInt?.getD 0
    if n < 0 then (length + n).toNat else min n.toNat length

/-- The part before a place. -/
def upTo {α : Type} (l : List α) (stop : Double) : List α := l.take (place l.length stop)

/-- The part from a place on. -/
def onwards {α : Type} (l : List α) (start : Double) : List α := l.drop (place l.length start)

/-- The part from one place to another. -/
def between {α : Type} (l : List α) (start stop : Double) : List α :=
  (upTo l stop).drop (place l.length start)

end Span

end NodeWatch
