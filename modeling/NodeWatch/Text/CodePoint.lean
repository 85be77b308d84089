import NodeWatch.Text.Basic

/-!
# Code points and the order of texts

Reading a text as code points joins every high surrogate with a low surrogate
that follows it; a surrogate without its partner stands for itself. Texts are
ordered by their code points, not by their units: a character beyond the
basic plane comes after every character in it, although its surrogates lie
below some of them. On well-formed texts this is the order of their UTF-8
bytes.

## Main definitions

* `Text.codePoints`: The code points of a text.
* `Text.ofCodePoint`: The units of a code point.
* `Text.difference`, `Text.compare`: The order by code points.
* `Text.WellFormed`: Every surrogate has its partner.
* `Text.toString`: A string with lone surrogates replaced.
-/

namespace NodeWatch

/-- What stands in for a surrogate that lost its partner. -/
def CodePoint.replacement : Nat := 0xFFFD

/-- A code point that is half of a pair. -/
def CodePoint.isSurrogate (n : Nat) : Bool := 0xD800 ≤ n && n ≤ 0xDFFF

namespace Text

/-- The code point of a surrogate pair. -/
def joinPair (high low : CodeUnit) : Nat :=
  0x10000 + (high.toNat - 0xD800) * 0x400 + (low.toNat - 0xDC00)

/-- The code points of a text, pairs joined, lone surrogates as themselves. -/
def codePoints : Text → List Nat
  | [] => []
  | [u] => [u.toNat]
  | u :: v :: rest =>
    if u.isHighSurrogate && v.isLowSurrogate then joinPair u v :: codePoints rest
    else u.toNat :: codePoints (v :: rest)

/-- The units of a code point. -/
def ofCodePoint (n : Nat) : Text :=
  if n < 0x10000 then [UInt16.ofNat n]
  else [UInt16.ofNat (0xD800 + (n - 0x10000) / 0x400),
    UInt16.ofNat (0xDC00 + (n - 0x10000) % 0x400)]

/-- The code point that a text begins with, that of a pair if it begins with one. -/
def front : Text → Nat
  | [] => 0
  | [u] => u.toNat
  | u :: v :: _ => if u.isHighSurrogate && v.isLowSurrogate then joinPair u v else u.toNat

/-- The number of units that a code point takes. -/
def width (n : Nat) : Nat := if 0xFFFF < n then 2 else 1

/-- How far a text comes behind another one, which is less than nothing if it
    comes before it. Both are read from their fronts, each by as many units as
    its code point takes, until the code points differ or a text ends; then the
    one that has more units left comes behind the other. -/
@[semireducible]
def difference (a b : Text) : Int :=
  match a, b with
  | u :: a, v :: b =>
    let m := front (u :: a)
    let n := front (v :: b)
    if m ≠ n then if m < n then -1 else 1
    else difference ((u :: a).drop (width m)) ((v :: b).drop (width n))
  | a, b => a.length - b.length
termination_by a.length
decreasing_by
  have hwidth : 0 < width (front (u :: a)) := by
    unfold width
    split <;> decide
  rw [List.length_drop, List.length_cons]
  omega

/-- The order by code points. -/
def compare (a b : Text) : Ordering := Ord.compare (difference a b) 0

/-- Whether a text comes no later than another. -/
def isLE (a b : Text) : Bool := (compare a b).isLE

/-- No surrogate stands without its partner. -/
def WellFormed (t : Text) : Prop := ∀ n ∈ codePoints t, CodePoint.isSurrogate n = false

instance (t : Text) : Decidable (WellFormed t) :=
  inferInstanceAs (Decidable (∀ n ∈ codePoints t, CodePoint.isSurrogate n = false))

/-- The code points of a text with every lone surrogate replaced. -/
def scalars (t : Text) : List Nat :=
  (codePoints t).map fun n => if CodePoint.isSurrogate n then CodePoint.replacement else n

/-- The text as a string, lone surrogates replaced. -/
def toString (t : Text) : String := String.ofList ((scalars t).map Char.ofNat)

end Text

end NodeWatch
