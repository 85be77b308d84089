import NodeWatch.Double.Arithmetic
import NodeWatch.Text.Basic

/-!
# Decimals of doubles

A positive quotient has a decimal exponent, the greatest power of ten that it
reaches, and for every count of digits a nearest decimal of that many
significant digits. Both are computed exactly, from the number of digits of a
whole number. In the other direction, a decimal of any length is read as the
value nearest to it.

How digits and an exponent are then written differs from one output to the
next only in a handful of decisions, which `Decimal.Layout` collects.

## Main definitions

* `digitCount`: The number of decimal digits of a natural number.
* `Decimal.exponent`: The power of ten of the first digit.
* `Decimal`: Digits and the exponent of the first of them.
* `Decimal.significant`: The nearest decimal with a given count of digits.
* `Decimal.Layout`, `Decimal.write`: The decisions, and the text they give.
* `Double.ofDecimal`: The value nearest to a decimal.
-/

namespace NodeWatch

/-- The number of decimal digits of a natural number; zero has one. -/
def digitCount (n : Nat) : Nat := (Nat.toDigits 10 n).length

/-- A number written in decimal: its digits as one natural number and the
    power of ten of the first of them. -/
structure Decimal where
  digits : Nat
  exponent : Int
deriving DecidableEq, Repr

namespace Decimal

/-- The greatest power of ten that a positive quotient reaches. -/
def exponentOf (num den : Nat) : Int :=
  if den ≤ num then digitCount (num / den) - 1 else -digitCount ((den - 1) / num)

/-- A positive quotient counted in units of `10 ^ p`, as a quotient. -/
def inUnits (num den : Nat) (p : Int) : Nat × Nat :=
  (num * tenPow (-p).toNat, den * tenPow p.toNat)

/-- The decimal of `count` significant digits nearest to a positive quotient,
    of two equally near the greater. -/
def significant (count num den : Nat) : Decimal :=
  let e := exponentOf num den
  let (a, b) := inUnits num den (e - count + 1)
  let n := roundHalfUp a b
  if n < tenPow count then ⟨n, e⟩ else ⟨n / 10, e + 1⟩

/-- The digits as a text, without the zeros at its end. -/
def significantText (d : Decimal) : Text :=
  ((Text.ofNat d.digits).reverse.dropWhile (· == ascii '0')).reverse

/-- How a decimal is written. -/
structure Layout where
  /-- The least exponent that is written without one. -/
  least : Int
  /-- The first exponent past those written without one. -/
  past : Int
  /-- The least number of digits of a written exponent. -/
  exponentWidth : Nat
  /-- What follows a whole number written without an exponent. -/
  whole : Text

/-- An exponent with its mark and sign. -/
def Layout.exponentText (layout : Layout) (e : Int) : Text :=
  ascii 'e' :: ascii (if e < 0 then '-' else '+') ::
    Text.padStart (Text.ofNat e.natAbs) layout.exponentWidth (ascii '0')

/-- Digits with a point after the first `n` of them, no point when none follow. -/
def pointAfter (n : Nat) (digits : Text) : Text :=
  if digits.length ≤ n then digits ++ List.replicate (n - digits.length) (ascii '0')
  else digits.take n ++ ascii '.' :: digits.drop n

/-- The text of a positive decimal. -/
def write (layout : Layout) (d : Decimal) : Text :=
  let digits := significantText d
  let e := d.exponent
  if e < layout.least ∨ layout.past ≤ e then pointAfter 1 digits ++ layout.exponentText e
  else if e < 0 then
    ascii '0' :: ascii '.' :: List.replicate ((-e).toNat - 1) (ascii '0') ++ digits
  else
    pointAfter (e.toNat + 1) digits ++ if digits.length ≤ e.toNat + 1 then layout.whole else []

end Decimal

namespace Double

/-- The value nearest to `digits * 10 ^ p`. The sizes of both decide the
    numbers too great and too small for any value, so that no power of ten
    larger than a thousand or so is ever formed. -/
def ofDecimal (negative : Bool) (digits : Nat) (p : Int) : Double :=
  if digits = 0 then zero negative
  else if 400 < digitCount digits + p then .infinite negative
  else if digitCount digits + p < -400 then zero negative
  else ofRatio negative (digits * tenPow p.toNat) (tenPow (-p).toNat)

/-- The magnitude of a mantissa and exponent as a quotient. -/
def quotient (m : Nat) (q : Int) : Nat × Nat := (m * twoPow q.toNat, twoPow (-q).toNat)

end Double

end NodeWatch
