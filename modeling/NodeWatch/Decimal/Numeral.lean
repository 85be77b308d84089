import NodeWatch.Decimal.Basic
import NodeWatch.Text.Blank

/-!
# Numerals typed by hand

A number on the command line may be written in decimal, with a sign, a point
and an exponent, or in base two, eight or sixteen behind `0b`, `0o` or `0x`
without a sign. Blanks around it are skipped, and nothing but blanks is zero.
The word `Infinity` is a number too. Everything else is not.

## Main definitions

* `Numeral.exponent?`, `Numeral.unsigned?`: The parts of a decimal.
* `Numeral.based?`: A whole number in another base.
* `Double.ofNumeral`: The value of a numeral.
-/

namespace NodeWatch

namespace Numeral

/-- The digits at the front of a text and what follows them. -/
def splitDigits (t : Text) : Text × Text :=
  (t.takeWhile CodeUnit.isDigit, t.dropWhile CodeUnit.isDigit)

/-- A sign at the front of a text: whether it is a minus, and what follows. -/
def splitSign : Text → Bool × Text
  | [] => (false, [])
  | u :: rest =>
    if u = ascii '-' then (true, rest)
    else if u = ascii '+' then (false, rest)
    else (false, u :: rest)

/-- The exponent that makes up a whole text; none at all counts as zero. -/
def exponent? : Text → Option Int
  | [] => some 0
  | u :: rest =>
    if u = ascii 'e' ∨ u = ascii 'E' then
      let (negative, digits) := splitSign rest
      if Text.isDigits digits then
        let n : Int := Text.digitsValue digits
        some (if negative then -n else n)
      else none
    else none

/-- A decimal without a sign: digits on at least one side of an optional point,
    and an exponent. -/
def unsigned? (negative : Bool) (t : Text) : Option Double :=
  let (whole, rest) := splitDigits t
  let (fraction, rest) := match rest with
    | u :: r => if u = ascii '.' then splitDigits r else ([], rest)
    | [] => ([], rest)
  if whole.isEmpty && fraction.isEmpty then none
  else (exponent? rest).map fun e =>
    Double.ofDecimal negative (Text.digitsValue (whole ++ fraction)) (e - fraction.length)

/-- The value of a digit in a base up to sixteen. -/
def digit? (base : Nat) (u : CodeUnit) : Option Nat :=
  u.hexValue?.filter (· < base)

/-- The value of digits in a base up to sixteen, at least one of them. -/
def based? (base : Nat) (t : Text) : Option Nat :=
  if t.isEmpty then none
  else t.foldl (fun n? u => do return (← n?) * base + (← digit? base u)) (some 0)

/-- The base that a letter after a leading zero announces. -/
def base? (u : CodeUnit) : Option Nat :=
  if u = ascii 'x' ∨ u = ascii 'X' then some 16
  else if u = ascii 'o' ∨ u = ascii 'O' then some 8
  else if u = ascii 'b' ∨ u = ascii 'B' then some 2
  else none

/-- A signed decimal or infinity. -/
def signed? (t : Text) : Option Double :=
  let (negative, rest) := splitSign t
  if rest = ("Infinity" : Text) then some (.infinite negative) else unsigned? negative rest

/-- The value of a numeral without blanks around it. -/
def value? : Text → Option Double
  | [] => some (Double.zero false)
  | zero :: mark :: digits =>
    match if zero = ascii '0' then base? mark else none with
    | some base => (based? base digits).map Double.ofNat
    | none => signed? (zero :: mark :: digits)
  | t => signed? t

end Numeral

/-- The value of a numeral; not a number when it is none. -/
def Double.ofNumeral (t : Text) : Double := (Numeral.value? t.trim).getD .nan

end NodeWatch
