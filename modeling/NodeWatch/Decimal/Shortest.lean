import NodeWatch.Decimal.Basic

/-!
# The shortest decimal of a double

Of all decimals that read back as a given value, the ones with the fewest
digits are the shortest, and the nearest of those is the one that is shown.
The decimals that read back are those in an interval around the value, whose
ends are the midpoints to its two neighbours and which holds its ends exactly
when the mantissa is even. On the grid of decimals with a given number of
digits, only the two grid points next to the value need to be tried: if any
point of the grid lies in the interval, one of these does.

The first grid with a hit wins. Of two hits the nearer is taken, and of two
equally near the even one.

## Main definitions

* `Decimal.readsBack`: The decimals that read back as a value.
* `Decimal.shortest`: The shortest of them.
* `Double.display`: The text of a value in the reports.
-/

namespace NodeWatch

namespace Decimal

/-- Whether `n * 10 ^ p` reads back as `m * 2 ^ q`. All lengths are counted
    in quarters of the step between neighbouring values; below a power of two
    the step is half as long. -/
def readsBack (m : Nat) (q : Int) (n : Nat) (p : Int) : Bool :=
  let candidate := n * tenPow p.toNat * twoPow (2 - q).toNat
  let unit := tenPow (-p).toNat * twoPow (q - 2).toNat
  let below := if m = twoPow 52 ∧ -1074 < q then 4 * m - 1 else 4 * m - 2
  let above := 4 * m + 2
  if m % 2 = 0 then below * unit ≤ candidate && candidate ≤ above * unit
  else below * unit < candidate && candidate < above * unit

/-- The shorter decimal of `count` digits next to a positive value, if one
    reads back. -/
def withDigits? (m : Nat) (q : Int) (count : Nat) : Option Decimal :=
  let (num, den) := Double.quotient m q
  let e := exponentOf num den
  let p := e - count + 1
  let (a, b) := inUnits num den p
  let n := a / b
  let r := a % b
  match readsBack m q n p, readsBack m q (n + 1) p with
  | false, false => none
  | true, false => some ⟨n, e⟩
  | false, true => some (if n + 1 < tenPow count then ⟨n + 1, e⟩ else ⟨(n + 1) / 10, e + 1⟩)
  | true, true =>
    if 2 * r < b ∨ (2 * r = b ∧ n % 2 = 0) then some ⟨n, e⟩
    else some (if n + 1 < tenPow count then ⟨n + 1, e⟩ else ⟨(n + 1) / 10, e + 1⟩)

/-- The shortest decimal that reads back as a positive value. Seventeen
    digits always suffice. -/
def shortest (m : Nat) (q : Int) : Decimal :=
  match (List.range' 1 17).findSome? (withDigits? m q) with
  | some d => d
  | none => let (num, den) := Double.quotient m q; significant 17 num den

/-- Numbers in the reports: positional from a millionth up to twenty-one
    digits, and a whole number bears no mark. -/
def displayLayout : Layout := ⟨-6, 21, 1, []⟩

end Decimal

namespace Double

/-- The text of a value in the reports. -/
def display : Double → Text
  | .nan => "NaN"
  | .infinite s => (if s then "-Infinity" else "Infinity")
  | .finite s m q _ =>
    if m = 0 then "0"
    else (if s then [ascii '-'] else []) ++
      Decimal.write Decimal.displayLayout (Decimal.shortest m q)

end Double

end NodeWatch
