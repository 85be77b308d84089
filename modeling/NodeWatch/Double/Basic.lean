/-!
# Double precision numbers

A binary floating point number of sixty-four bits, written out as what it
denotes: not a number, an infinity, or a sign with a mantissa `m` and an
exponent `q` that stand for `m * 2 ^ q`. The pair is canonical, so that two
values are equal exactly when they are the same number, zeros of either sign
apart. There is one value that is not a number; the payloads that the bits
of one may carry are not part of a value.

Every operation is defined from exact arithmetic on naturals and one
rounding, `Double.ofRatio`, which takes the nearest value and, of two equally
near, the one with the even mantissa. Nothing here rests on the floating
point of the machine, so a statement about a result is a statement about
naturals.

## Main definitions

* `Double`: The values.
* `twoPow`, `tenPow`: The powers that everything is scaled by.
* `roundHalfEven`: A quotient to the nearest natural.
* `Double.ofRatio`: The value nearest to a quotient of naturals.
* `Double.ofScaled`, `Double.ofInt`: Rounding the other forms of a number.
* `Double.compare?`: The order of the numbers, none where one is not a number.
* `Double.ofBits`, `Double.toBits`: The sixty-four bits.
-/

namespace NodeWatch

/-- A power of two. -/
def twoPow (n : Nat) : Nat := Nat.pow 2 n

/-- A power of ten. -/
def tenPow (n : Nat) : Nat := Nat.pow 10 n

/-- A quotient rounded to the nearest natural, a half to the even neighbour. -/
def roundHalfEven (num den : Nat) : Nat :=
  let n := num / den
  let r := num % den
  if 2 * r < den then n else if den < 2 * r then n + 1 else n + n % 2

/-- A quotient rounded to the nearest natural, a half to the upper neighbour. -/
def roundHalfUp (num den : Nat) : Nat := (2 * num + den) / (2 * den)

namespace Double

/-- The one way to write a number: the mantissa fills its fifty-three bits
    unless the exponent is the least there is. -/
def Canonical (m : Nat) (q : Int) : Prop :=
  m < twoPow 53 ∧ -1074 ≤ q ∧ q ≤ 971 ∧ (twoPow 52 ≤ m ∨ q = -1074)

instance (m : Nat) (q : Int) : Decidable (Canonical m q) :=
  inferInstanceAs (Decidable (_ ∧ _ ∧ _ ∧ _))

end Double

/-- A double precision number. -/
inductive Double where
  /-- Not a number. -/
  | nan
  /-- An infinity of either sign. -/
  | infinite (negative : Bool)
  /-- The number `m * 2 ^ q`, or its negative; zero has two signs. -/
  | finite (negative : Bool) (m : Nat) (q : Int) (canonical : Double.Canonical m q)
deriving DecidableEq

namespace Double

/-- Zero of a given sign. -/
def zero (negative : Bool) : Double := .finite negative 0 (-1074) (by decide)

instance : Inhabited Double := ⟨zero false⟩

/-- A mantissa and exponent as a value. The mantissa may be the power of two
    just past the canonical ones; an exponent past the greatest is infinity. -/
def make (negative : Bool) (m : Nat) (q : Int) : Double :=
  if h : Canonical m q then .finite negative m q h
  else if h : Canonical (m / 2) (q + 1) then .finite negative (m / 2) (q + 1) h
  else .infinite negative

/-- The greatest power of two that a positive quotient reaches. -/
def exponent (num den : Nat) : Int :=
  let e : Int := num.log2 - den.log2
  if den * twoPow e.toNat ≤ num * twoPow (-e).toNat then e else e - 1

/-- The value nearest to a quotient, of two equally near the one whose
    mantissa is even. -/
def ofRatio (negative : Bool) (num den : Nat) : Double :=
  if num = 0 then zero negative
  else
    let q := max (exponent num den - 52) (-1074)
    make negative (roundHalfEven (num * twoPow (-q).toNat) (den * twoPow q.toNat)) q

/-- The value nearest to `m * 2 ^ q`. -/
def ofScaled (negative : Bool) (m : Nat) (q : Int) : Double :=
  ofRatio negative (m * twoPow q.toNat) (twoPow (-q).toNat)

/-- The value nearest to an integer. -/
def ofInt (n : Int) : Double := ofRatio (n < 0) n.natAbs 1

/-- The value nearest to a natural number. -/
def ofNat (n : Nat) : Double := ofRatio false n 1

instance (n : Nat) : OfNat Double n := ⟨ofNat n⟩

instance : Coe Nat Double := ⟨ofNat⟩

/-- Decimal literals are rounded like any other quotient. -/
instance : OfScientific Double where
  ofScientific m small e := if small then ofRatio false m (tenPow e) else ofNat (m * tenPow e)

/-- Whether a value is not a number. -/
def isNaN : Double → Bool
  | .nan => true
  | _ => false

/-- Whether a value is a number other than an infinity. -/
def isFinite : Double → Bool
  | .finite .. => true
  | _ => false

/-- Whether a value is a zero of either sign. -/
def isZero : Double → Bool
  | .finite _ m _ _ => m == 0
  | _ => false

/-- The sign of a value; not a number has none. -/
def isNegative : Double → Bool
  | .nan => false
  | .infinite s => s
  | .finite s _ _ _ => s

/-- The value of the other sign. -/
def neg : Double → Double
  | .nan => .nan
  | .infinite s => .infinite !s
  | .finite s m q h => .finite (!s) m q h

/-- The value without its sign. -/
def abs : Double → Double
  | .nan => .nan
  | .infinite _ => .infinite false
  | .finite _ m q h => .finite false m q h

/-- A mantissa with its sign, counted in steps of `2 ^ low`. -/
def steps (negative : Bool) (m : Nat) (q low : Int) : Int :=
  let n : Int := m * twoPow (q - low).toNat
  if negative then -n else n

/-- How two numbers compare; nothing compares with what is not a number. -/
def compare? : Double → Double → Option Ordering
  | .nan, _ => none
  | _, .nan => none
  | .infinite s, .infinite t => some (if s = t then .eq else if s then .lt else .gt)
  | .infinite s, .finite .. => some (if s then .lt else .gt)
  | .finite .., .infinite t => some (if t then .gt else .lt)
  | .finite s m q _, .finite t n r _ =>
    let low := min q r
    some (compare (steps s m q low) (steps t n r low))

instance : LT Double := ⟨fun a b => compare? a b = some .lt⟩

instance : LE Double := ⟨fun a b => compare? a b = some .lt ∨ compare? a b = some .eq⟩

instance (a b : Double) : Decidable (a < b) :=
  inferInstanceAs (Decidable (compare? a b = some .lt))

instance (a b : Double) : Decidable (a ≤ b) :=
  inferInstanceAs (Decidable (compare? a b = some .lt ∨ compare? a b = some .eq))

/-- Whether two values are the same number; the zeros are, and what is not a
    number is not the same as anything. -/
def equals (a b : Double) : Bool := compare? a b == some .eq

/-- The lesser of two numbers, of two zeros the negative one. -/
protected def min (a b : Double) : Double :=
  if a.isNaN || b.isNaN then .nan
  else if a < b then a else if b < a then b else if a.isNegative then a else b

/-- The greater of two numbers, of two zeros the positive one. -/
protected def max (a b : Double) : Double :=
  if a.isNaN || b.isNaN then .nan
  else if b < a then a else if a < b then b else if a.isNegative then b else a

/-- The value of sixty-four bits: a sign, eleven bits of exponent and
    fifty-two of mantissa. -/
def ofBits (n : Nat) : Double :=
  let negative := n / twoPow 63 % 2 == 1
  let e : Nat := n / twoPow 52 % 2048
  let f := n % twoPow 52
  if e = 2047 then if f = 0 then .infinite negative else .nan
  else if e = 0 then make negative f (-1074)
  else make negative (twoPow 52 + f) ((e : Int) - 1075)

/-- The sixty-four bits of a value. -/
def toBits : Double → Nat
  | .nan => 2047 * twoPow 52 + twoPow 51
  | .infinite s => (if s then twoPow 63 else 0) + 2047 * twoPow 52
  | .finite s m q _ =>
    (if s then twoPow 63 else 0) +
      if m < twoPow 52 then m else (q + 1075).toNat * twoPow 52 + (m - twoPow 52)

end Double

end NodeWatch
