import NodeWatch.Double.Basic

/-!
# Arithmetic on doubles

Sums, products, quotients and remainders are the exact ones, rounded once.
The sign of a zero result is the one the standard for binary floating point
gives it: a product or quotient takes the product of the signs, a sum of
opposite numbers is positive, a remainder has the sign of the dividend.

The roundings to whole numbers come with their sign too. They differ in
direction only: `floor` goes down, `trunc` towards zero, and `round` to the
nearest, a half up.

## Main definitions

* `Double.add`, `Double.sub`, `Double.mul`, `Double.div`, `Double.rem`
* `Double.floor`, `Double.trunc`, `Double.round`
* `Double.toInt?`: The integer that a value is.
* `Double.truncInt?`: The integer part of a number.
* `Double.isSafeInteger`: An integer that every neighbour is told apart from.
-/

namespace NodeWatch

namespace Double

/-- The sum. -/
protected def add : Double → Double → Double
  | .nan, _ => .nan
  | _, .nan => .nan
  | .infinite s, .infinite t => if s = t then .infinite s else .nan
  | .infinite s, .finite .. => .infinite s
  | .finite .., .infinite t => .infinite t
  | .finite s m q _, .finite t n r _ =>
    let low := min q r
    let sum := steps s m q low + steps t n r low
    if sum = 0 then zero (s && t) else ofScaled (sum < 0) sum.natAbs low

/-- The difference. -/
protected def sub (a b : Double) : Double := Double.add a (neg b)

/-- The product. -/
protected def mul : Double → Double → Double
  | .nan, _ => .nan
  | _, .nan => .nan
  | .infinite s, .infinite t => .infinite (s != t)
  | .infinite s, .finite t n _ _ => if n = 0 then .nan else .infinite (s != t)
  | .finite s m _ _, .infinite t => if m = 0 then .nan else .infinite (s != t)
  | .finite s m q _, .finite t n r _ => ofScaled (s != t) (m * n) (q + r)

/-- The quotient. -/
protected def div : Double → Double → Double
  | .nan, _ => .nan
  | _, .nan => .nan
  | .infinite _, .infinite _ => .nan
  | .infinite s, .finite t _ _ _ => .infinite (s != t)
  | .finite s _ _ _, .infinite t => zero (s != t)
  | .finite s m q _, .finite t n r _ =>
    if n = 0 then if m = 0 then .nan else .infinite (s != t)
    else ofRatio (s != t) (m * twoPow (q - r).toNat) (n * twoPow (r - q).toNat)

/-- The remainder of the division that rounds towards zero. -/
protected def rem : Double → Double → Double
  | .nan, _ => .nan
  | _, .nan => .nan
  | .infinite _, _ => .nan
  | .finite s m q h, .infinite _ => .finite s m q h
  | .finite s m q _, .finite _ n r _ =>
    if n = 0 then .nan
    else
      let low := min q r
      ofScaled s (m * twoPow (q - low).toNat % (n * twoPow (r - low).toNat)) low

instance : Add Double := ⟨Double.add⟩
instance : Sub Double := ⟨Double.sub⟩
instance : Mul Double := ⟨Double.mul⟩
instance : Div Double := ⟨Double.div⟩
instance : Mod Double := ⟨Double.rem⟩
instance : Neg Double := ⟨neg⟩

/-- A finite number replaced by a natural of its sign, computed from the
    mantissa and the power of two that divides it; whole numbers stay. -/
def wholeBy (f : Bool → Nat → Nat → Nat) : Double → Double
  | .nan => .nan
  | .infinite s => .infinite s
  | .finite s m q h =>
    if 0 ≤ q then .finite s m q h else ofRatio s (f s m (twoPow (-q).toNat)) 1

/-- The greatest whole number not above. -/
def floor : Double → Double :=
  wholeBy fun negative m d => if negative then (m + d - 1) / d else m / d

/-- The whole part, fractions dropped. -/
def trunc : Double → Double := wholeBy fun _ m d => m / d

/-- The nearest whole number, a half up. -/
def round : Double → Double :=
  wholeBy fun negative m d => if negative then (2 * m + d - 1) / (2 * d) else roundHalfUp m d

/-- The integer part of a number, fractions dropped. -/
def truncInt? : Double → Option Int
  | .finite s m q _ =>
    let n := m * twoPow q.toNat / twoPow (-q).toNat
    some (if s then -(n : Int) else n)
  | _ => none

/-- Whether a number has no fraction. -/
def isInteger : Double → Bool
  | .finite _ m q _ => m % twoPow (-q).toNat == 0
  | _ => false

/-- The integer that a value is, if it is one. -/
def toInt? (x : Double) : Option Int := if x.isInteger then x.truncInt? else none

/-- Whether a value is an integer of magnitude below `2 ^ 53`. -/
def isSafeInteger (x : Double) : Bool :=
  match x.toInt? with
  | some n => n.natAbs < twoPow 53
  | none => false

end Double

end NodeWatch
