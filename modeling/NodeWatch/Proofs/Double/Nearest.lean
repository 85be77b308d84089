import NodeWatch.Double.Basic
import Mathlib.Algebra.Order.Field.Power
import Mathlib.Data.Rat.Cast.Order
import Mathlib.Tactic.Linarith
import Mathlib.Tactic.Positivity

/-!
# The Nearest Double

What it means to round correctly, said without rounding: of all doubles the
nearest one, and of two equally near the one with the even mantissa. An
infinity takes part where the number after the greatest one would be, which
is how a number too great for any double is decided.

Nothing is left open by this. Two different doubles that are both nearest
would be neighbours, and of two neighbours only one is even. The argument
looks at the doubles on a grid, the multiples of one power of two: every
double is on the grid or lies below the place where the mantissas of that
power start.

## Main definitions

* `Double.magnitude`: The number that a double is, without its sign.
* `Double.IsEven`: A double has an even mantissa.
* `Double.Nearest`: A double is the nearest one.

## Theorems

* `magnitude_cases`: Doubles on a grid.
* `magnitude_eq_next`: There is no double between one and the next.
* `eq_of_magnitude`: A double is told by its sign and its magnitude.
* `Nearest.unique`: There is one nearest double.
-/

namespace NodeWatch

namespace Double

/-- The number that a double is, without its sign. An infinity stands where
    the number after the greatest one would be. -/
def magnitude : Double → ℚ
  | .nan => 0
  | .infinite _ => 2 ^ (1024 : Int)
  | .finite _ m q _ => m * 2 ^ q

/-- A double has an even mantissa; an infinity counts as even. -/
def IsEven : Double → Prop
  | .finite _ m _ _ => Even m
  | _ => True

/-- A double is the nearest one to a number of a given sign and magnitude, and
    the even one if there are two. -/
structure Nearest (negative : Bool) (r : ℚ) (x : Double) : Prop where
  number : x ≠ .nan
  sign : x.isNegative = negative
  near : ∀ y : Double, y ≠ .nan → |x.magnitude - r| ≤ |y.magnitude - r|
  even : ∀ y : Double, y ≠ .nan → y.magnitude ≠ x.magnitude →
    |y.magnitude - r| = |x.magnitude - r| → x.IsEven

theorem two_zpow_pos (q : Int) : (0 : ℚ) < 2 ^ q := zpow_pos (by norm_num) q

theorem two_zpow_le {p q : Int} (h : p ≤ q) : (2 : ℚ) ^ p ≤ 2 ^ q :=
  zpow_le_zpow_right₀ (by norm_num) h

theorem two_zpow_add (p q : Int) : (2 : ℚ) ^ (p + q) = 2 ^ p * 2 ^ q :=
  zpow_add₀ (by norm_num) p q

theorem two_pow_mul (k : Nat) (q : Int) : (2 : ℚ) ^ k * 2 ^ q = 2 ^ (k + q) := by
  rw [two_zpow_add, zpow_natCast]

/-- A greater power of two is a multiple of a lesser one. -/
theorem two_zpow_eq {p q : Int} (h : q ≤ p) : (2 : ℚ) ^ p = (2 ^ (p - q).toNat : Nat) * 2 ^ q := by
  have hp : p = ((p - q).toNat : Int) + q := by omega
  conv_lhs => rw [hp]
  rw [two_zpow_add, zpow_natCast, Nat.cast_pow, Nat.cast_ofNat]

/-- Different natural numbers are at least one apart. -/
theorem one_le_abs_sub {m n : Nat} (h : m ≠ n) : (1 : ℚ) ≤ |(m : ℚ) - n| := by
  have : (1 : Int) ≤ |(m : Int) - n| := Int.one_le_abs (by omega)
  exact_mod_cast this

section Grid

variable {x y : Double} {s t : Bool} {m n : Nat} {q r : Int}

theorem magnitude_lt (hm : m < twoPow 53) (hq : q < r) : (m : ℚ) * 2 ^ q < 2 ^ 52 * 2 ^ r := by
  have hm' : (m : ℚ) < 2 ^ 53 := by exact_mod_cast hm
  calc (m : ℚ) * 2 ^ q < 2 ^ 53 * 2 ^ q := mul_lt_mul_of_pos_right hm' (two_zpow_pos q)
    _ = 2 ^ 52 * 2 ^ (q + 1) := by
        rw [two_pow_mul, two_pow_mul]
        congr 1
        push_cast
        omega
    _ ≤ 2 ^ 52 * 2 ^ r := mul_le_mul_of_nonneg_left (two_zpow_le hq) (by positivity)

/-- No double is greater than an infinity, and a finite one is less. -/
theorem magnitude_lt_infinite (hm : m < twoPow 53) (hq : q ≤ 971) :
    (m : ℚ) * 2 ^ q < 2 ^ (1024 : Int) := by
  calc (m : ℚ) * 2 ^ q < 2 ^ 52 * 2 ^ (972 : Int) := magnitude_lt hm (by omega)
    _ = 2 ^ (1024 : Int) := two_pow_mul 52 972

theorem magnitude_le (y : Double) : y.magnitude ≤ 2 ^ (1024 : Int) := by
  cases y with
  | nan => exact (two_zpow_pos 1024).le
  | infinite s => exact le_rfl
  | finite s m q h => exact (magnitude_lt_infinite h.1 h.2.2.1).le

/-- Doubles on a grid. Every double is a multiple of the power of two, or it
    is less than the mantissas of that power start with. -/
theorem magnitude_cases (hy : y ≠ .nan) (hlow : -1074 ≤ q) (hhigh : q ≤ 971) :
    (∃ k : Nat, y.magnitude = k * 2 ^ q) ∨ -1074 < q ∧ y.magnitude < 2 ^ 52 * 2 ^ q := by
  cases y with
  | nan => exact absurd rfl hy
  | infinite s =>
      refine .inl ⟨2 ^ (1024 - q).toNat, ?_⟩
      exact two_zpow_eq (by omega)
  | finite s m r h =>
      rcases Int.lt_or_le r q with hr | hr
      · exact .inr ⟨lt_of_le_of_lt h.2.1 hr, magnitude_lt h.1 hr⟩
      · refine .inl ⟨m * 2 ^ (r - q).toNat, ?_⟩
        rw [magnitude, two_zpow_eq hr, Nat.cast_mul, mul_assoc]

/-- The mantissas of a power of two start with a full one, unless it is the
    least power there is. -/
theorem start_le (h : Canonical m q) (hq : -1074 < q) : 2 ^ 52 * 2 ^ q ≤ (m : ℚ) * 2 ^ q := by
  refine mul_le_mul_of_nonneg_right ?_ (two_zpow_pos q).le
  rcases h.2.2.2 with hfull | hmin
  · exact_mod_cast hfull
  · exact absurd hmin hq.ne'

/-- There is no double between one and the next. -/
theorem magnitude_eq_next (h : Canonical m q) (hy : y ≠ .nan) (hlow : m * 2 ^ q < y.magnitude)
    (hhigh : y.magnitude ≤ (m + 1 : Nat) * 2 ^ q) : y.magnitude = (m + 1 : Nat) * 2 ^ q := by
  rcases magnitude_cases hy h.2.1 h.2.2.1 with ⟨k, hk⟩ | ⟨hq, hsmall⟩
  · rw [hk] at hlow hhigh
    have hklow : m < k := by exact_mod_cast lt_of_mul_lt_mul_right hlow (two_zpow_pos q).le
    have hkhigh : k ≤ m + 1 := by exact_mod_cast le_of_mul_le_mul_right hhigh (two_zpow_pos q)
    rw [hk, show k = m + 1 by omega]
  · exact absurd hlow (not_lt.mpr (hsmall.le.trans (start_le h hq)))

/-- Equal numbers are written in one way. -/
theorem canonical_unique (h : Canonical m q) (h' : Canonical n r)
    (heq : (m : ℚ) * 2 ^ q = n * 2 ^ r) : m = n ∧ q = r := by
  -- The greater of two exponents would leave a mantissa that is too small.
  have hle : ∀ {m n : Nat} {q r : Int}, Canonical m q → Canonical n r →
      (m : ℚ) * 2 ^ q = n * 2 ^ r → r ≤ q := by
    intro m n q r h h' heq
    by_contra hc
    have hlt := magnitude_lt h.1 (Int.not_le.mp hc)
    rw [heq] at hlt
    exact absurd hlt (not_lt.mpr (start_le h' (lt_of_le_of_lt h.2.1 (Int.not_le.mp hc))))
  have hq : q = r := Int.le_antisymm (hle h' h heq.symm) (hle h h' heq)
  subst hq
  exact ⟨Nat.cast_injective (mul_right_cancel₀ (two_zpow_pos q).ne' heq), rfl⟩

/-- A double is told by its sign and its magnitude. -/
theorem eq_of_magnitude (hx : x ≠ .nan) (hy : y ≠ .nan) (hsign : x.isNegative = y.isNegative)
    (heq : x.magnitude = y.magnitude) : x = y := by
  cases x with
  | nan => exact absurd rfl hx
  | infinite s =>
      cases y with
      | nan => exact absurd rfl hy
      | infinite t => exact congrArg infinite hsign
      | finite t n r h => exact absurd heq (magnitude_lt_infinite h.1 h.2.2.1).ne'
  | finite s m q h =>
      cases y with
      | nan => exact absurd rfl hy
      | infinite t => exact absurd heq (magnitude_lt_infinite h.1 h.2.2.1).ne
      | finite t n r h' =>
          cases hsign
          rcases canonical_unique h h' heq with ⟨rfl, rfl⟩
          rfl

end Grid

/-! ### There is one nearest double -/

section Unique

variable {x y : Double} {negative : Bool} {r : ℚ}

/-- Of two different numbers equally near, one is above and one below. -/
theorem between_of_equally_near {a b r : ℚ} (h : |a - r| = |b - r|) (hab : a < b) :
    a + b = 2 * r := by
  rcases abs_eq_abs.mp h with h | h <;> linarith

/-- What lies between two numbers equally near is nearer. -/
theorem nearer_of_between {a b c r : ℚ} (h : a + b = 2 * r) (hac : a < c) (hcb : c < b) :
    |c - r| < |a - r| := by
  rw [abs_of_neg (a := a - r) (by linarith), abs_lt]
  constructor <;> linarith

/-- A greater double that is nearest as well leaves no room in between, so it
    is the neighbour and one of the two is odd. -/
theorem Nearest.not_magnitude_lt (hx : Nearest negative r x) (hy : Nearest negative r y) :
    ¬ x.magnitude < y.magnitude := by
  intro hlt
  have heq : |x.magnitude - r| = |y.magnitude - r| :=
    le_antisymm (hx.near y hy.number) (hy.near x hx.number)
  have hxeven := hx.even y hy.number hlt.ne' heq.symm
  have hyeven := hy.even x hx.number hlt.ne heq
  have hmiddle := between_of_equally_near heq hlt
  cases x with
  | nan => exact absurd rfl hx.number
  | infinite s => exact absurd hlt (not_lt.mpr (magnitude_le y))
  | finite s m q h =>
      have hm : Even m := hxeven
      have hodd : m + 1 < twoPow 53 := by
        have := h.1
        have htwo : twoPow 53 = 2 * twoPow 52 := by decide
        rcases hm with ⟨k, rfl⟩
        omega
      have hnext : Canonical (m + 1) q :=
        ⟨hodd, h.2.1, h.2.2.1, h.2.2.2.imp (fun hfull => by omega) id⟩
      -- The next double is not nearer, so it is not in between.
      have hnot : y.magnitude ≤ (m + 1 : Nat) * 2 ^ q := by
        by_contra hc
        have hnear := hx.near (.finite false (m + 1) q hnext) (by simp only [ne_eq, reduceCtorEq,
          not_false_eq_true])
        refine absurd (nearer_of_between hmiddle ?_ (lt_of_not_ge hc)) (not_lt.mpr hnear)
        exact mul_lt_mul_of_pos_right (by exact_mod_cast Nat.lt_succ_self m) (two_zpow_pos q)
      have hneighbour : y = .finite y.isNegative (m + 1) q hnext :=
        eq_of_magnitude hy.number (by simp only [ne_eq, reduceCtorEq, not_false_eq_true]) rfl
          (magnitude_eq_next h hy.number hlt hnot)
      rw [hneighbour] at hyeven
      exact Nat.even_add_one.mp hyeven hm

/-- There is one nearest double. -/
theorem Nearest.unique (hx : Nearest negative r x) (hy : Nearest negative r y) : x = y := by
  refine eq_of_magnitude hx.number hy.number (hx.sign.trans hy.sign.symm) ?_
  exact le_antisymm (not_lt.mp (hy.not_magnitude_lt hx)) (not_lt.mp (hx.not_magnitude_lt hy))

end Unique

end Double

end NodeWatch
