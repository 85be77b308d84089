import NodeWatch.Proofs.Double.Bounds

/-!
# Overflow

A product is rounded once, from the exact product. Whether it is still a number
is decided by that rounding: an infinity stands where the number after the
greatest one would be, and what is nearer to this place, or half way, becomes
infinite. The half way belongs to the infinity because the mantissa of the
greatest number is odd.

## Main definitions

* `Double.greatest`: The greatest number.
* `Double.overflow`: The least number that is rounded to an infinity.

## Theorems

* `nearest_mul`: Products are rounded to the nearest double.
* `Nearest.infinite_iff`: What is rounded to an infinity.
* `mul_cases`: A product of positive numbers.
-/

namespace NodeWatch

namespace Double

/-- The greatest number. -/
def greatest : Double := .finite false (twoPow 53 - 1) 971 (by decide)

/-- The least number that is rounded to an infinity. -/
def overflow : ℚ := 2 ^ (1024 : Int) - 2 ^ (970 : Int)

section Overflow

variable {x y : Double} {negative : Bool} {r : ℚ}

/-- The middle of the greatest number and the number after it. -/
theorem overflow_middle : ∃ d : ℚ, 0 < d ∧ overflow = greatest.magnitude + d ∧
    ∀ s, (infinite s).magnitude = greatest.magnitude + d + d := by
  have hodd : ((twoPow 53 - 1 : Nat) : ℚ) = 2 ^ 53 - 1 := by
    rw [twoPow_eq]
    norm_num
  have hstep : (2 : ℚ) ^ (971 : Int) = 2 ^ (970 : Int) + 2 ^ (970 : Int) :=
    (two_pow_mul 1 970).symm.trans (by rw [pow_one, two_mul])
  have hnext : (2 : ℚ) ^ 53 * 2 ^ (971 : Int) = 2 ^ (1024 : Int) := two_pow_mul 53 971
  have hgreatest : greatest.magnitude = 2 ^ (1024 : Int) - (2 ^ (970 : Int) + 2 ^ (970 : Int)) := by
    rw [greatest, magnitude, hodd, sub_mul, hnext, one_mul, hstep]
  refine ⟨2 ^ (970 : Int), two_zpow_pos 970, ?_, fun s => ?_⟩
  · rw [overflow, hgreatest, sub_add_eq_add_sub, add_sub_add_right_eq_sub]
  · rw [hgreatest, add_assoc, sub_add_cancel]
    rfl

theorem magnitude_le_greatest (hy : y.isFinite = true) : y.magnitude ≤ greatest.magnitude := by
  obtain ⟨s, m, q, hq, rfl⟩ := exists_finite hy
  exact mul_le_mul (Nat.cast_le.mpr (Nat.le_sub_one_of_lt hq.1)) (two_zpow_le hq.2.2.1)
    (two_zpow_pos q).le (Nat.cast_nonneg _)

/-- No number is rounded to an infinity itself. -/
theorem value_lt_overflow (hx : x.isFinite = true) : x.value < overflow := by
  obtain ⟨d, hd, hmiddle, -⟩ := overflow_middle
  have hle : x.value ≤ x.magnitude := by
    obtain ⟨s, m, q, hq, rfl⟩ := exists_finite hx
    have hmantissa : (0 : ℚ) ≤ m * 2 ^ q := mul_nonneg (Nat.cast_nonneg m) (two_zpow_pos q).le
    rw [value, magnitude]
    split <;> linarith
  have hgreatest := magnitude_le_greatest hx
  rw [hmiddle]
  linarith

theorem nearest_infinite_of_overflow (negative : Bool) (h : overflow ≤ r) :
    Nearest negative r (.infinite negative) := by
  refine ⟨by simp only [ne_eq, reduceCtorEq, not_false_eq_true], rfl, fun y hy => ?_,
    fun _ _ _ _ => trivial⟩
  obtain ⟨d, hd, hmiddle, hinfinite⟩ := overflow_middle
  rw [hmiddle] at h
  cases y with
  | nan => exact absurd rfl hy
  | infinite t => exact le_rfl
  | finite t n q hq =>
      -- No number is above the middle, and the infinity is as far from it as the greatest one.
      have hle : magnitude (.finite t n q hq) ≤ greatest.magnitude := magnitude_le_greatest rfl
      rw [hinfinite, abs_of_nonpos (a := magnitude (.finite t n q hq) - r) (by linarith), abs_le]
      constructor <;> linarith

theorem Nearest.overflow_le (h : Nearest negative r (.infinite negative)) : overflow ≤ r := by
  obtain ⟨d, hd, hmiddle, hinfinite⟩ := overflow_middle
  have hnear := h.near greatest (by simp only [greatest, ne_eq, reduceCtorEq, not_false_eq_true])
  rw [hmiddle]
  -- Below the middle the greatest number would be nearer.
  by_contra hc
  rw [hinfinite, abs_of_pos (by linarith), le_abs] at hnear
  rcases hnear with hnear | hnear <;> linarith

/-- What is rounded to an infinity. -/
theorem Nearest.infinite_iff (h : Nearest negative r x) :
    x = .infinite negative ↔ overflow ≤ r := by
  constructor
  · rintro rfl
    exact h.overflow_le
  · exact fun hr => h.unique (nearest_infinite_of_overflow negative hr)

/-- Products are rounded to the nearest double. -/
theorem nearest_mul (hx : x.isFinite = true) (hy : y.isFinite = true) :
    Nearest (x.isNegative != y.isNegative) (x.magnitude * y.magnitude) (x * y) := by
  obtain ⟨s, m, q, hq, rfl⟩ := exists_finite hx
  obtain ⟨t, n, p, hp, rfl⟩ := exists_finite hy
  have hproduct : (m : ℚ) * 2 ^ q * (n * 2 ^ p) = (m * n : Nat) * 2 ^ (q + p) := by
    rw [two_zpow_add, Nat.cast_mul, mul_mul_mul_comm]
  change Nearest (s != t) (m * 2 ^ q * (n * 2 ^ p)) (ofScaled (s != t) (m * n) (q + p))
  rw [hproduct]
  exact nearest_ofScaled _ _ _

theorem value_of_isNegative (hx : x.isFinite = true) (hsign : x.isNegative = false) :
    x.value = x.magnitude := by
  obtain ⟨s, m, q, hq, rfl⟩ := exists_finite hx
  cases hsign
  rfl

/-- A product of positive numbers is a number unless it is too great. -/
theorem mul_cases (hx : x.isFinite = true) (hy : y.isFinite = true) (hxpos : 0 < x.value)
    (hypos : 0 < y.value) :
    (x.value * y.value < overflow ∧ (x * y).isFinite = true ∧ (x * y).isNegative = false) ∨
      (overflow ≤ x.value * y.value ∧ x * y = .infinite false) := by
  have hxsign := isNegative_of_pos hxpos
  have hysign := isNegative_of_pos hypos
  have hnear : Nearest false (x.value * y.value) (x * y) := by
    rw [value_of_isNegative hx hxsign, value_of_isNegative hy hysign]
    have hproduct := nearest_mul hx hy
    rwa [hxsign, hysign] at hproduct
  rcases lt_or_ge (x.value * y.value) overflow with hsmall | hlarge
  · refine .inl ⟨hsmall, ?_, hnear.sign⟩
    have hne : x * y ≠ .infinite false := mt hnear.infinite_iff.mp (not_le.mpr hsmall)
    have hnumber := hnear.number
    have hsign := hnear.sign
    cases hproduct : x * y with
    | nan => exact absurd hproduct hnumber
    | infinite s =>
        rw [hproduct] at hsign
        cases hsign
        exact absurd hproduct hne
    | finite => rfl
  · exact .inr ⟨hlarge, hnear.infinite_iff.mpr hlarge⟩

end Overflow

end Double

end NodeWatch
