import NodeWatch.Double.Arithmetic
import NodeWatch.Proofs.Double.Rounding
import Mathlib.Tactic.Ring

/-!
# Whole Numbers among Doubles

Whole numbers below `2 ^ 53` are doubles, and products of them that stay
below it are exact. This is what lets a program count with doubles, and what
makes a rounding disappear from a statement about naturals.

A double is whole when its mantissa and the power of two make up a natural
number without a rest. The one fact about rounding that is needed is that a
quotient without a rest is not rounded at all: the exponent is that of the
natural number, and the mantissa is the number moved to the left until it
fills its bits.

## Main definitions

* `Double.Whole`: A double is a natural number with a sign.

## Theorems

* `exponent_mul`: The exponent of a quotient without a rest.
* `whole_ofRatio`: A quotient without a rest is not rounded.
* `Whole.mul`: Products of whole numbers are exact.
* `whole_of_toInt?`: A double that is an integer is whole.
-/

namespace NodeWatch

/-- A quotient without a rest is not rounded. -/
theorem roundHalfEven_mul {k den : Nat} (hden : 0 < den) : roundHalfEven (k * den) den = k := by
  rw [roundHalfEven, Nat.mul_div_cancel k hden, Nat.mul_mod_left, if_pos (by omega)]

namespace Double

/-- A double is a natural number with a sign: its mantissa and its power of
    two make up that number without a rest. -/
def Whole (x : Double) (negative : Bool) (k : Nat) : Prop :=
  ∃ m q h, x = .finite negative m q h ∧ m * twoPow q.toNat = k * twoPow (-q).toNat

/-- The exponent of a quotient without a rest is that of the number it is,
    since both enclose the same number between two powers. -/
theorem exponent_mul {k den : Nat} (hk : 0 < k) (hden : 0 < den) :
    exponent (k * den) den = k.log2 := by
  have hden' : (den : ℚ) ≠ 0 := Nat.cast_ne_zero.mpr (by omega)
  rcases exponent_reached (Nat.mul_pos hk hden) hden with ⟨hlow, hhigh⟩
  rw [Nat.cast_mul, mul_div_cancel_right₀ _ hden'] at hlow hhigh
  have hless := (zpow_lt_zpow_iff_right₀ (by norm_num)).mp
    (lt_of_le_of_lt hlow (lt_two_zpow_log2 k))
  have hmore := (zpow_lt_zpow_iff_right₀ (by norm_num)).mp
    (lt_of_le_of_lt (two_zpow_log2_le hk) hhigh)
  omega

/-- A quotient without a rest is not rounded, if it fits the mantissa. -/
theorem whole_ofRatio (negative : Bool) {k den : Nat} (hden : 0 < den) (hk : k < twoPow 53) :
    Whole (ofRatio negative (k * den) den) negative k := by
  rcases Nat.eq_zero_or_pos k with rfl | hpos
  · rw [ofRatio, if_pos (Nat.zero_mul den)]
    exact ⟨0, -1074, _, rfl, by rw [Nat.zero_mul, Nat.zero_mul]⟩
  · have hne : k * den ≠ 0 := Nat.mul_ne_zero (by omega) (by omega)
    have hlog : k.log2 < 53 := (Nat.log2_lt (by omega)).mpr hk
    -- The mantissa is the number moved to the left until it fills its bits.
    obtain ⟨j, hj⟩ : ∃ j, k.log2 + j = 52 := ⟨52 - k.log2, by omega⟩
    have hq : max (exponent (k * den) den - 52) (-1074) = -(j : Int) := by
      rw [exponent_mul hpos hden]
      omega
    have hround : roundHalfEven (k * den * twoPow j) (den * twoPow 0) = k * twoPow j := by
      rw [show twoPow 0 = 1 from rfl, Nat.mul_one, Nat.mul_right_comm]
      exact roundHalfEven_mul hden
    have hlow : twoPow 52 ≤ k * twoPow j := by
      rw [← hj, twoPow_add]
      exact Nat.mul_le_mul_right _ (Nat.log2_self_le (by omega))
    have hhigh : k * twoPow j < twoPow 53 := by
      have hsplit : twoPow 53 = 2 ^ (k.log2 + 1) * twoPow j := by
        rw [twoPow_eq, twoPow_eq, ← Nat.pow_add]
        congr 1
        omega
      rw [hsplit]
      exact Nat.mul_lt_mul_of_pos_right Nat.lt_log2_self (twoPow_pos j)
    have hcanonical : Canonical (k * twoPow j) (-(j : Int)) :=
      ⟨hhigh, by omega, by omega, .inl hlow⟩
    refine ⟨k * twoPow j, -(j : Int), hcanonical, ?_, ?_⟩
    · rw [ofRatio, if_neg hne]
      simp only [hq, Int.neg_neg, Int.toNat_natCast, Int.toNat_neg_natCast]
      rw [hround, make, dif_pos hcanonical]
    · rw [Int.neg_neg, Int.toNat_natCast, Int.toNat_neg_natCast]
      exact Nat.mul_one _

theorem whole_ofNat {k : Nat} (hk : k < twoPow 53) : Whole (ofNat k) false k := by
  have := whole_ofRatio false (k := k) Nat.one_pos hk
  rwa [Nat.mul_one] at this

namespace Whole

variable {x y : Double} {s t : Bool} {k l : Nat}

/-- The product of two whole numbers is exact, if it fits the mantissa. -/
theorem mul (hx : Whole x s k) (hy : Whole y t l) (hkl : k * l < twoPow 53) :
    Whole (x * y) (s != t) (k * l) := by
  rcases hx with ⟨m, q, hq, rfl, hm⟩
  rcases hy with ⟨n, r, hr, rfl, hn⟩
  -- Both sides are multiplied by the powers that the factors lack.
  have hprod : m * n * twoPow (q + r).toNat = k * l * twoPow (-(q + r)).toNat := by
    have hexp : q.toNat + r.toNat + (-(q + r)).toNat
        = (-q).toNat + (-r).toNat + (q + r).toNat := by omega
    refine Nat.eq_of_mul_eq_mul_right (twoPow_pos ((-q).toNat + (-r).toNat)) ?_
    calc m * n * twoPow (q + r).toNat * twoPow ((-q).toNat + (-r).toNat)
        = m * n * twoPow ((-q).toNat + (-r).toNat + (q + r).toNat) := by
          rw [twoPow_add _ (q + r).toNat]; ring
      _ = (m * twoPow q.toNat) * (n * twoPow r.toNat) * twoPow (-(q + r)).toNat := by
          rw [← hexp, twoPow_add, twoPow_add]; ring
      _ = k * l * twoPow (-(q + r)).toNat * twoPow ((-q).toNat + (-r).toNat) := by
          rw [hm, hn, twoPow_add]; ring
  change Whole (ofScaled (s != t) (m * n) (q + r)) (s != t) (k * l)
  rw [ofScaled, hprod]
  exact whole_ofRatio _ (twoPow_pos _) hkl

theorem truncInt? (hx : Whole x s k) : x.truncInt? = some (if s then -(k : Int) else k) := by
  rcases hx with ⟨m, q, hq, rfl, hm⟩
  rw [Double.truncInt?, hm, Nat.mul_div_cancel _ (twoPow_pos _)]

end Whole

/-- A double that is an integer is whole, and its sign is that of the integer
    unless it is a zero. -/
theorem whole_of_toInt? {x : Double} {n : Int} (h : x.toInt? = some n) :
    ∃ s, Whole x s n.natAbs ∧ (s = true → n ≤ 0) := by
  cases x with
  | nan => exact absurd h (by simp [toInt?, isInteger])
  | infinite s => exact absurd h (by simp [toInt?, isInteger])
  | finite s m q hq =>
      rw [toInt?] at h
      split at h
      · next hint =>
        have hdvd : twoPow (-q).toNat ∣ m :=
          Nat.dvd_of_mod_eq_zero (by simpa [isInteger] using hint)
        rw [Double.truncInt?, Option.some.injEq] at h
        have habs : n.natAbs = m * twoPow q.toNat / twoPow (-q).toNat := by
          rw [← h]
          cases s
          · exact Int.natAbs_natCast _
          · exact (Int.natAbs_neg _).trans (Int.natAbs_natCast _)
        refine ⟨s, ⟨m, q, hq, rfl, ?_⟩, fun hs => ?_⟩
        · rw [habs, Nat.div_mul_cancel (Dvd.dvd.mul_right hdvd _)]
        · rw [← h, if_pos hs]
          exact Int.neg_nonpos_of_nonneg (Int.natCast_nonneg _)
      · exact absurd h (by simp only [reduceCtorEq, not_false_eq_true])

end Double

end NodeWatch
