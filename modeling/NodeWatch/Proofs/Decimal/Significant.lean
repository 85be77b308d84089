import NodeWatch.Proofs.Double.Rounding

/-!
# Significant Digits

A positive quotient is written with a count of significant digits by counting
it in units of a power of ten that depends on its size. The digits are the
natural number nearest to the quotient in these units, so the decimal is at
most half a unit away, and the unit is small against the quotient: it fits
into it at least as often as the least number with that many digits says.

Rounding up may reach the next power of ten. The digits are then one too many
and the last of them, a zero, is dropped. That changes the unit but not the
number that is written, which is why the distance is measured against the
quotient and not in units.

## Main definitions

* `Decimal.value`: The number that a decimal is.

## Theorems

* `roundHalfUp_near`: A quotient is rounded by a half at most.
* `exponentOf_reached`: A quotient lies between two powers of ten.
* `significant_digits`: As many digits as were asked for.
* `significant_near`: The decimal is near to the quotient.
* `significant_again`: Rounding at the last digit gives the same digits.
-/

namespace NodeWatch

/-- The powers of ten around a number tell the count of its digits. -/
theorem digitCount_eq {n count : Nat} (hlow : 10 ^ (count - 1) ≤ n) (hhigh : n < 10 ^ count) :
    digitCount n = count := by
  have hpos : 0 < n := Nat.lt_of_lt_of_le (Nat.pow_pos (by decide)) hlow
  rcases Double.digitCount_bounds hpos with ⟨hlow', hhigh', hcount⟩
  have hle := (Nat.pow_lt_pow_iff_right (a := 10) (by decide)).mp (Nat.lt_of_le_of_lt hlow' hhigh)
  have hge := (Nat.pow_lt_pow_iff_right (a := 10) (by decide)).mp (Nat.lt_of_le_of_lt hlow hhigh')
  omega

/-- A quotient is rounded by a half at most. -/
theorem roundHalfUp_near (num : Nat) {den : Nat} (hden : 0 < den) :
    |(roundHalfUp num den : ℚ) - num / den| ≤ 1 / 2 := by
  have hden' : (0 : ℚ) < den := Nat.cast_pos.mpr hden
  have hlow : roundHalfUp num den * (2 * den) ≤ 2 * num + den := Nat.div_mul_le_self _ _
  have hhigh : 2 * num + den < (roundHalfUp num den + 1) * (2 * den) :=
    (Nat.div_lt_iff_lt_mul (by omega)).mp (Nat.lt_succ_self _)
  have hlow' : (roundHalfUp num den : ℚ) * (2 * den) ≤ 2 * num + den := by exact_mod_cast hlow
  have hhigh' : (2 * num + den : ℚ) < (roundHalfUp num den + 1) * (2 * den) := by
    exact_mod_cast hhigh
  have hnum : (num : ℚ) = num / den * den := (div_mul_cancel₀ _ hden'.ne').symm
  rw [hnum] at hlow' hhigh'
  rw [abs_le]
  constructor
  · refine le_of_mul_le_mul_right ?_ hden'
    linarith
  · refine le_of_mul_le_mul_right ?_ hden'
    linarith

namespace Decimal

/-- The number that a decimal is. -/
def value (d : Decimal) : ℚ := d.digits * 10 ^ (d.exponent + 1 - digitCount d.digits)

theorem ten_zpow_pos (p : Int) : (0 : ℚ) < 10 ^ p := zpow_pos (by norm_num) p

theorem ten_zpow_add (p q : Int) : (10 : ℚ) ^ (p + q) = 10 ^ p * 10 ^ q :=
  zpow_add₀ (by norm_num) p q

/-- A positive quotient reaches the power of ten of its exponent, and not the
    next. -/
theorem exponentOf_reached {num den : Nat} (hnum : 0 < num) (hden : 0 < den) :
    (10 : ℚ) ^ exponentOf num den ≤ num / den ∧
      (num / den : ℚ) < 10 ^ (exponentOf num den + 1) := by
  have hden' : (0 : ℚ) < den := Nat.cast_pos.mpr hden
  unfold exponentOf
  by_cases h : den ≤ num
  -- The digits of the whole part are counted.
  · rcases Double.digitCount_bounds (Nat.div_pos h hden) with ⟨hlow, hhigh, hcount⟩
    obtain ⟨c, hc⟩ : ∃ c, digitCount (num / den) = c + 1 := ⟨_, (Nat.sub_add_cancel hcount).symm⟩
    rw [hc] at hlow hhigh
    have hlow' : 10 ^ c * den ≤ num := (Nat.le_div_iff_mul_le hden).mp hlow
    have hhigh' : num < 10 ^ (c + 1) * den := (Nat.div_lt_iff_lt_mul hden).mp hhigh
    rw [if_pos h, hc, sub_add_cancel, Nat.cast_succ, add_sub_cancel_right, le_div_iff₀ hden',
      div_lt_iff₀ hden', ← Nat.cast_succ, zpow_natCast, zpow_natCast]
    exact ⟨by exact_mod_cast hlow', by exact_mod_cast hhigh'⟩
  -- The digits of what goes into the denominator without reaching it are counted.
  · rcases Double.digitCount_bounds (Nat.div_pos (show num ≤ den - 1 by omega) hnum) with
      ⟨hlow, hhigh, hcount⟩
    obtain ⟨c, hc⟩ : ∃ c, digitCount ((den - 1) / num) = c + 1 :=
      ⟨_, (Nat.sub_add_cancel hcount).symm⟩
    rw [hc] at hlow hhigh
    have hlow' : 10 ^ c * num ≤ den - 1 := (Nat.le_div_iff_mul_le hnum).mp hlow
    have hhigh' : den - 1 < 10 ^ (c + 1) * num := (Nat.div_lt_iff_lt_mul hnum).mp hhigh
    have hreach : 1 * den ≤ num * 10 ^ (c + 1) := by
      rw [Nat.mul_comm num]
      omega
    have hnext : num * 10 ^ c < 1 * den := by
      rw [Nat.mul_comm num]
      omega
    have hexponent : -((c + 1 : Nat) : Int) + 1 = -(c : Int) := by omega
    rw [if_neg h, hc, hexponent, zpow_neg, zpow_neg, zpow_natCast, zpow_natCast, inv_eq_one_div,
      inv_eq_one_div, div_le_div_iff₀ (by positivity) hden', div_lt_div_iff₀ hden' (by positivity)]
    exact ⟨by exact_mod_cast hreach, by exact_mod_cast hnext⟩

/-- A quotient in units of a power of ten. -/
theorem inUnits_eq (num den : Nat) (p : Int) :
    ((inUnits num den p).1 : ℚ) / (inUnits num den p).2 = num / den / 10 ^ p := by
  have hpow : (0 : ℚ) < (10 ^ (-p).toNat : Nat) := by positivity
  change ((num * 10 ^ (-p).toNat : Nat) : ℚ) / (den * 10 ^ p.toNat : Nat) = _
  rw [Nat.cast_mul, Nat.cast_mul, natCast_pow_toNat (by decide) p, Nat.cast_ofNat, ← mul_assoc,
    mul_div_mul_right _ _ hpow.ne', div_div]

theorem inUnits_pos (num : Nat) {den : Nat} (hden : 0 < den) (p : Int) :
    0 < (inUnits num den p).2 :=
  Nat.mul_pos hden (Nat.pow_pos (by decide))

section Significant

variable {count num den : Nat}

/-- The digits before it is known how many they are: at most one half from the
    quotient in its units, and at most one digit too many. -/
theorem units_bounds (hcount : 0 < count) (hnum : 0 < num) (hden : 0 < den) {p : Int} {n : Nat}
    (hp : p = exponentOf num den - count + 1)
    (hn : n = roundHalfUp (inUnits num den p).1 (inUnits num den p).2) :
    |(n : ℚ) - num / den / 10 ^ p| ≤ 1 / 2 ∧ 10 ^ (count - 1) ≤ n ∧ n ≤ 10 ^ count := by
  have hnear := roundHalfUp_near (inUnits num den p).1 (inUnits_pos num hden p)
  rw [inUnits_eq, ← hn] at hnear
  rcases exponentOf_reached hnum hden with ⟨hreached, hnext⟩
  have hlow : ((10 ^ (count - 1) : Nat) : ℚ) ≤ num / den / 10 ^ p := by
    rw [le_div_iff₀ (ten_zpow_pos p), Nat.cast_pow, Nat.cast_ofNat, ← zpow_natCast, ← ten_zpow_add]
    exact le_trans (zpow_le_zpow_right₀ (by norm_num) (by omega)) hreached
  have hhigh : (num / den / 10 ^ p : ℚ) < (10 ^ count : Nat) := by
    rw [div_lt_iff₀ (ten_zpow_pos p), Nat.cast_pow, Nat.cast_ofNat, ← zpow_natCast, ← ten_zpow_add]
    exact lt_of_lt_of_le hnext (zpow_le_zpow_right₀ (by norm_num) (by omega))
  rcases abs_le.mp hnear with ⟨hbelow, habove⟩
  refine ⟨hnear, ?_, ?_⟩
  · have : ((10 ^ (count - 1) : Nat) : ℚ) < (n + 1 : Nat) := by push_cast at hlow ⊢; linarith
    exact Nat.lt_succ_iff.mp (by exact_mod_cast this)
  · have : (n : ℚ) < (10 ^ count + 1 : Nat) := by push_cast at hhigh ⊢; linarith
    exact Nat.lt_succ_iff.mp (by exact_mod_cast this)

theorem significant_eq {p : Int} {n : Nat} (hp : p = exponentOf num den - count + 1)
    (hn : n = roundHalfUp (inUnits num den p).1 (inUnits num den p).2) :
    significant count num den =
      if n < 10 ^ count then ⟨n, exponentOf num den⟩ else ⟨n / 10, exponentOf num den + 1⟩ := by
  rw [hn, hp]
  rfl

/-- The digits are as many as were asked for, and the number that is written is
    the one that the quotient was rounded to. -/
theorem significant_spec (hcount : 0 < count) (hnum : 0 < num) (hden : 0 < den) {p : Int} {n : Nat}
    (hp : p = exponentOf num den - count + 1)
    (hn : n = roundHalfUp (inUnits num den p).1 (inUnits num den p).2) :
    digitCount (significant count num den).digits = count ∧
      0 < (significant count num den).digits ∧
      (significant count num den).value = n * 10 ^ p := by
  rcases units_bounds hcount hnum hden hp hn with ⟨-, hlow, hhigh⟩
  have hpos : 0 < 10 ^ (count - 1) := Nat.pow_pos (by decide)
  rw [significant_eq hp hn]
  by_cases h : n < 10 ^ count
  · have hdigits := digitCount_eq hlow h
    rw [if_pos h, value]
    refine ⟨hdigits, Nat.lt_of_lt_of_le hpos hlow, ?_⟩
    dsimp only
    rw [hdigits, hp]
    congr 2
    omega
  -- The quotient is rounded up to a power of ten, which has one digit too many.
  · have hmax : n = 10 ^ (count - 1) * 10 := by
      rw [Nat.pow_pred_mul hcount]
      omega
    have hdiv : n / 10 = 10 ^ (count - 1) := by omega
    have hdigits : digitCount (n / 10) = count := by
      rw [hdiv]
      exact digitCount_eq le_rfl (Nat.pow_lt_pow_right (by decide) (by omega))
    rw [if_neg h, value]
    refine ⟨hdigits, hdiv ▸ hpos, ?_⟩
    dsimp only
    rw [hdigits, hdiv, hmax, Nat.cast_mul, mul_assoc, Nat.cast_ofNat, ← zpow_one_add₀ (by norm_num)]
    congr 2
    omega

/-- Rounding at the place of the last digit gives the same digits. The exponent
    may have been raised by rounding up, and then the place is another one than
    the quotient was rounded at; so a fixed count of places, chosen by the
    exponent, writes no other digits. -/
theorem significant_again (hcount : 0 < count) (hnum : 0 < num) (hden : 0 < den) {p : Int}
    (hp : p = (significant count num den).exponent - count + 1) :
    roundHalfUp (inUnits num den p).1 (inUnits num den p).2
      = (significant count num den).digits := by
  obtain ⟨q, hq⟩ : ∃ q : Int, q = exponentOf num den - count + 1 := ⟨_, rfl⟩
  obtain ⟨n, hn⟩ : ∃ n, n = roundHalfUp (inUnits num den q).1 (inUnits num den q).2 := ⟨_, rfl⟩
  rcases units_bounds hcount hnum hden hq hn with ⟨hnear, -, hhigh⟩
  rw [significant_eq hq hn] at hp ⊢
  by_cases h : n < 10 ^ count
  · rw [if_pos h] at hp ⊢
    rw [hp, hn, hq]
  -- The quotient is just below the power of ten that it is rounded up to.
  · rw [if_neg h] at hp ⊢
    have hmax : n = 10 ^ (count - 1) * 10 := by
      rw [Nat.pow_pred_mul hcount]
      omega
    have hpq : p = q + 1 := by
      rw [hp, hq]
      dsimp only
      omega
    have hbelow : (num / den / 10 ^ p : ℚ) < (10 ^ (count - 1) : Nat) := by
      rw [div_lt_iff₀ (ten_zpow_pos p), Nat.cast_pow, Nat.cast_ofNat, ← zpow_natCast,
        ← ten_zpow_add]
      exact lt_of_lt_of_le (exponentOf_reached hnum hden).2
        (zpow_le_zpow_right₀ (by norm_num) (by omega))
    have hscale : (num / den / 10 ^ q : ℚ) = num / den / 10 ^ p * 10 := by
      rw [hpq, zpow_add_one₀ (by norm_num), ← div_div, div_mul_cancel₀ _ (by norm_num)]
    have hagain := roundHalfUp_near (inUnits num den p).1 (inUnits_pos num hden p)
    rw [inUnits_eq] at hagain
    rw [hscale, hmax] at hnear
    have hdiv : n / 10 = 10 ^ (count - 1) := by omega
    rw [hdiv]
    generalize roundHalfUp (inUnits num den p).1 (inUnits num den p).2 = k at hagain ⊢
    generalize (num / den / 10 ^ p : ℚ) = r at hagain hnear hbelow
    generalize 10 ^ (count - 1) = N at hnear hbelow ⊢
    -- Two natural numbers less than one apart are equal.
    by_contra hne
    have hone := Double.one_le_abs_sub hne
    rw [abs_le] at hnear hagain
    push_cast at hnear
    rcases le_abs.mp hone with hone | hone <;> linarith

/-- The decimal has as many digits as were asked for. -/
theorem significant_digits (hcount : 0 < count) (hnum : 0 < num) (hden : 0 < den) :
    digitCount (significant count num den).digits = count ∧
      0 < (significant count num den).digits := by
  rcases significant_spec hcount hnum hden rfl rfl with ⟨hdigits, hpos, -⟩
  exact ⟨hdigits, hpos⟩

/-- The decimal is near to the quotient: twice the distance is a small part of
    it, and the smaller the more digits there are. -/
theorem significant_near (hcount : 0 < count) (hnum : 0 < num) (hden : 0 < den) :
    2 * |(significant count num den).value - num / den| * 10 ^ (count - 1) ≤ (num / den : ℚ) := by
  obtain ⟨p, hp⟩ : ∃ p : Int, p = exponentOf num den - count + 1 := ⟨_, rfl⟩
  obtain ⟨n, hn⟩ : ∃ n, n = roundHalfUp (inUnits num den p).1 (inUnits num den p).2 := ⟨_, rfl⟩
  rcases units_bounds hcount hnum hden hp hn with ⟨hnear, -, -⟩
  rw [(significant_spec hcount hnum hden hp hn).2.2, abs_mul_sub (ten_zpow_pos p)]
  calc 2 * (|(n : ℚ) - num / den / 10 ^ p| * 10 ^ p) * 10 ^ (count - 1)
      ≤ 2 * (1 / 2 * 10 ^ p) * 10 ^ (count - 1) := by gcongr
    _ = (10 : ℚ) ^ (p + (count - 1 : Nat)) := by
        rw [ten_zpow_add, zpow_natCast, ← mul_assoc, mul_one_div_cancel two_ne_zero, one_mul]
    _ ≤ 10 ^ exponentOf num den := zpow_le_zpow_right₀ (by norm_num) (by omega)
    _ ≤ num / den := (exponentOf_reached hnum hden).1

end Significant

end Decimal

end NodeWatch
