import NodeWatch.Decimal.Basic
import NodeWatch.Proofs.Double.Nearest
import Mathlib.Data.Nat.Log

/-!
# Correct Rounding

A quotient is rounded in units of a power of two that depends on its size. The
mantissa is the natural number nearest to the quotient in these units, and the
power is chosen such that the mantissa fills its bits. The result is the
nearest of all doubles, not only of those with that power: the others are on
the same grid or lie below the place where the mantissas start, and the
quotient is not below that place.

Decimals are quotients, but the very great and the very small ones are not
computed as such. The infinity or the zero that is taken for them is the
nearest double all the same.

## Theorems

* `roundHalfEven_nearest`: A quotient is rounded to the nearest natural number.
* `exponent_reached`: A quotient lies between two powers of two.
* `nearest_of_grid`: The nearest double on a grid is the nearest double.
* `nearest_ofRatio`: Quotients are rounded to the nearest double.
* `nearest_ofDecimal`: Decimals are read as the nearest double.
-/

namespace NodeWatch

theorem twoPow_eq (n : Nat) : twoPow n = 2 ^ n := rfl

theorem twoPow_pos (n : Nat) : 0 < twoPow n := Nat.two_pow_pos n

theorem twoPow_add (m n : Nat) : twoPow (m + n) = twoPow m * twoPow n := Nat.pow_add 2 m n

/-- The two powers that stand for one power with an integer exponent. -/
theorem natCast_pow_toNat {b : Nat} (hb : b ≠ 0) (q : Int) :
    ((b ^ q.toNat : Nat) : ℚ) = (b : ℚ) ^ q * ((b ^ (-q).toNat : Nat) : ℚ) := by
  have hb' : (b : ℚ) ≠ 0 := Nat.cast_ne_zero.mpr hb
  rcases q.eq_nat_or_neg with ⟨n, rfl | rfl⟩
  · rw [Int.toNat_natCast, Int.toNat_neg_natCast, zpow_natCast, pow_zero, Nat.cast_one, mul_one,
      Nat.cast_pow]
  · rw [Int.neg_neg, Int.toNat_natCast, Int.toNat_neg_natCast, zpow_neg, zpow_natCast,
      Nat.cast_pow, Nat.cast_pow, pow_zero]
    exact (inv_mul_cancel₀ (pow_ne_zero n hb')).symm

/-- A distance is counted in units, or the number in units first. -/
theorem abs_mul_sub {c : ℚ} (hc : 0 < c) (a r : ℚ) : |a * c - r| = |a - r / c| * c := by
  rw [← abs_of_pos hc, ← abs_mul, abs_of_pos hc, sub_mul, div_mul_cancel₀ _ hc.ne']

/-- A quotient is rounded to at most a half, and by a half only to an even
    number. -/
theorem roundHalfEven_near (num : Nat) {den : Nat} (hden : 0 < den) :
    |(roundHalfEven num den : ℚ) - num / den| ≤ 1 / 2 ∧
      (|(roundHalfEven num den : ℚ) - num / den| = 1 / 2 → Even (roundHalfEven num den)) := by
  have hden' : (0 : ℚ) < den := Nat.cast_pos.mpr hden
  obtain ⟨f, hf⟩ : ∃ f : ℚ, f = (num % den : Nat) / den := ⟨_, rfl⟩
  have hnum : (num : ℚ) / den = (num / den : Nat) + f := by
    rw [hf, div_eq_iff hden'.ne', add_mul, div_mul_cancel₀ _ hden'.ne', mul_comm]
    exact_mod_cast (Nat.div_add_mod num den).symm
  have hpos : 0 ≤ f := by rw [hf]; positivity
  have hless : f < 1 / 2 ↔ 2 * (num % den) < den := by
    rw [hf, div_lt_div_iff₀ hden' two_pos, one_mul, mul_comm]
    exact_mod_cast Iff.rfl
  have hmore : 1 / 2 < f ↔ den < 2 * (num % den) := by
    rw [hf, div_lt_div_iff₀ two_pos hden', one_mul, mul_comm _ (2 : ℚ)]
    exact_mod_cast Iff.rfl
  have hone : f < 1 := by
    rw [hf, div_lt_one hden']
    exact_mod_cast Nat.mod_lt num hden
  rw [hnum]
  simp only [roundHalfEven]
  -- Less than a half is dropped, more than a half goes up to the next number.
  split
  · next h =>
    have := hless.mpr h
    rw [sub_add_cancel_left, abs_neg, abs_of_nonneg hpos]
    exact ⟨this.le, fun heq => absurd heq this.ne⟩
  · next h =>
    split
    · next h' =>
      have := hmore.mpr h'
      rw [Nat.cast_add, Nat.cast_one, add_sub_add_left_eq_sub, abs_of_nonneg (by linarith)]
      exact ⟨by linarith, fun heq => by linarith⟩
    -- A half goes to whichever of the two is even.
    · next h' =>
      have hhalf : f = 1 / 2 :=
        le_antisymm (not_lt.mp (mt hmore.mp h')) (not_lt.mp (mt hless.mp h))
      rw [Nat.cast_add, add_sub_add_left_eq_sub, hhalf]
      refine ⟨?_, fun _ => ?_⟩
      · rcases Nat.mod_two_eq_zero_or_one (num / den) with h2 | h2 <;> rw [h2] <;> norm_num
      · rw [Nat.even_iff]
        omega

/-- No natural number is nearer to a quotient than the one it is rounded to,
    and if another one is equally near, that one is even. -/
theorem roundHalfEven_nearest (num : Nat) {den : Nat} (hden : 0 < den) (k : Nat) :
    |(roundHalfEven num den : ℚ) - num / den| ≤ |(k : ℚ) - num / den| ∧
      (k ≠ roundHalfEven num den →
        |(k : ℚ) - num / den| = |(roundHalfEven num den : ℚ) - num / den| →
        Even (roundHalfEven num den)) := by
  rcases roundHalfEven_near num hden with ⟨hnear, heven⟩
  generalize roundHalfEven num den = n at *
  by_cases hk : k = n
  · rw [hk]
    exact ⟨le_rfl, fun hc => absurd rfl hc⟩
  -- Another natural number is at least one away.
  · have hone := Double.one_le_abs_sub hk
    have htriangle : |(k : ℚ) - n| ≤ |(k : ℚ) - num / den| + |(n : ℚ) - num / den| := by
      rw [abs_sub_comm (n : ℚ)]
      exact abs_sub_le _ _ _
    refine ⟨by linarith, fun _ heq => heven ?_⟩
    linarith

namespace Double

variable {r : ℚ}

/-- A number too great for any double is rounded to an infinity. -/
theorem nearest_infinite (negative : Bool) (h : 2 ^ (1024 : Int) ≤ r) :
    Nearest negative r (.infinite negative) := by
  refine ⟨by simp only [ne_eq, reduceCtorEq, not_false_eq_true], rfl, fun y _ => ?_, ?_⟩
  · have := magnitude_le y
    change |2 ^ (1024 : Int) - r| ≤ _
    rw [abs_of_nonpos (by linarith), abs_of_nonpos (by linarith)]
    linarith
  · exact fun _ _ _ _ => trivial

/-- A number of at most half the least double is rounded to a zero. -/
theorem nearest_zero (negative : Bool) (hr : 0 ≤ r) (h : r ≤ 2 ^ (-1075 : Int)) :
    Nearest negative r (zero negative) := by
  refine ⟨by simp only [zero, ne_eq, reduceCtorEq, not_false_eq_true], rfl, fun y hy => ?_, ?_⟩
  · have hzero : (zero negative).magnitude = 0 := by
      rw [zero, magnitude, Nat.cast_zero, zero_mul]
    rw [hzero, zero_sub, abs_neg, abs_of_nonneg hr]
    rcases magnitude_cases hy (q := -1074) le_rfl (by omega) with ⟨k, hk⟩ | ⟨hq, -⟩
    · rcases Nat.eq_zero_or_pos k with rfl | hpos
      · rw [hk, Nat.cast_zero, zero_mul, zero_sub, abs_neg]
        exact le_abs_self r
      · have hone : (1 : ℚ) ≤ k := by exact_mod_cast hpos
        have hleast := mul_le_mul_of_nonneg_right hone (two_zpow_pos (-1074)).le
        have hhalf : (2 : ℚ) ^ (-1074 : Int) = 2 * 2 ^ (-1075 : Int) := by
          rw [show (-1074 : Int) = 1 + -1075 from rfl, two_zpow_add, zpow_one]
        rw [hk]
        refine le_trans ?_ (le_abs_self _)
        linarith
    · exact absurd hq (by omega)
  · exact fun _ _ _ _ => Even.zero

/-- What is made of a mantissa, which may be the one past the canonical ones,
    and an exponent that is not too great. -/
theorem make_spec (negative : Bool) {m : Nat} {q : Int} (hm : m ≤ twoPow 53) (hlow : -1074 ≤ q)
    (hhigh : q ≤ 971) (hfull : twoPow 52 ≤ m ∨ q = -1074) :
    make negative m q ≠ .nan ∧ (make negative m q).isNegative = negative ∧
      (make negative m q).magnitude = m * 2 ^ q ∧ (Even m → (make negative m q).IsEven) := by
  have htwo : twoPow 53 = 2 * twoPow 52 := by decide
  unfold make
  split
  · next h =>
    exact ⟨by simp only [ne_eq, reduceCtorEq, not_false_eq_true], rfl, rfl, id⟩
  · next h =>
    -- The mantissa is a power of two, and half of it is canonical.
    have hmax : m = twoPow 53 := by
      by_contra hc
      exact h ⟨lt_of_le_of_ne hm hc, hlow, hhigh, hfull⟩
    have hvalue : (m : ℚ) * 2 ^ q = 2 ^ (53 + q) := by
      rw [hmax, twoPow_eq, Nat.cast_pow, Nat.cast_ofNat]
      exact two_pow_mul 53 q
    have hdiv : m / 2 = twoPow 52 := by omega
    rw [hvalue, hdiv]
    split
    · next h' =>
      refine ⟨by simp only [ne_eq, reduceCtorEq, not_false_eq_true], rfl, ?_, fun _ => ?_⟩
      · rw [magnitude, twoPow_eq, Nat.cast_pow, Nat.cast_ofNat, two_pow_mul]
        congr 1
        omega
      · exact ⟨twoPow 51, by decide⟩
    · next h' =>
      have hq : q = 971 := by
        by_contra hc
        exact h' ⟨by decide, by omega, by omega, .inl le_rfl⟩
      refine ⟨by simp only [ne_eq, reduceCtorEq, not_false_eq_true], rfl, ?_, fun _ => trivial⟩
      rw [hq]
      rfl

theorem two_zpow_log2_le {n : Nat} (hn : 0 < n) : (2 : ℚ) ^ (n.log2 : Int) ≤ n := by
  rw [zpow_natCast]
  exact_mod_cast Nat.log2_self_le (n := n) (by omega)

theorem lt_two_zpow_log2 (n : Nat) : (n : ℚ) < 2 ^ ((n.log2 : Int) + 1) := by
  rw [← Nat.cast_add_one, zpow_natCast]
  exact_mod_cast Nat.lt_log2_self (n := n)

/-- The comparison in the definition of the exponent. -/
theorem reaches_iff (num : Nat) {den : Nat} (hden : 0 < den) (e : Int) :
    den * twoPow e.toNat ≤ num * twoPow (-e).toNat ↔ (2 : ℚ) ^ e ≤ num / den := by
  have hden' : (0 : ℚ) < den := Nat.cast_pos.mpr hden
  have hpow : (0 : ℚ) < (2 ^ (-e).toNat : Nat) := by positivity
  rw [le_div_iff₀ hden', ← Nat.cast_le (α := ℚ), Nat.cast_mul, Nat.cast_mul, twoPow_eq, twoPow_eq,
    natCast_pow_toNat (by decide), ← mul_assoc, mul_le_mul_iff_left₀ hpow, mul_comm (den : ℚ),
    Nat.cast_ofNat]

/-- A quotient reaches the power of two of its exponent, and not the next. -/
theorem exponent_reached {num den : Nat} (hnum : 0 < num) (hden : 0 < den) :
    (2 : ℚ) ^ exponent num den ≤ num / den ∧ (num / den : ℚ) < 2 ^ (exponent num den + 1) := by
  have hden' : (0 : ℚ) < den := Nat.cast_pos.mpr hden
  simp only [exponent]
  split
  · next h =>
    refine ⟨(reaches_iff num hden _).mp h, ?_⟩
    calc (num : ℚ) / den
        < 2 ^ ((num.log2 : Int) + 1) / den := div_lt_div_of_pos_right (lt_two_zpow_log2 num) hden'
      _ ≤ 2 ^ ((num.log2 : Int) + 1) / 2 ^ (den.log2 : Int) :=
          div_le_div_of_nonneg_left (two_zpow_pos _).le (two_zpow_pos _) (two_zpow_log2_le hden)
      _ = 2 ^ ((num.log2 : Int) - den.log2 + 1) := by
          rw [← zpow_sub₀ (by norm_num)]
          congr 1
          omega
  · next h =>
    rw [sub_add_cancel]
    refine ⟨?_, not_le.mp (mt (reaches_iff num hden _).mpr h)⟩
    calc (2 : ℚ) ^ ((num.log2 : Int) - den.log2 - 1)
        = 2 ^ (num.log2 : Int) / 2 ^ ((den.log2 : Int) + 1) := by
          rw [← zpow_sub₀ (by norm_num)]
          congr 1
          omega
      _ ≤ num / 2 ^ ((den.log2 : Int) + 1) :=
          div_le_div_of_nonneg_right (two_zpow_log2_le hnum) (two_zpow_pos _).le
      _ ≤ num / den :=
          div_le_div_of_nonneg_left (Nat.cast_nonneg num) hden' (lt_two_zpow_log2 den).le

/-- A quotient in units of a power of two. -/
theorem units_eq (num den : Nat) (q : Int) :
    ((num * twoPow (-q).toNat : Nat) : ℚ) / (den * twoPow q.toNat : Nat) = num / den / 2 ^ q := by
  have hpow : (0 : ℚ) < (2 ^ (-q).toNat : Nat) := by positivity
  rw [Nat.cast_mul, Nat.cast_mul, twoPow_eq, twoPow_eq, natCast_pow_toNat (by decide) q,
    Nat.cast_ofNat, ← mul_assoc, mul_div_mul_right _ _ hpow.ne', div_div]

/-- The mantissa that a quotient is rounded to is nearest among all multiples
    of the power of two. -/
theorem mantissa_nearest (num : Nat) {den : Nat} (hden : 0 < den) (q : Int) :
    let n := roundHalfEven (num * twoPow (-q).toNat) (den * twoPow q.toNat)
    ∀ k : Nat, |n * 2 ^ q - (num / den : ℚ)| ≤ |k * 2 ^ q - (num / den : ℚ)| ∧
      (k ≠ n → |k * 2 ^ q - (num / den : ℚ)| = |n * 2 ^ q - (num / den : ℚ)| → Even n) := by
  intro n k
  have hpos := two_zpow_pos q
  have hnearest := roundHalfEven_nearest (num * twoPow (-q).toNat)
    (Nat.mul_pos hden (twoPow_pos q.toNat)) k
  rw [units_eq] at hnearest
  rw [abs_mul_sub hpos, abs_mul_sub hpos]
  refine ⟨mul_le_mul_of_nonneg_right hnearest.1 hpos.le, fun hk heq => ?_⟩
  exact hnearest.2 hk (mul_right_cancel₀ hpos.ne' heq)

/-- A quotient between two natural numbers is not rounded to one outside. -/
theorem roundHalfEven_bounds (num : Nat) {den low high : Nat} (hden : 0 < den)
    (hlow : (low : ℚ) ≤ num / den) (hhigh : (num / den : ℚ) < high) :
    low ≤ roundHalfEven num den ∧ roundHalfEven num den ≤ high := by
  rcases abs_le.mp (roundHalfEven_near num hden).1 with ⟨hbelow, habove⟩
  constructor
  · have : (low : ℚ) < (roundHalfEven num den + 1 : Nat) := by push_cast; linarith
    exact Nat.lt_succ_iff.mp (by exact_mod_cast this)
  · have : (roundHalfEven num den : ℚ) < (high + 1 : Nat) := by push_cast; linarith
    exact Nat.lt_succ_iff.mp (by exact_mod_cast this)

/-- The mantissa that a quotient is rounded to fills its bits, unless the power
    of two is the least there is, and may be the one past the canonical ones. -/
theorem mantissa_bounds {num den : Nat} (hnum : 0 < num) (hden : 0 < den) {q : Int}
    (hq : q = max (exponent num den - 52) (-1074)) :
    let n := roundHalfEven (num * twoPow (-q).toNat) (den * twoPow q.toNat)
    n ≤ twoPow 53 ∧ (twoPow 52 ≤ n ∨ q = -1074) := by
  intro n
  rcases exponent_reached hnum hden with ⟨hreached, hnext⟩
  have hden₂ := Nat.mul_pos hden (twoPow_pos q.toNat)
  have hhigh : (num / den / 2 ^ q : ℚ) < (twoPow 53 : Nat) := by
    rw [div_lt_iff₀ (two_zpow_pos q), twoPow_eq, Nat.cast_pow, Nat.cast_ofNat, two_pow_mul]
    exact lt_of_lt_of_le hnext (two_zpow_le (by push_cast; omega))
  have hlow : ∀ low : Nat, (low : ℚ) ≤ num / den / 2 ^ q → low ≤ n ∧ n ≤ twoPow 53 := by
    intro low h
    rw [← units_eq] at h hhigh
    exact roundHalfEven_bounds _ hden₂ h hhigh
  refine ⟨(hlow 0 ?_).2, ?_⟩
  · rw [Nat.cast_zero]
    positivity
  · rcases Int.le_total (exponent num den - 52) (-1074) with h | h
    · exact .inr (hq.trans (max_eq_right h))
    · refine .inl (hlow (twoPow 52) ?_).1
      rw [le_div_iff₀ (two_zpow_pos q), twoPow_eq, Nat.cast_pow, Nat.cast_ofNat, two_pow_mul]
      exact le_trans (two_zpow_le (by push_cast; omega)) hreached

/-- A double on a grid is the nearest one if it is nearest on the grid and the
    number is not below the place where the mantissas start. -/
theorem nearest_of_grid {x : Double} {negative : Bool} {n : Nat} {q : Int} (hx : x ≠ .nan)
    (hsign : x.isNegative = negative) (hvalue : x.magnitude = n * 2 ^ q)
    (heven : Even n → x.IsEven) (hlow : -1074 ≤ q) (hhigh : q ≤ 971)
    (hstart : 2 ^ 52 * 2 ^ q ≤ r ∨ q = -1074)
    (hnearest : ∀ k : Nat, |n * 2 ^ q - r| ≤ |k * 2 ^ q - r| ∧
      (k ≠ n → |k * 2 ^ q - r| = |n * 2 ^ q - r| → Even n)) : Nearest negative r x := by
  -- A double below the start is further away than the start, which is on the grid.
  have hbelow : ∀ y : Double, -1074 < q → y.magnitude < 2 ^ 52 * 2 ^ q →
      |n * 2 ^ q - r| < |y.magnitude - r| := by
    intro y hq hy
    rcases hstart with hr | hmin
    · have hgrid := (hnearest (2 ^ 52)).1
      rw [Nat.cast_pow, Nat.cast_ofNat] at hgrid
      refine lt_of_le_of_lt hgrid ?_
      rw [abs_of_nonpos (by linarith), abs_of_neg (by linarith)]
      linarith
    · exact absurd hmin hq.ne'
  refine ⟨hx, hsign, fun y hy => ?_, fun y hy hne heq => heven ?_⟩
  · rw [hvalue]
    rcases magnitude_cases hy hlow hhigh with ⟨k, hk⟩ | ⟨hq, hsmall⟩
    · rw [hk]
      exact (hnearest k).1
    · exact (hbelow y hq hsmall).le
  · rw [hvalue] at hne heq
    rcases magnitude_cases hy hlow hhigh with ⟨k, hk⟩ | ⟨hq, hsmall⟩
    · rw [hk] at hne heq
      exact (hnearest k).2 (fun hc => hne (by rw [hc])) heq
    · exact absurd heq (hbelow y hq hsmall).ne'

/-- Quotients are rounded to the nearest double. -/
theorem nearest_ofRatio (negative : Bool) (num : Nat) {den : Nat} (hden : 0 < den) :
    Nearest negative (num / den) (ofRatio negative num den) := by
  rcases Nat.eq_zero_or_pos num with rfl | hnum
  · rw [ofRatio, if_pos rfl, Nat.cast_zero, zero_div]
    exact nearest_zero negative le_rfl (two_zpow_pos _).le
  obtain ⟨q, hq⟩ : ∃ q : Int, q = max (exponent num den - 52) (-1074) := ⟨_, rfl⟩
  have hreached := (exponent_reached hnum hden).1
  have hnearest := mantissa_nearest num hden q
  rcases mantissa_bounds hnum hden hq with ⟨hmax, hfull⟩
  rw [ofRatio, if_neg hnum.ne']
  dsimp only
  rw [← hq]
  generalize roundHalfEven (num * twoPow (-q).toNat) (den * twoPow q.toNat) = n at *
  rcases Int.lt_or_le 971 q with hgreat | hhigh
  -- No mantissa has so great an exponent, and the quotient is past all doubles.
  · have hinfinite : make negative n q = .infinite negative := by
      rw [make, dif_neg (fun h => absurd h.2.2.1 (by omega)),
        dif_neg (fun h => absurd h.2.2.1 (by omega))]
    rw [hinfinite]
    exact nearest_infinite negative (le_trans (two_zpow_le (by omega)) hreached)
  · rcases make_spec negative hmax (by omega) hhigh hfull with ⟨hx, hsign, hvalue, heven⟩
    refine nearest_of_grid hx hsign hvalue heven (by omega) hhigh ?_ hnearest
    rcases Int.le_total (exponent num den - 52) (-1074) with h | h
    · exact .inr (by omega)
    · refine .inl (le_trans ?_ hreached)
      rw [two_pow_mul]
      exact two_zpow_le (by push_cast; omega)

/-- The decimal digits of a number enclose it between two powers of ten. -/
theorem digitCount_bounds {n : Nat} (hn : 0 < n) :
    10 ^ (digitCount n - 1) ≤ n ∧ n < 10 ^ digitCount n ∧ 0 < digitCount n := by
  have hpos : 0 < digitCount n := Nat.length_toDigits_pos
  refine ⟨?_, (Nat.length_toDigits_le_iff (by decide) hpos).mp le_rfl, hpos⟩
  by_contra hc
  rcases Nat.eq_zero_or_pos (digitCount n - 1) with h | h
  · rw [h, pow_zero] at hc
    omega
  · have := (Nat.length_toDigits_le_iff (b := 10) (by decide) h).mpr (Nat.lt_of_not_le hc)
    exact absurd this (by change ¬ digitCount n ≤ digitCount n - 1; omega)

/-- Four hundred decimal digits are more than any double has, on either side
    of the point. -/
theorem two_pow_le_ten_pow : (2 : ℚ) ^ (1075 : Int) ≤ 10 ^ (400 : Int) := by
  calc (2 : ℚ) ^ (1075 : Int)
      ≤ 2 ^ (3 * 400 : Int) := two_zpow_le (by decide)
    _ = (2 ^ (3 : Int)) ^ (400 : Int) := zpow_mul _ _ _
    _ ≤ 10 ^ (400 : Int) := zpow_le_zpow_left₀ (by decide) (two_zpow_pos 3).le (by norm_num)

/-- Decimals are read as the nearest double. -/
theorem nearest_ofDecimal (negative : Bool) (digits : Nat) (p : Int) :
    Nearest negative (digits * 10 ^ p) (ofDecimal negative digits p) := by
  rcases Nat.eq_zero_or_pos digits with rfl | hpos
  · rw [ofDecimal, if_pos rfl, Nat.cast_zero, zero_mul]
    exact nearest_zero negative le_rfl (two_zpow_pos _).le
  rcases digitCount_bounds hpos with ⟨hlow, hhigh, hcount⟩
  have hten : ∀ q : Int, (0 : ℚ) < 10 ^ q := fun q => zpow_pos (by norm_num) q
  rw [ofDecimal, if_neg hpos.ne']
  -- The sizes alone tell that a number is past all doubles, or below them.
  split
  · next h =>
    refine nearest_infinite negative ?_
    have hlow' : (10 : ℚ) ^ ((digitCount digits : Int) - 1) ≤ digits := by
      rw [show (digitCount digits : Int) - 1 = (digitCount digits - 1 : Nat) by omega, zpow_natCast]
      exact_mod_cast hlow
    calc (2 : ℚ) ^ (1024 : Int)
        ≤ 2 ^ (1075 : Int) := two_zpow_le (by decide)
      _ ≤ 10 ^ (400 : Int) := two_pow_le_ten_pow
      _ ≤ 10 ^ ((digitCount digits : Int) - 1 + p) :=
          zpow_le_zpow_right₀ (by norm_num) (by omega)
      _ = 10 ^ ((digitCount digits : Int) - 1) * 10 ^ p := zpow_add₀ (by norm_num) _ _
      _ ≤ digits * 10 ^ p := mul_le_mul_of_nonneg_right hlow' (hten p).le
  · split
    · next h =>
      refine nearest_zero negative (by positivity) ?_
      have hhigh' : (digits : ℚ) ≤ 10 ^ (digitCount digits : Int) := by
        rw [zpow_natCast]
        exact_mod_cast hhigh.le
      calc (digits : ℚ) * 10 ^ p
          ≤ 10 ^ (digitCount digits : Int) * 10 ^ p := mul_le_mul_of_nonneg_right hhigh' (hten p).le
        _ = 10 ^ ((digitCount digits : Int) + p) := (zpow_add₀ (by norm_num) _ _).symm
        _ ≤ 10 ^ (-400 : Int) := zpow_le_zpow_right₀ (by norm_num) (by omega)
        _ ≤ 2 ^ (-1075 : Int) := by
            rw [zpow_neg, zpow_neg]
            exact inv_anti₀ (two_zpow_pos 1075) two_pow_le_ten_pow
    -- What is left is computed as the quotient that it is.
    · have hratio : ((digits * tenPow p.toNat : Nat) : ℚ) / (tenPow (-p).toNat : Nat)
          = digits * 10 ^ p := by
        have hpow : (0 : ℚ) < (10 ^ (-p).toNat : Nat) := by positivity
        change ((digits * 10 ^ p.toNat : Nat) : ℚ) / (10 ^ (-p).toNat : Nat) = _
        rw [Nat.cast_mul, natCast_pow_toNat (by decide), ← mul_assoc,
          mul_div_cancel_right₀ _ hpow.ne', Nat.cast_ofNat]
      rw [← hratio]
      exact nearest_ofRatio negative _ (Nat.pow_pos (by decide))

end Double

end NodeWatch
