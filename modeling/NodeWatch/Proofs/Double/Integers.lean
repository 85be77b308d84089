import Mathlib.Data.Rat.Floor
import NodeWatch.Proofs.Double.Whole

/-!
# Integers among Doubles

Comparing two doubles compares the numbers that they are, and sums and
differences of integers are exact as long as they stay below `2 ^ 53` in
magnitude. So whatever counts heights or places with doubles can be read as if
it counted with integers.

The operations work on mantissas that are brought to the lesser of two
exponents. `value` forgets this: it is the number that a double is, and the
mantissas are it in units of that power.

## Main definitions

* `Double.value`: The number that a finite double is.

## Theorems

* `toInt?_of_value`: A double is an integer when its number is.
* `lt_iff`, `le_iff`, `toInt?_of_equals`: Integers are compared as integers.
* `truncInt?_of_isFinite`, `toInt?_trunc`: What is left without a fraction.
* `toInt?_round`: The nearest integer.
* `toInt?_add`, `toInt?_sub`, `toInt?_mul`: Sums, differences and products of
  integers.
-/

namespace NodeWatch

namespace Double

/-- The number that a finite double is. -/
def value : Double → ℚ
  | .finite s m q _ => if s then -(m * 2 ^ q) else m * 2 ^ q
  | _ => 0

section Value

variable {x y : Double} {a b : Int}

theorem exists_finite (hx : x.isFinite = true) : ∃ s m q h, x = .finite s m q h := by
  cases x with
  | finite s m q h => exact ⟨s, m, q, h, rfl⟩
  | _ => exact absurd hx Bool.false_ne_true

/-- A signed mantissa in units of a lesser power of two. -/
theorem steps_mul (s : Bool) (m : Nat) {q low : Int} (h : low ≤ q) :
    (steps s m q low : ℚ) * 2 ^ low = if s then -((m : ℚ) * 2 ^ q) else m * 2 ^ q := by
  have hpow : ((m * twoPow (q - low).toNat : Nat) : ℚ) * 2 ^ low = m * 2 ^ q := by
    rw [two_zpow_eq h, Nat.cast_mul, mul_assoc]
    rfl
  cases s with
  | true =>
      rw [steps, if_pos rfl, if_pos rfl, Int.cast_neg, neg_mul, ← hpow]
      norm_cast
  | false =>
      rw [steps, if_neg Bool.false_ne_true, if_neg Bool.false_ne_true, ← hpow]
      norm_cast

/-- Two finite doubles are compared in units that measure both. -/
theorem exists_units (hx : x.isFinite = true) (hy : y.isFinite = true) :
    ∃ (i j : Int) (u : ℚ), 0 < u ∧ x.value = i * u ∧ y.value = j * u ∧
      compare? x y = some (compare i j) := by
  obtain ⟨s, m, q, hq, rfl⟩ := exists_finite hx
  obtain ⟨t, n, r, hr, rfl⟩ := exists_finite hy
  exact ⟨steps s m q (min q r), steps t n r (min q r), 2 ^ min q r, two_zpow_pos _,
    (steps_mul s m (min_le_left q r)).symm, (steps_mul t n (min_le_right q r)).symm, rfl⟩

theorem lt_iff_value (hx : x.isFinite = true) (hy : y.isFinite = true) :
    x < y ↔ x.value < y.value := by
  rcases exists_units hx hy with ⟨i, j, u, hu, hi, hj, hcompare⟩
  change compare? x y = some .lt ↔ x.value < y.value
  rw [hcompare, Option.some.injEq, compare_lt_iff_lt, hi, hj, mul_lt_mul_iff_left₀ hu,
    Int.cast_lt]

theorem le_iff_value (hx : x.isFinite = true) (hy : y.isFinite = true) :
    x ≤ y ↔ x.value ≤ y.value := by
  rcases exists_units hx hy with ⟨i, j, u, hu, hi, hj, hcompare⟩
  change compare? x y = some .lt ∨ compare? x y = some .eq ↔ x.value ≤ y.value
  rw [hcompare, Option.some.injEq, Option.some.injEq, compare_lt_iff_lt, compare_eq_iff_eq,
    ← le_iff_lt_or_eq, hi, hj, mul_le_mul_iff_left₀ hu, Int.cast_le]

/-! ### Integers -/

/-- A mantissa makes a natural number up, said with one power and with two. -/
theorem mul_two_zpow_iff {m k : Nat} {q : Int} :
    (m : ℚ) * 2 ^ q = k ↔ m * twoPow q.toNat = k * twoPow (-q).toNat := by
  have hpow : ((2 ^ (-q).toNat : Nat) : ℚ) ≠ 0 := by positivity
  have hcast : ((m * twoPow q.toNat : Nat) : ℚ) = m * 2 ^ q * (2 ^ (-q).toNat : Nat) := by
    rw [Nat.cast_mul, twoPow_eq, natCast_pow_toNat (by decide) q, Nat.cast_ofNat, mul_assoc]
  rw [← Nat.cast_inj (R := ℚ), hcast, Nat.cast_mul, twoPow_eq, mul_left_inj' hpow]

theorem Whole.value {s : Bool} {k : Nat} (h : Whole x s k) :
    x.value = ((if s then -(k : Int) else k : Int) : ℚ) := by
  rcases h with ⟨m, q, hq, rfl, hm⟩
  rw [Double.value, mul_two_zpow_iff.mpr hm]
  split <;> push_cast <;> rfl

theorem Whole.toInt? {s : Bool} {k : Nat} (h : Whole x s k) :
    x.toInt? = some (if s then -(k : Int) else k) := by
  have htrunc := h.truncInt?
  rcases h with ⟨m, q, hq, rfl, hm⟩
  have hint : m % twoPow (-q).toNat = 0 := by
    rcases Int.le_total 0 q with hpos | hneg
    · rw [Int.toNat_of_nonpos (by omega)]
      exact Nat.mod_one m
    · rw [Int.toNat_of_nonpos hneg] at hm
      rw [show m = k * twoPow (-q).toNat from (Nat.mul_one m).symm.trans hm]
      exact Nat.mul_mod_left _ _
  rw [Double.toInt?, isInteger, hint, beq_self_eq_true, if_pos rfl, htrunc]

theorem truncInt?_of_toInt? (h : x.toInt? = some a) : x.truncInt? = some a := by
  rcases whole_of_toInt? h with ⟨s, hwhole, -⟩
  rw [hwhole.truncInt?, ← hwhole.toInt?, h]

theorem isFinite_of_toInt? (h : x.toInt? = some a) : x.isFinite = true := by
  cases x with
  | finite => rfl
  | _ => exact absurd h (by simp [toInt?, isInteger])

theorem value_of_toInt? (h : x.toInt? = some a) : x.value = a := by
  rcases whole_of_toInt? h with ⟨s, hwhole, -⟩
  rw [hwhole.value, Int.cast_inj]
  exact Option.some.inj (hwhole.toInt?.symm.trans h)

/-- A finite double is an integer if the number that it is is one. -/
theorem toInt?_of_value (hx : x.isFinite = true) (h : x.value = a) : x.toInt? = some a := by
  obtain ⟨s, m, q, hq, rfl⟩ := exists_finite hx
  -- The sign is that of the double, which for a zero the number does not tell.
  have habs : (m : ℚ) * 2 ^ q = (a.natAbs : Nat) := by
    have hpos : (0 : ℚ) ≤ m * 2 ^ q := mul_nonneg (Nat.cast_nonneg m) (two_zpow_pos q).le
    rw [Nat.cast_natAbs, Int.cast_abs, ← h, Double.value]
    split
    · rw [abs_neg, abs_of_nonneg hpos]
    · rw [abs_of_nonneg hpos]
  have hwhole : Whole (.finite s m q hq) s a.natAbs := ⟨m, q, hq, rfl, mul_two_zpow_iff.mp habs⟩
  rw [hwhole.value, Int.cast_inj] at h
  rw [hwhole.toInt?, h]

/-- Integers are compared as integers. -/
theorem lt_iff (hx : x.toInt? = some a) (hy : y.toInt? = some b) : x < y ↔ a < b := by
  rw [lt_iff_value (isFinite_of_toInt? hx) (isFinite_of_toInt? hy), value_of_toInt? hx,
    value_of_toInt? hy, Int.cast_lt]

theorem le_iff (hx : x.toInt? = some a) (hy : y.toInt? = some b) : x ≤ y ↔ a ≤ b := by
  rw [le_iff_value (isFinite_of_toInt? hx) (isFinite_of_toInt? hy), value_of_toInt? hx,
    value_of_toInt? hy, Int.cast_le]

/-- What is the same number as an integer is that integer. -/
theorem toInt?_of_equals (h : x.equals y = true) (hy : y.toInt? = some b) :
    x.toInt? = some b := by
  have hfinite := isFinite_of_toInt? hy
  rw [equals, beq_iff_eq] at h
  -- An infinity is less or greater than what is finite.
  have hx : x.isFinite = true := by
    obtain ⟨t, n, r, hr, rfl⟩ := exists_finite hfinite
    cases x with
    | nan => exact absurd h (by simp only [compare?, reduceCtorEq, not_false_eq_true])
    | infinite s =>
        rw [compare?, Option.some.injEq] at h
        cases s <;> exact absurd h (by decide)
    | finite => rfl
  rcases exists_units hx hfinite with ⟨i, j, u, hu, hi, hj, hcompare⟩
  rw [hcompare, Option.some.injEq, compare_eq_iff_eq] at h
  refine toInt?_of_value hx ?_
  rw [hi, h, ← hj, value_of_toInt? hy]

/-- What is left of a number without its fraction is between zero and the
    number. -/
theorem truncInt?_of_isFinite (hx : x.isFinite = true) :
    ∃ n, x.truncInt? = some n ∧ (0 ≤ x.value → 0 ≤ n ∧ (n : ℚ) ≤ x.value) ∧
      (x.value < 0 → n ≤ 0) := by
  obtain ⟨s, m, q, hq, rfl⟩ := exists_finite hx
  -- The fraction is lost in a division, which makes the magnitude no greater.
  let k := m * twoPow q.toNat / twoPow (-q).toNat
  have hk : (k : ℚ) ≤ m * 2 ^ q := by
    have hpow : (0 : ℚ) < (2 ^ (-q).toNat : Nat) := by positivity
    have hdiv : ((k * twoPow (-q).toNat : Nat) : ℚ) ≤ (m * twoPow q.toNat : Nat) :=
      Nat.cast_le.mpr (Nat.div_mul_le_self _ _)
    rw [Nat.cast_mul, Nat.cast_mul, twoPow_eq, twoPow_eq, natCast_pow_toNat (by decide) q,
      Nat.cast_ofNat, ← mul_assoc] at hdiv
    exact le_of_mul_le_mul_right hdiv hpow
  cases s with
  | false =>
      refine ⟨k, rfl, fun _ => ⟨Int.natCast_nonneg k, ?_⟩, fun hneg => ?_⟩
      · exact_mod_cast hk
      · have hpos : (0 : ℚ) ≤ m * 2 ^ q := mul_nonneg (Nat.cast_nonneg m) (two_zpow_pos q).le
        exact absurd (lt_of_le_of_lt hpos hneg) (lt_irrefl _)
  | true =>
      refine ⟨-(k : Int), rfl, fun hpos => ?_, fun _ => ?_⟩
      -- Only the negative zero is not below zero.
      · have hzero : (k : ℚ) ≤ 0 := hk.trans (neg_nonneg.mp hpos)
        have hk0 : k = 0 := by exact_mod_cast hzero.antisymm (Nat.cast_nonneg k)
        rw [hk0]
        exact ⟨le_rfl, by simpa using hpos⟩
      · exact Int.neg_nonpos_of_nonneg (Int.natCast_nonneg k)

/-- A mantissa in units of a whole power is whole itself. -/
theorem mul_two_zpow_of_nonneg (m : Nat) {q : Int} (hq : 0 ≤ q) :
    (m : ℚ) * 2 ^ q = (m * 2 ^ q.toNat : Nat) := by
  have hpow : (2 : ℚ) ^ q = 2 ^ q.toNat := by
    conv_lhs => rw [← Int.toNat_of_nonneg hq, zpow_natCast]
  rw [hpow]
  push_cast
  rfl

/-- Otherwise the number is a quotient. -/
theorem mul_two_zpow_of_neg (m : Nat) {q : Int} (hq : q < 0) :
    (m : ℚ) * 2 ^ q = (m : ℚ) / (twoPow (-q).toNat : Nat) := by
  have hpow : (2 : ℚ) ^ q = ((2 : ℚ) ^ (-q).toNat)⁻¹ := by
    rw [← zpow_natCast, Int.toNat_of_nonneg (by omega), zpow_neg, inv_inv]
  rw [hpow, twoPow_eq, Nat.cast_pow, Nat.cast_ofNat, div_eq_mul_inv]

theorem isNegative_of_pos (hpos : 0 < x.value) : x.isNegative = false := by
  cases x with
  | nan => rfl
  | infinite s => exact absurd hpos (lt_irrefl 0)
  | finite s m q hq =>
      have hmantissa : (0 : ℚ) ≤ m * 2 ^ q := mul_nonneg (Nat.cast_nonneg m) (two_zpow_pos q).le
      cases s with
      | false => rfl
      | true => exact absurd (neg_pos.mp hpos) (not_lt.mpr hmantissa)

/-- A number that is not negative is replaced by the integer that a rule for
    quotients finds, if the rule keeps what is whole and does not exceed the
    mantissa. -/
theorem toInt?_wholeBy {f : Bool → Nat → Nat → Nat} {g : ℚ → Int} (hx : x.isFinite = true)
    (hsign : x.isNegative = false) (hwhole : ∀ n : Nat, g n = n)
    (hrule : ∀ m d : Nat, 0 < d → g ((m : ℚ) / d) = f false m d)
    (hfits : ∀ m d : Nat, 0 < d → m < twoPow 53 → f false m d < twoPow 53) :
    (x.wholeBy f).toInt? = some (g x.value) := by
  obtain ⟨s, m, q, hq, rfl⟩ := exists_finite hx
  cases hsign
  have hvalue : value (.finite false m q hq) = m * 2 ^ q := rfl
  unfold wholeBy
  simp only
  split
  · next hint =>
      refine toInt?_of_value rfl ?_
      rw [hvalue, mul_two_zpow_of_nonneg m hint, hwhole, Int.cast_natCast]
  · next hfraction =>
      have hd := twoPow_pos (-q).toNat
      have hnat := whole_ofRatio false Nat.one_pos (hfits m _ hd hq.1)
      rw [Nat.mul_one] at hnat
      rw [hnat.toInt?, hvalue, mul_two_zpow_of_neg m (Int.not_le.mp hfraction), hrule m _ hd]
      rfl

/-- Without its fraction a positive number is an integer. -/
theorem toInt?_trunc (hx : x.isFinite = true) (hpos : 0 < x.value) :
    x.trunc.toInt? = some ⌊x.value⌋ :=
  toInt?_wholeBy hx (isNegative_of_pos hpos) Int.floor_natCast
    (fun m d _ => Rat.floor_natCast_div_natCast m d)
    (fun m d _ hm => lt_of_le_of_lt (Nat.div_le_self m d) hm)

theorem roundHalfUp_eq (m : Nat) {d : Nat} (hd : 0 < d) :
    ⌊(m : ℚ) / d + 1 / 2⌋ = roundHalfUp m d := by
  have hd' : (d : ℚ) ≠ 0 := Nat.cast_ne_zero.mpr (by omega)
  have hsum : (m : ℚ) / d + 1 / 2 = (2 * m + d : Nat) / (2 * d : Nat) := by
    push_cast
    field_simp
  rw [hsum, Rat.floor_natCast_div_natCast, roundHalfUp, Int.natCast_ediv]

theorem roundHalfUp_lt {m d k : Nat} (hd : 0 < d) (hm : m < k) : roundHalfUp m d < k := by
  rw [roundHalfUp, Nat.div_lt_iff_lt_mul (by omega)]
  calc 2 * m + d < 2 * (m + 1) * d := by nlinarith
    _ ≤ k * (2 * d) := by nlinarith

theorem floor_add_half (n : Nat) : ⌊(n : ℚ) + 1 / 2⌋ = n := by
  rw [Int.floor_natCast_add]
  norm_num

/-- The nearest integer, of two the greater one. -/
theorem toInt?_round (hx : x.isFinite = true) (hsign : x.isNegative = false) :
    x.round.toInt? = some ⌊x.value + 1 / 2⌋ :=
  toInt?_wholeBy (g := fun r => ⌊r + 1 / 2⌋) hx hsign floor_add_half
    (fun m _ hd => roundHalfUp_eq m hd) (fun _ _ hd hm => roundHalfUp_lt hd hm)

/-! ### Sums -/

theorem whole_zero (s : Bool) : Whole (zero s) s 0 :=
  ⟨0, -1074, _, rfl, by rw [Nat.zero_mul, Nat.zero_mul]⟩

/-- A number in units of a power of two is not rounded if it is whole. -/
theorem whole_ofScaled (negative : Bool) {m k : Nat} {q : Int} (h : (m : ℚ) * 2 ^ q = k)
    (hk : k < twoPow 53) : Whole (ofScaled negative m q) negative k := by
  rw [ofScaled, mul_two_zpow_iff.mp h]
  exact whole_ofRatio negative (twoPow_pos _) hk

/-- The sum of two integers is a zero, or it is rounded from the integer that it
    should be, sign and magnitude. -/
theorem exists_scaled_add (hx : x.toInt? = some a) (hy : y.toInt? = some b) :
    a + b = 0 ∧ (x + y).toInt? = some 0 ∨
      ∃ m q, x + y = ofScaled (a + b < 0) m q ∧ (m : ℚ) * 2 ^ q = (a + b).natAbs := by
  have ha := value_of_toInt? hx
  have hb := value_of_toInt? hy
  obtain ⟨s, m, q, hq, rfl⟩ := exists_finite (isFinite_of_toInt? hx)
  obtain ⟨t, n, r, hr, rfl⟩ := exists_finite (isFinite_of_toInt? hy)
  let sum := steps s m q (min q r) + steps t n r (min q r)
  have hunits : (sum : ℚ) * 2 ^ min q r = ((a + b : Int) : ℚ) := by
    rw [Int.cast_add, add_mul, steps_mul s m (min_le_left q r),
      steps_mul t n (min_le_right q r), Int.cast_add, ← ha, ← hb]
    rfl
  have hpos := two_zpow_pos (min q r)
  by_cases hsum : sum = 0
  -- There is a negative zero, but it is the integer zero as well.
  · rw [hsum, Int.cast_zero, zero_mul, eq_comm, Int.cast_eq_zero] at hunits
    refine .inl ⟨hunits, ?_⟩
    change (if sum = 0 then zero (s && t)
      else ofScaled (sum < 0) sum.natAbs (min q r)).toInt? = some 0
    rw [if_pos hsum, (whole_zero (s && t)).toInt?]
    split <;> rfl
  -- The units carry over to the magnitude, and the sign is that of the sum.
  · have hsign : sum < 0 ↔ a + b < 0 := by
      have hscale := mul_lt_mul_iff_left₀ hpos (b := (sum : ℚ)) (c := 0)
      rw [zero_mul, hunits] at hscale
      exact_mod_cast hscale.symm
    refine .inr ⟨sum.natAbs, min q r, ?_, ?_⟩
    · change (if sum = 0 then zero (s && t)
        else ofScaled (sum < 0) sum.natAbs (min q r)) = _
      rw [if_neg hsum, decide_eq_decide.mpr hsign]
    · rw [Nat.cast_natAbs, Nat.cast_natAbs, Int.cast_abs, Int.cast_abs, ← hunits, abs_mul,
        abs_of_pos hpos]

/-- The sum of two integers is exact if it fits the mantissa. -/
theorem toInt?_add (hx : x.toInt? = some a) (hy : y.toInt? = some b)
    (h : (a + b).natAbs < twoPow 53) : (x + y).toInt? = some (a + b) := by
  rcases exists_scaled_add hx hy with ⟨hzero, hsum⟩ | ⟨m, q, hsum, hunits⟩
  · rw [hsum, hzero]
  · rw [hsum, (whole_ofScaled _ hunits h).toInt?]
    by_cases hneg : a + b < 0
    · simp only [hneg, decide_true, if_true]
      congr 1
      omega
    · simp only [hneg, decide_false, Bool.false_eq_true, if_false]
      congr 1
      omega

theorem toInt?_neg (hx : x.toInt? = some a) : (neg x).toInt? = some (-a) := by
  rcases whole_of_toInt? hx with ⟨s, ⟨m, q, hq, rfl, hm⟩, -⟩
  have hwhole : Whole (.finite s m q hq) s a.natAbs := ⟨m, q, hq, rfl, hm⟩
  have hneg : Whole (neg (.finite s m q hq)) (!s) a.natAbs := ⟨m, q, hq, rfl, hm⟩
  rw [hwhole.toInt?, Option.some.injEq] at hx
  rw [hneg.toInt?, ← hx]
  cases s <;> simp

/-- The difference of two integers is exact if it fits the mantissa. -/
theorem toInt?_sub (hx : x.toInt? = some a) (hy : y.toInt? = some b)
    (h : (a - b).natAbs < twoPow 53) : (x - y).toInt? = some (a - b) :=
  toInt?_add hx (toInt?_neg hy) h

/-- The product of two integers is exact if it fits the mantissa. -/
theorem toInt?_mul (hx : x.toInt? = some a) (hy : y.toInt? = some b)
    (h : (a * b).natAbs < twoPow 53) : (x * y).toInt? = some (a * b) := by
  rcases whole_of_toInt? hx with ⟨s, hs, -⟩
  rcases whole_of_toInt? hy with ⟨t, ht, -⟩
  rw [Int.natAbs_mul] at h
  have ha := Option.some.inj (hs.toInt?.symm.trans hx)
  have hb := Option.some.inj (ht.toInt?.symm.trans hy)
  rw [(hs.mul ht h).toInt?, ← ha, ← hb]
  cases s <;> cases t <;> simp

theorem toInt?_abs (hx : x.toInt? = some a) : x.abs.toInt? = some (a.natAbs : Int) := by
  rcases whole_of_toInt? hx with ⟨s, ⟨m, q, hq, rfl, hm⟩, -⟩
  have habs : Whole (abs (.finite s m q hq)) false a.natAbs := ⟨m, q, hq, rfl, hm⟩
  rw [habs.toInt?, if_neg Bool.false_ne_true]

theorem toInt?_ofNat {k : Nat} (hk : k < twoPow 53) : (ofNat k).toInt? = some (k : Int) :=
  (whole_ofNat hk).toInt?

theorem toInt?_zero : (0 : Double).toInt? = some 0 := toInt?_ofNat (k := 0) (by decide)

end Value

end Double

end NodeWatch
