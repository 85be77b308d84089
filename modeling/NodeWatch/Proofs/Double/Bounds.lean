import NodeWatch.Proofs.Double.Integers

/-!
# Numbers Kept within Bounds

A position that is counted with doubles is kept within bounds by taking the
greater of it and one bound, and the lesser of that and the other. Between the
bounds sums are exact. Beyond them they need not be: past `2 ^ 53` a sum is
rounded, and it may become infinite. This does no harm. Rounding never crosses
a double, so a sum that is out of bounds stays out of bounds and is cut off as
if it were exact.

## Theorems

* `eq_of_toInt?`: An integer other than zero is one double.
* `Nearest.le_magnitude`: Rounding never crosses a double.
* `far_add`: What is left of a sum that is too great to be exact.
* `toInt?_min`, `toInt?_max`: The lesser and the greater of two integers.
* `toInt?_bounded_add`: A sum that is kept within bounds.
-/

namespace NodeWatch

namespace Double

section Bounds

variable {x y z : Double} {a b c n : Int}

theorem toInt?_ofInt (hn : n.natAbs < twoPow 53) : (ofInt n).toInt? = some n := by
  have hwhole := whole_ofRatio (n < 0) (k := n.natAbs) Nat.one_pos hn
  rw [Nat.mul_one] at hwhole
  rw [ofInt, hwhole.toInt?]
  by_cases hneg : n < 0
  · simp only [hneg, decide_true, if_true]
    congr 1
    omega
  · simp only [hneg, decide_false, Bool.false_eq_true, if_false]
    congr 1
    omega

theorem isNaN_of_toInt? (hx : x.toInt? = some a) : x.isNaN = false := by
  rcases exists_finite (isFinite_of_toInt? hx) with ⟨s, m, q, hq, rfl⟩
  rfl

/-! ### One integer, one double -/

theorem isNegative_of_toInt? (hx : x.toInt? = some n) (hn : n ≠ 0) :
    x.isNegative = decide (n < 0) := by
  rcases whole_of_toInt? hx with ⟨s, hwhole, -⟩
  have hsign := Option.some.inj (hwhole.toInt?.symm.trans hx)
  rcases hwhole with ⟨m, q, hq, rfl, -⟩
  rw [isNegative]
  cases s with
  | false =>
      rw [if_neg Bool.false_ne_true] at hsign
      exact (decide_eq_false (by omega)).symm
  | true =>
      rw [if_pos rfl] at hsign
      exact (decide_eq_true (by omega)).symm

/-- An integer other than zero is one double. -/
theorem eq_of_toInt? (hx : x.toInt? = some n) (hy : y.toInt? = some n) (hn : n ≠ 0) : x = y := by
  have hmagnitude : ∀ {z : Double}, z.toInt? = some n → z ≠ .nan ∧ z.magnitude = n.natAbs := by
    intro z hz
    rcases whole_of_toInt? hz with ⟨s, ⟨m, q, hq, rfl, hm⟩, -⟩
    exact ⟨by simp only [ne_eq, reduceCtorEq, not_false_eq_true], mul_two_zpow_iff.mpr hm⟩
  refine eq_of_magnitude (hmagnitude hx).1 (hmagnitude hy).1 ?_ ?_
  · rw [isNegative_of_toInt? hx hn, isNegative_of_toInt? hy hn]
  · rw [(hmagnitude hx).2, (hmagnitude hy).2]

/-! ### The lesser and the greater -/

/-- Integers are the same number when they are equal. -/
theorem equals_iff (hx : x.toInt? = some a) (hy : y.toInt? = some b) :
    x.equals y = true ↔ a = b := by
  constructor
  · intro h
    exact Option.some.inj (hx.symm.trans (toInt?_of_equals h hy))
  · rintro rfl
    -- They compare as less or equal, and not as less.
    rcases (le_iff hx hy).mpr le_rfl with hlt | heq
    · exact absurd ((lt_iff hx hy).mp hlt) (lt_irrefl a)
    · rw [equals, heq]
      rfl

theorem toInt?_min (hx : x.toInt? = some a) (hy : y.toInt? = some b) :
    (Double.min x y).toInt? = some (min a b) := by
  rw [Double.min, isNaN_of_toInt? hx, isNaN_of_toInt? hy, Bool.or_self,
    if_neg Bool.false_ne_true]
  rcases lt_trichotomy a b with hlt | rfl | hgt
  · rw [if_pos ((lt_iff hx hy).mpr hlt), hx, min_eq_left hlt.le]
  -- Of two zeros it does not matter which one it is.
  · rw [if_neg (fun h => lt_irrefl a ((lt_iff hx hy).mp h)),
      if_neg (fun h => lt_irrefl a ((lt_iff hy hx).mp h)), min_self]
    split
    · exact hx
    · exact hy
  · rw [if_neg (fun h => lt_asymm hgt ((lt_iff hx hy).mp h)), if_pos ((lt_iff hy hx).mpr hgt), hy,
      min_eq_right hgt.le]

theorem toInt?_max (hx : x.toInt? = some a) (hy : y.toInt? = some b) :
    (Double.max x y).toInt? = some (max a b) := by
  rw [Double.max, isNaN_of_toInt? hx, isNaN_of_toInt? hy, Bool.or_self,
    if_neg Bool.false_ne_true]
  rcases lt_trichotomy a b with hlt | rfl | hgt
  · rw [if_neg (fun h => lt_asymm hlt ((lt_iff hy hx).mp h)), if_pos ((lt_iff hx hy).mpr hlt), hy,
      max_eq_right hlt.le]
  · rw [if_neg (fun h => lt_irrefl a ((lt_iff hy hx).mp h)),
      if_neg (fun h => lt_irrefl a ((lt_iff hx hy).mp h)), max_self]
    split
    · exact hy
    · exact hx
  · rw [if_pos ((lt_iff hy hx).mpr hgt), hx, max_eq_left hgt.le]

theorem min_ofNat {m n : Nat} (hm : m < twoPow 53) (hn : n < twoPow 53) :
    Double.min (ofNat m) (ofNat n) = ofNat (min m n) := by
  have hm' := toInt?_ofNat hm
  have hn' := toInt?_ofNat hn
  rw [Double.min, isNaN_of_toInt? hm', isNaN_of_toInt? hn', Bool.or_self,
    if_neg Bool.false_ne_true]
  have hless := lt_iff hm' hn'
  have hmore := lt_iff hn' hm'
  rcases lt_trichotomy m n with hlt | rfl | hgt
  · rw [if_pos (hless.mpr (Int.ofNat_lt.mpr hlt)), Nat.min_eq_left hlt.le]
  · rw [if_neg (fun h => lt_irrefl _ (hless.mp h)), if_neg (fun h => lt_irrefl _ (hless.mp h)),
      ite_self, Nat.min_self]
  · rw [if_neg (fun h => lt_asymm hgt (Int.ofNat_lt.mp (hless.mp h))),
      if_pos (hmore.mpr (Int.ofNat_lt.mpr hgt)), Nat.min_eq_right hgt.le]

theorem min_eq_right_of_lt (hx : x.isNaN = false) (hy : y.isNaN = false) (h : y < x)
    (hnot : ¬ x < y) : Double.min x y = y := by
  rw [Double.min, hx, hy, Bool.or_self, if_neg Bool.false_ne_true, if_neg hnot, if_pos h]

theorem max_eq_left_of_lt (hx : x.isNaN = false) (hy : y.isNaN = false) (h : y < x) :
    Double.max x y = x := by
  rw [Double.max, hx, hy, Bool.or_self, if_neg Bool.false_ne_true, if_pos h]

theorem max_eq_right_of_lt (hx : x.isNaN = false) (hy : y.isNaN = false) (h : x < y)
    (hnot : ¬ y < x) : Double.max x y = y := by
  rw [Double.max, hx, hy, Bool.or_self, if_neg Bool.false_ne_true, if_neg hnot, if_pos h]

/-! ### Sums that are too great -/

/-- Rounding never crosses a double. -/
theorem Nearest.le_magnitude {negative : Bool} {r : ℚ} (h : Nearest negative r x)
    (hy : y ≠ .nan) (hle : y.magnitude ≤ r) : y.magnitude ≤ x.magnitude := by
  by_contra hc
  rw [not_le] at hc
  have hnear := h.near y hy
  rw [abs_of_nonpos (by linarith), abs_of_nonpos (by linarith)] at hnear
  linarith

theorem nearest_ofScaled (negative : Bool) (m : Nat) (q : Int) :
    Nearest negative (m * 2 ^ q) (ofScaled negative m q) := by
  have hunits := units_eq m 1 (-q)
  rw [neg_neg, Nat.one_mul, Nat.cast_one, div_one, zpow_neg, div_inv_eq_mul] at hunits
  rw [← hunits]
  exact nearest_ofRatio negative _ (twoPow_pos _)

/-- The first number past those that are exact. -/
def firstInexact : Double := .finite false (twoPow 52) 1 (by decide)

theorem magnitude_firstInexact : firstInexact.magnitude = 2 ^ 53 := by
  change ((twoPow 52 : Nat) : ℚ) * 2 ^ (1 : Int) = 2 ^ 53
  rw [twoPow_eq]
  norm_num

/-- What is left of a sum that is too great to be exact: its sign, and that it
    is too great. -/
theorem far_add (hx : x.toInt? = some a) (hy : y.toInt? = some b)
    (h : twoPow 53 ≤ (a + b).natAbs) :
    x + y ≠ .nan ∧ (x + y).isNegative = decide (a + b < 0) ∧ 2 ^ 53 ≤ (x + y).magnitude := by
  rcases exists_scaled_add hx hy with ⟨hzero, -⟩ | ⟨m, q, hsum, hunits⟩
  · rw [hzero] at h
    exact absurd h (by decide)
  · rw [hsum]
    have hnearest := nearest_ofScaled (decide (a + b < 0)) m q
    refine ⟨hnearest.number, hnearest.sign, ?_⟩
    rw [← magnitude_firstInexact]
    refine hnearest.le_magnitude (by simp only [firstInexact, ne_eq, reduceCtorEq,
      not_false_eq_true]) ?_
    rw [magnitude_firstInexact, hunits]
    exact_mod_cast h

/-- What is too great to be exact is beyond every integer that is not, on the
    side of its sign. -/
theorem beyond_of_far (hx : x ≠ .nan) (hfar : 2 ^ 53 ≤ x.magnitude) (hz : z.toInt? = some c)
    (hc : c.natAbs < twoPow 53) :
    if x.isNegative then x < z ∧ ¬ z < x else z < x ∧ ¬ x < z := by
  have hfinite := isFinite_of_toInt? hz
  have hvalue := value_of_toInt? hz
  have hbound : (-2 ^ 53 : ℚ) < c ∧ (c : ℚ) < 2 ^ 53 := by
    have htwo : ((twoPow 53 : Nat) : Int) = 2 ^ 53 := rfl
    constructor
    · exact_mod_cast (by omega : -2 ^ 53 < c)
    · exact_mod_cast (by omega : c < 2 ^ 53)
  cases x with
  | nan => exact absurd rfl hx
  | infinite s =>
      rcases exists_finite hfinite with ⟨t, n, r, hr, rfl⟩
      cases s with
      | false =>
          refine ⟨rfl, fun h => absurd (Option.some.inj h) (by decide)⟩
      | true =>
          refine ⟨rfl, fun h => absurd (Option.some.inj h) (by decide)⟩
  | finite s m q hq =>
      have hx : (finite s m q hq).isFinite = true := rfl
      rw [lt_iff_value hx hfinite, lt_iff_value hfinite hx, hvalue]
      simp only [magnitude] at hfar
      cases s with
      | false =>
          simp only [isNegative, Bool.false_eq_true, if_false, value, not_lt]
          constructor <;> linarith
      | true =>
          simp only [isNegative, if_true, value, not_lt]
          constructor <;> linarith

/-- A sum that is kept within bounds is that of the integers, however great it
    would be without them. -/
theorem toInt?_bounded_add {low high : Double} {l h : Int} (hx : x.toInt? = some a)
    (hy : y.toInt? = some b) (hlow : low.toInt? = some l) (hhigh : high.toInt? = some h)
    (hl : l.natAbs < twoPow 53) (hh : h.natAbs < twoPow 53) :
    (Double.min (Double.max (x + y) low) high).toInt? = some (min (max (a + b) l) h) := by
  by_cases hexact : (a + b).natAbs < twoPow 53
  · exact toInt?_min (toInt?_max (toInt?_add hx hy hexact) hlow) hhigh
  -- The sum is cut off at the bound that it is beyond.
  · rcases far_add hx hy (Nat.not_lt.mp hexact) with ⟨hnumber, hsign, hfar⟩
    have hnan : (x + y).isNaN = false := by
      cases hsum : x + y with
      | nan => exact absurd hsum hnumber
      | _ => rfl
    have htwo : twoPow 53 = 2 ^ 53 := rfl
    have hbeyond := beyond_of_far hnumber hfar hlow hl
    have hbeyond' := beyond_of_far hnumber hfar hhigh hh
    rw [hsign] at hbeyond hbeyond'
    by_cases hneg : a + b < 0
    · rw [decide_eq_true hneg, if_pos rfl] at hbeyond
      rw [max_eq_right_of_lt hnan (isNaN_of_toInt? hlow) hbeyond.1 hbeyond.2,
        toInt?_min hlow hhigh, max_eq_right (by omega)]
    · rw [decide_eq_false hneg, if_neg Bool.false_ne_true] at hbeyond hbeyond'
      rw [max_eq_left_of_lt hnan (isNaN_of_toInt? hlow) hbeyond.1,
        min_eq_right_of_lt hnan (isNaN_of_toInt? hhigh) hbeyond'.1 hbeyond'.2, hhigh,
        min_eq_right (by omega)]

end Bounds

end Double

end NodeWatch
