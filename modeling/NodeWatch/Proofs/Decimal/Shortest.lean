import NodeWatch.Decimal.Shortest
import NodeWatch.Proofs.Double.Bounds
import NodeWatch.Proofs.Json.Floats

/-!
# The Shortest Decimal of a Whole Number

An integer below `2 ^ 53` is shown as its digits. The shortest decimal that
reads back as a double need not be the double, so this is no matter of course:
above `2 ^ 53` the digits that are shown are those of another integer now and
then.

Below it, the neighbours of an integer are at most one away from it, so what
reads back as the integer is less than one away, and a decimal that has no more
digits than the integer is an integer itself. The only such decimal that reads
back is therefore the integer, and how many digits the search tries before it
finds it depends on the zeros at the end. They are dropped from the digits when
these are found, and filled in again when the decimal is written.

## Theorems

* `exists_bits`: The mantissa of an integer.
* `readsBack_iff`: Which integers read back as an integer.
* `withDigits?_whole`: What the search finds with a count of digits.
* `shortest_whole`: What it finds at last.
* `write_whole`: How it is written.
* `display_of_toInt?`: An integer is shown as its digits.
-/

namespace NodeWatch

theorem tenPow_pos (n : Nat) : 0 < tenPow n := Nat.pow_pos (by decide)

/-- A power of ten behind a number is as many zeros. -/
theorem Text.ofNat_mul_tenPow {n : Nat} (hn : 0 < n) (p : Nat) :
    ofNat (n * tenPow p) = ofNat n ++ List.replicate p (ascii '0') := by
  induction p with
  | zero => rw [show tenPow 0 = 1 from rfl, Nat.mul_one, List.replicate_zero, List.append_nil]
  | succ p ih =>
      have hpos : 0 < n * tenPow p := Nat.mul_pos hn (tenPow_pos p)
      have hdigits := Nat.toDigits_append_toDigits (b := 10) (d := 0) (by decide) hpos (by decide)
      have hpow : n * tenPow (p + 1) = 10 * (n * tenPow p) + 0 := by
        rw [tenPow, Nat.pow_eq, Nat.pow_succ, ← Nat.mul_assoc, Nat.mul_comm, Nat.add_zero]
        rfl
      rw [hpow, ofNat, ← hdigits, List.map_append, ← ofNat, ih, List.append_assoc,
        List.replicate_succ']
      rfl

namespace Double

/-- The mantissa of an integer below `2 ^ 53` is the integer moved to the left. -/
theorem exists_bits {x : Double} {s : Bool} {k : Nat} (hx : Whole x s k) (hk : k < twoPow 53) :
    ∃ d h, x = .finite s (k * twoPow d) (-(d : Int)) h := by
  rcases hx with ⟨m, q, hq, rfl, hm⟩
  -- A mantissa that fills its bits has no room for a power of two.
  have hexponent : q ≤ 0 := by
    by_contra hpos
    have hfull : twoPow 52 ≤ m := hq.2.2.2.resolve_right (by omega)
    have htwo : twoPow 1 ≤ twoPow q.toNat := Nat.pow_le_pow_right (by decide) (by omega)
    have hlarge : twoPow 52 * twoPow 1 ≤ m * twoPow q.toNat := Nat.mul_le_mul hfull htwo
    rw [← twoPow_add, hm, Int.toNat_of_nonpos (by omega : -q ≤ 0),
      show twoPow 0 = 1 from rfl, Nat.mul_one] at hlarge
    exact absurd hk (Nat.not_lt.mpr hlarge)
  obtain ⟨d, rfl⟩ : ∃ d : Nat, q = -(d : Int) := ⟨(-q).toNat, by omega⟩
  rw [Int.toNat_neg_natCast, Int.neg_neg, Int.toNat_natCast, show twoPow 0 = 1 from rfl,
    Nat.mul_one] at hm
  subst hm
  exact ⟨d, hq, rfl⟩

end Double

namespace Decimal

section Whole

variable {k d n p : Nat}

/-- Of the integers none but the integer itself reads back as it. -/
theorem readsBack_iff : readsBack (k * twoPow d) (-(d : Int)) n p = true ↔ n * tenPow p = k := by
  have hquarters : n * tenPow p * twoPow (d + 2) = 4 * (n * tenPow p * twoPow d) := by
    rw [twoPow_add, ← Nat.mul_assoc, Nat.mul_comm]
    rfl
  have hunits : n * tenPow p * twoPow d = k * twoPow d ↔ n * tenPow p = k :=
    Nat.mul_left_inj (twoPow_pos d).ne'
  have hexponent : (2 - -(d : Int)).toNat = d + 2 := by omega
  have hnone : (-(d : Int) - 2).toNat = 0 := by omega
  unfold readsBack
  simp only [hexponent, hnone, Int.toNat_natCast, Int.toNat_neg_natCast, hquarters,
    show tenPow 0 * twoPow 0 = 1 from rfl, Nat.mul_one]
  rw [← hunits]
  generalize n * tenPow p * twoPow d = a
  generalize k * twoPow d = m
  -- Both are counted in quarters, of which the bounds are at most two away.
  split_ifs <;>
    simp only [Bool.and_eq_true, decide_eq_true_eq] <;> omega

theorem exponentOf_whole (hk : 0 < k) :
    exponentOf (k * twoPow d) (twoPow d) = digitCount k - 1 := by
  have hle : twoPow d ≤ k * twoPow d := Nat.le_mul_of_pos_left _ hk
  rw [exponentOf, if_pos hle, Nat.mul_div_cancel _ (twoPow_pos d)]

/-- With `p` digits less than the integer has there is a decimal only if the
    digits that are missing are zeros, and it has the other digits. -/
theorem withDigits?_whole (hk : 0 < k) (count : Nat) (hcount : count + p = digitCount k) :
    withDigits? (k * twoPow d) (-(d : Int)) count
      = if tenPow p ∣ k then some ⟨k / tenPow p, digitCount k - 1⟩ else none := by
  have hplace : (digitCount k : Int) - 1 - count + 1 = p := by omega
  have hunit : k * twoPow d / (twoPow d * tenPow p) = k / tenPow p := by
    rw [Nat.mul_comm k, Nat.mul_div_mul_left _ _ (twoPow_pos d)]
  -- The next decimal of that length is beyond the integer.
  have hnext : readsBack (k * twoPow d) (-(d : Int)) (k / tenPow p + 1) p = false := by
    rw [Bool.eq_false_iff, ne_eq, readsBack_iff]
    have hbeyond := Nat.lt_mul_div_succ k (tenPow_pos p)
    rw [Nat.mul_comm] at hbeyond
    exact hbeyond.ne'
  unfold withDigits? Double.quotient inUnits
  simp only [Int.toNat_neg_natCast, Int.neg_neg, Int.toNat_natCast, show twoPow 0 = 1 from rfl,
    Nat.mul_one, exponentOf_whole hk, hplace, show tenPow 0 = 1 from rfl, hunit, hnext]
  by_cases hzeros : tenPow p ∣ k
  · have hback : readsBack (k * twoPow d) (-(d : Int)) (k / tenPow p) p = true :=
      readsBack_iff.mpr (Nat.div_mul_cancel hzeros)
    rw [if_pos hzeros, hback]
  · have hback : readsBack (k * twoPow d) (-(d : Int)) (k / tenPow p) p = false := by
      rw [Bool.eq_false_iff, ne_eq, readsBack_iff]
      exact fun h => hzeros ⟨k / tenPow p, by rw [Nat.mul_comm, h]⟩
    rw [if_neg hzeros, hback]

/-- The shortest decimal has the digits of the integer, without some of the zeros
    at their end. -/
theorem shortest_whole (hk : 0 < k) (hcount : digitCount k ≤ 17) :
    ∃ p, tenPow p ∣ k ∧ shortest (k * twoPow d) (-(d : Int))
      = ⟨k / tenPow p, digitCount k - 1⟩ := by
  have hpos := (Double.digitCount_bounds hk).2.2
  -- All digits are enough, so the search ends before it gets to more of them.
  have hsplit : List.range' 1 17
      = List.range' 1 (digitCount k) ++ List.range' (1 + digitCount k) (17 - digitCount k) := by
    rw [List.range'_append_1]
    congr 1
    omega
  have hfound : ((List.range' 1 (digitCount k)).findSome?
      (withDigits? (k * twoPow d) (-(d : Int)))).isSome = true := by
    rw [List.findSome?_isSome_iff]
    refine ⟨digitCount k, List.mem_range'_1.mpr (by omega), ?_⟩
    have hall : tenPow 0 ∣ k := one_dvd k
    rw [withDigits?_whole hk (digitCount k) (p := 0) rfl, if_pos hall]
    rfl
  rcases Option.isSome_iff_exists.mp hfound with ⟨found, hfirst⟩
  rcases List.exists_of_findSome?_eq_some hfirst with ⟨count, hmem, hcase⟩
  rw [List.mem_range'_1] at hmem
  rw [withDigits?_whole hk count (p := digitCount k - count) (by omega)] at hcase
  refine ⟨digitCount k - count, ?_⟩
  by_cases hzeros : tenPow (digitCount k - count) ∣ k
  · rw [if_pos hzeros] at hcase
    refine ⟨hzeros, ?_⟩
    rw [shortest, hsplit, List.findSome?_append, hfirst, ← hcase]
    rfl
  · rw [if_neg hzeros] at hcase
    exact absurd hcase (by simp only [reduceCtorEq, not_false_eq_true])

/-- The zeros that are missing are filled in again. -/
theorem write_whole (hk : 0 < k) (hcount : digitCount k ≤ 21) (hzeros : tenPow p ∣ k) :
    write displayLayout ⟨k / tenPow p, digitCount k - 1⟩ = Text.ofNat k := by
  have hpos := (Double.digitCount_bounds hk).2.2
  have hrest : 0 < k / tenPow p := Nat.div_pos (Nat.le_of_dvd hk hzeros) (tenPow_pos p)
  obtain ⟨z, hz⟩ : ∃ z, Text.ofNat k
      = significantText ⟨k / tenPow p, digitCount k - 1⟩ ++ List.replicate z (ascii '0') := by
    rcases Json.exists_zeros (Text.ofNat (k / tenPow p)) with ⟨z, hz⟩
    refine ⟨z + p, ?_⟩
    conv_lhs => rw [← Nat.div_mul_cancel hzeros, Text.ofNat_mul_tenPow hrest, hz]
    rw [List.append_assoc, List.replicate_append_replicate]
    rfl
  have hlength := Text.length_ofNat k
  rw [hz, List.length_append, List.length_replicate] at hlength
  have hexponent : ¬ ((digitCount k : Int) - 1 < displayLayout.least ∨
      displayLayout.past ≤ (digitCount k : Int) - 1) := by
    simp only [displayLayout]
    omega
  have hplaces : ((digitCount k : Int) - 1).toNat + 1 = digitCount k := by omega
  unfold write pointAfter
  simp only [if_neg hexponent, hplaces]
  rw [if_neg (by omega), if_pos (by omega), if_pos (by omega), hz]
  simp only [displayLayout, List.append_nil]
  congr 2
  omega

end Whole

end Decimal

namespace Double

section Display

variable {x y : Double} {n : Int}

theorem display_zero (hx : x.toInt? = some 0) : x.display = "0" := by
  rcases whole_of_toInt? hx with ⟨s, ⟨m, q, hq, rfl, hm⟩, -⟩
  rw [Int.natAbs_zero, Nat.zero_mul] at hm
  have hzero : m = 0 := (Nat.mul_eq_zero.mp hm).resolve_right (twoPow_pos _).ne'
  rw [display, if_pos hzero]

/-- The text of an integer does not tell the zeros apart. -/
theorem display_eq (hx : x.toInt? = some n) (hy : y.toInt? = some n) : x.display = y.display := by
  by_cases hn : n = 0
  · rw [hn] at hx hy
    rw [display_zero hx, display_zero hy]
  · rw [eq_of_toInt? hx hy hn]

/-- An integer below `2 ^ 53` is shown as its digits. -/
theorem display_of_toInt? (hx : x.toInt? = some n) (hn : n.natAbs < twoPow 53) :
    x.display = Text.ofInt n := by
  by_cases hzero : n = 0
  · rw [hzero] at hx ⊢
    exact display_zero hx
  · have hpos : 0 < n.natAbs := Int.natAbs_pos.mpr hzero
    have hsign := isNegative_of_toInt? hx hzero
    rcases whole_of_toInt? hx with ⟨s, hwhole, -⟩
    rcases exists_bits hwhole hn with ⟨d, h, rfl⟩
    have hcount : digitCount n.natAbs ≤ 16 := by
      refine (Nat.length_toDigits_le_iff (by decide) (by decide)).mpr (lt_of_lt_of_le hn ?_)
      decide
    rcases Decimal.shortest_whole (d := d) hpos (by omega) with ⟨p, hzeros, hshortest⟩
    have hmantissa : n.natAbs * twoPow d ≠ 0 := (Nat.mul_pos hpos (twoPow_pos d)).ne'
    rw [display, if_neg hmantissa, hshortest, Decimal.write_whole hpos (by omega) hzeros]
    rw [isNegative] at hsign
    cases n with
    | ofNat k =>
        rw [hsign]
        rfl
    | negSucc k =>
        rw [hsign, decide_eq_true (Int.negSucc_lt_zero k), if_pos rfl]
        rfl

end Display

end Double

end NodeWatch
