import NodeWatch.Proofs.Double.Nearest

/-!
# How Far Doubles Are Apart

Two different doubles differ by more than one part in `10 ^ 16` of either. So a
number that is nearer to a double than half of that has no other double as
near, and is rounded back to the one it came from. This is the whole reason
why seventeen digits are enough.

The doubles above one are multiples of its power of two, and so are most of
those below. A mantissa has less than `10 ^ 16` values, so one step of the grid
is more than that part of it. The case that needs care is a mantissa with a
single bit. Below it the grid is twice as fine, and the step is half as wide;
but the greatest double on the finer grid has a mantissa of `2 ^ 53 - 1`, which
is still less than `10 ^ 16`.

## Theorems

* `le_of_lt_start`: The doubles below the place where mantissas start.
* `apart`: The distance to every other double.
* `nearest_of_close`: A number close to a double has it as the nearest one.
-/

namespace NodeWatch

namespace Double

section Apart

variable {y : Double} {s : Bool} {m : Nat} {q : Int} {r : ℚ}

/-- A double below the place where the mantissas of a power of two start is at
    most the greatest one of the power before. -/
theorem le_of_lt_start (hy : y ≠ .nan) (hlow : -1074 < q) (hhigh : q ≤ 971)
    (h : y.magnitude < 2 ^ 52 * 2 ^ q) : y.magnitude ≤ (2 ^ 53 - 1) * 2 ^ (q - 1) := by
  have hpos := two_zpow_pos (q - 1)
  have hstart : (2 : ℚ) ^ 52 * 2 ^ q = 2 ^ 53 * 2 ^ (q - 1) := by
    rw [two_pow_mul, two_pow_mul]
    congr 1
    push_cast
    omega
  rw [hstart] at h
  rcases magnitude_cases hy (show -1074 ≤ q - 1 by omega) (by omega) with ⟨k, hk⟩ | ⟨-, hsmall⟩
  · rw [hk] at h ⊢
    have hless : k < 2 ^ 53 := by exact_mod_cast lt_of_mul_lt_mul_right h hpos.le
    have hmost : (k : ℚ) ≤ 2 ^ 53 - 1 := by
      have : ((k + 1 : Nat) : ℚ) ≤ (2 ^ 53 : Nat) := Nat.cast_le.mpr hless
      push_cast at this
      linarith
    exact mul_le_mul_of_nonneg_right hmost hpos.le
  · refine hsmall.le.trans (mul_le_mul_of_nonneg_right ?_ hpos.le)
    norm_num

/-- Every other double is further away than one part in `10 ^ 16`. -/
theorem apart (h : Canonical m q) (hy : y ≠ .nan) (hne : y.magnitude ≠ m * 2 ^ q) :
    (m : ℚ) * 2 ^ q < 10 ^ 16 * |y.magnitude - m * 2 ^ q| := by
  have hm : (m : ℚ) < 2 ^ 53 := by exact_mod_cast h.1
  rcases magnitude_cases hy h.2.1 h.2.2.1 with ⟨k, hk⟩ | ⟨hq, hsmall⟩
  -- On the grid, the distance is at least one step.
  · have hone : (1 : ℚ) ≤ |(k : ℚ) - m| := one_le_abs_sub fun hc => hne (by rw [hk, hc])
    rw [hk, ← sub_mul, abs_mul, abs_of_pos (two_zpow_pos q), ← mul_assoc]
    refine mul_lt_mul_of_pos_right ?_ (two_zpow_pos q)
    linarith
  -- Below the grid, it is at least one step of the finer grid.
  · have hpos := two_zpow_pos (q - 1)
    have hbelow := le_of_lt_start hy hq h.2.2.1 hsmall
    have hfull : (2 : ℚ) ^ 52 ≤ m := by
      exact_mod_cast h.2.2.2.resolve_right hq.ne'
    have hfiner : (2 : ℚ) ^ q = 2 * 2 ^ (q - 1) := by
      rw [← zpow_one_add₀ (by norm_num), add_sub_cancel]
    rw [hfiner, abs_sub_comm]
    have hdistance :
        (2 * m - (2 ^ 53 - 1)) * 2 ^ (q - 1) ≤ m * (2 * 2 ^ (q - 1)) - y.magnitude := by
      linarith
    have hpart : 2 * (m : ℚ) < 10 ^ 16 * (2 * m - (2 ^ 53 - 1)) := by linarith
    calc (m : ℚ) * (2 * 2 ^ (q - 1))
        = 2 * m * 2 ^ (q - 1) := by rw [← mul_assoc, mul_comm (m : ℚ)]
      _ < 10 ^ 16 * (2 * m - (2 ^ 53 - 1)) * 2 ^ (q - 1) := mul_lt_mul_of_pos_right hpart hpos
      _ ≤ 10 ^ 16 * |m * (2 * 2 ^ (q - 1)) - y.magnitude| := by
          rw [mul_assoc]
          exact mul_le_mul_of_nonneg_left (hdistance.trans (le_abs_self _)) (by norm_num)

/-- A number close to a double has it as the nearest one, and there is no
    second double as near. -/
theorem nearest_of_close (h : Canonical m q)
    (hr : 2 * |r - m * 2 ^ q| * 10 ^ 16 ≤ m * 2 ^ q) : Nearest s r (.finite s m q h) := by
  have hcloser : ∀ y : Double, y ≠ .nan → y.magnitude ≠ m * 2 ^ q →
      |m * 2 ^ q - r| < |y.magnitude - r| := by
    intro y hy hne
    have hapart := apart h hy hne
    have htriangle : |y.magnitude - m * 2 ^ q| ≤ |y.magnitude - r| + |r - m * 2 ^ q| :=
      abs_sub_le _ _ _
    rw [abs_sub_comm]
    linarith
  refine ⟨by simp only [ne_eq, reduceCtorEq, not_false_eq_true], rfl, fun y hy => ?_, ?_⟩
  · by_cases heq : y.magnitude = m * 2 ^ q
    · rw [heq, magnitude]
    · exact (hcloser y hy heq).le
  · intro y hy hne heq
    exact absurd heq (hcloser y hy hne).ne'

end Apart

end Double

end NodeWatch
