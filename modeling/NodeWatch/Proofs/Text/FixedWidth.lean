import NodeWatch.Proofs.Decimal.Significant
import NodeWatch.Proofs.Json.Floats

/-!
# Numbers in Fields of a Fixed Width

A number that is written with a fixed count of digits has zeros in front of it
when it has fewer. What is gained by them is that such numbers are in the same
order as their texts: at the first place where two of them differ the digit
decides, and what follows cannot make up for it.

That is so whatever stands behind them. Texts that are made of several numbers
in this way, the weightiest in front, are in the order of the numbers.

## Main definitions

* `Field`: A number in a field of a fixed width.

## Theorems

* `field_ofNat`, `field_padStart`: Numbers that fill their field, and others.
* `Field.lt_of_value`: Fields of different numbers.
* `Field.unique`: A number has one text of that width.
* `Field.append_lt`, `Field.mark_lt`: Texts that begin with fields.
-/

namespace NodeWatch

namespace Text

/-- A number in a field of a fixed width: as many digits, with its value. -/
structure Field (width n : Nat) (t : Text) : Prop where
  length : t.length = width
  digits : ∀ u ∈ t, u.isDigit = true
  value : digitsValue t = n

section Fields

variable {width m n : Nat} {u : CodeUnit} {s t a b : Text}

theorem isDigit_ofNat (n : Nat) : ∀ u ∈ ofNat n, u.isDigit = true :=
  fun u hu => Json.isDigit_iff.mpr ((Json.digits_ofNat n).2 u hu)

/-- A number with as many digits as there are places. -/
theorem field_ofNat (hlow : 10 ^ (width - 1) ≤ n) (hhigh : n < 10 ^ width) :
    Field width n (ofNat n) :=
  ⟨(length_ofNat n).trans (digitCount_eq hlow hhigh), isDigit_ofNat n, Json.digitsValue_ofNat n⟩

/-- A number with at most as many digits as there are places. -/
theorem field_padStart (hwidth : 0 < width) (h : n < 10 ^ width) :
    Field width n (padStart (ofNat n) width (ascii '0')) := by
  have hcount : digitCount n ≤ width := (Nat.length_toDigits_le_iff (by decide) hwidth).mpr h
  unfold padStart
  refine ⟨?_, ?_, ?_⟩
  · rw [List.length_append, List.length_replicate, length_ofNat]
    omega
  · intro u hu
    rcases List.mem_append.mp hu with hu | hu
    · exact Json.isDigit_iff.mpr (Json.digit_of_mem_zeros hu)
    · exact isDigit_ofNat n u hu
  · rw [Json.digitsValue_zeros_append, Json.digitsValue_ofNat]

/-- The first digit of a field and the number behind it. -/
theorem Field.exists_cons (h : Field (width + 1) n t) :
    ∃ u s k, t = u :: s ∧ Field width k s ∧ k < 10 ^ width ∧
      0x30 ≤ u.toNat ∧ n = (u.toNat - 0x30) * 10 ^ width + k := by
  obtain ⟨hlength, hdigits, hvalue⟩ := h
  cases t with
  | nil => exact absurd hlength (Nat.succ_ne_zero width).symm
  | cons u s =>
      rw [List.length_cons, Nat.add_right_cancel_iff] at hlength
      rw [List.forall_mem_cons] at hdigits
      have hlow : 0x30 ≤ u.toNat := UInt16.le_iff_toNat_le.mp (Json.isDigit_iff.mp hdigits.1).1
      have hrest := digitsValue_lt fun v hv => Json.isDigit_iff.mp (hdigits.2 v hv)
      rw [digitsValue_cons, hlength] at hvalue
      rw [hlength] at hrest
      exact ⟨u, s, _, rfl, ⟨hlength, hdigits.2, rfl⟩, hrest, hlow, hvalue.symm⟩

/-- The text with the lesser number comes first, whatever stands behind. -/
theorem Field.lt_of_value (hs : Field width m s) (ht : Field width n t) (h : m < n) (a b : Text) :
    s ++ a < t ++ b := by
  induction width generalizing m n s t with
  | zero =>
      -- Without a place for a digit both numbers would be zero.
      have hm := hs.value
      have hn := ht.value
      rw [List.eq_nil_of_length_eq_zero hs.length] at hm
      rw [List.eq_nil_of_length_eq_zero ht.length] at hn
      omega
  | succ width ih =>
      rcases hs.exists_cons with ⟨u, s, k, rfl, hs', hk, hu, rfl⟩
      rcases ht.exists_cons with ⟨v, t, l, rfl, ht', hl, hv, rfl⟩
      rw [List.cons_append, List.cons_append, List.cons_lt_cons_iff, UInt16.lt_iff_toNat_lt,
        ← UInt16.toNat_inj]
      rcases lt_trichotomy u.toNat v.toNat with hlt | heq | hgt
      · exact .inl hlt
      · rw [heq] at h
        exact .inr ⟨heq, ih hs' ht' (Nat.add_lt_add_iff_left.mp h)⟩
      -- A greater digit weighs more than everything behind it.
      · have hweight : (v.toNat - 0x30 + 1) * 10 ^ width ≤ (u.toNat - 0x30) * 10 ^ width :=
          Nat.mul_le_mul_right _ (by omega)
        rw [Nat.add_mul, Nat.one_mul] at hweight
        omega

/-- A number has one text of that width. -/
theorem Field.unique (hs : Field width n s) (ht : Field width n t) : s = t := by
  induction width generalizing n s t with
  | zero => rw [List.eq_nil_of_length_eq_zero hs.length, List.eq_nil_of_length_eq_zero ht.length]
  | succ width ih =>
      rcases hs.exists_cons with ⟨u, s, k, rfl, hs', hk, hu, rfl⟩
      rcases ht.exists_cons with ⟨v, t, l, rfl, ht', hl, hv, h⟩
      have hpos : 0 < 10 ^ width := Nat.pow_pos (by decide)
      -- The digit is the quotient by its weight, since the rest is less than that.
      have hdigit : u.toNat - 0x30 = v.toNat - 0x30 := by
        have hdiv := congrArg (· / 10 ^ width) h
        simpa [Nat.mul_add_div hpos, Nat.div_eq_of_lt hk, Nat.div_eq_of_lt hl, Nat.mul_comm]
          using hdiv
      rw [hdigit, Nat.add_left_cancel_iff] at h
      subst h
      rw [ih hs' ht', UInt16.toNat_inj.mp (show u.toNat = v.toNat by omega)]

/-- Texts that begin with a field are in the order of the numbers, and where these
    are the same, of what stands behind. -/
theorem Field.append_lt (hs : Field width m s) (ht : Field width n t)
    (h : m < n ∨ m = n ∧ a < b) : s ++ a < t ++ b := by
  rcases h with h | ⟨rfl, h⟩
  · exact hs.lt_of_value ht h a b
  · rw [hs.unique ht]
    exact List.append_left_lt h

/-- The same with a mark behind the fields. -/
theorem Field.mark_lt {mark : CodeUnit} (hs : Field width m s) (ht : Field width n t)
    (h : m < n ∨ m = n ∧ a < b) : s ++ mark :: a < t ++ mark :: b :=
  hs.append_lt ht (h.imp_right (And.imp_right fun h => List.cons_lt_cons_iff.mpr (.inr ⟨rfl, h⟩)))

end Fields

end Text

end NodeWatch
