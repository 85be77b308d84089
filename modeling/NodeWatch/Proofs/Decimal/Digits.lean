import NodeWatch.Decimal.Numeral
import NodeWatch.Proofs.Json.Floats

/-!
# Numerals Made of Digits

A numeral may have blanks around it, a sign, a point, an exponent and a letter
for its base, and it may be the word for infinity. When it is nothing but
decimal digits none of this is there, and its value is the number that the
digits write, leading zeros included.

The value of a decimal is put together with a count of its digits, which keeps
numbers beyond the greatest double from being computed. A few hundred digits are
never beyond it.

## Theorems

* `Text.trim_digits`, `Numeral.splitDigits_digits`: Digits are left alone.
* `digitCount_le`: A number has no more digits than its numeral.
* `Double.ofNumeral_digits`: The value of digits.
-/

namespace NodeWatch

section Digits

variable {u v : CodeUnit} {t : Text}

theorem CodeUnit.ne_of_digit (hu : u.isDigit = true) (hv : v.isDigit = false) : u ≠ v := by
  rintro rfl
  exact Bool.false_ne_true (hv.symm.trans hu)

theorem CodeUnit.isBlank_digit (h : u.isDigit = true) : u.isBlank = false := by
  have hbounds := Json.isDigit_iff.mp h
  simp only [CodeUnit.isBlank, Bool.or_eq_false_iff, Bool.and_eq_false_iff, beq_eq_false_iff_ne,
    decide_eq_false_iff_not, ne_eq, ← UInt16.toNat_inj, UInt16.le_iff_toNat_le,
    UInt16.toNat_ofNat] at hbounds ⊢
  omega

theorem Text.trim_digits (h : ∀ u ∈ t, u.isDigit = true) : t.trim = t := by
  have hstart : ∀ {s : Text}, (∀ u ∈ s, u.isDigit = true) → s.trimStart = s := by
    intro s hs
    cases s with
    | nil => rfl
    | cons u s =>
        rw [trimStart, List.dropWhile_cons_of_neg]
        rw [CodeUnit.isBlank_digit (hs u List.mem_cons_self)]
        exact Bool.false_ne_true
  rw [trim, hstart h, hstart fun u hu => h u (List.mem_reverse.mp hu), List.reverse_reverse]

namespace Numeral

theorem splitDigits_digits (h : ∀ u ∈ t, u.isDigit = true) : splitDigits t = (t, []) := by
  rw [splitDigits, List.takeWhile_eq_self_iff.mpr h, List.dropWhile_eq_nil_iff.mpr h]

theorem base?_digit (h : u.isDigit = true) : base? u = none := by
  have hletter : ∀ {v : CodeUnit}, v.isDigit = false → u ≠ v := CodeUnit.ne_of_digit h
  rw [base?, if_neg (not_or.mpr ⟨hletter rfl, hletter rfl⟩),
    if_neg (not_or.mpr ⟨hletter rfl, hletter rfl⟩), if_neg (not_or.mpr ⟨hletter rfl, hletter rfl⟩)]

theorem signed?_digits (hne : t ≠ []) (h : ∀ u ∈ t, u.isDigit = true) :
    signed? t = some (Double.ofDecimal false (Text.digitsValue t) 0) := by
  rcases List.exists_cons_of_ne_nil hne with ⟨u, s, rfl⟩
  have hu := h u List.mem_cons_self
  have hother : ∀ {v : CodeUnit}, v.isDigit = false → u ≠ v := CodeUnit.ne_of_digit hu
  have hsign : splitSign (u :: s) = (false, u :: s) := by
    rw [splitSign, if_neg (hother rfl), if_neg (hother rfl)]
  have hword : u :: s ≠ ("Infinity" : Text) := by
    intro hc
    have hhead : u = ascii 'I' := (List.cons.inj hc).1
    exact hother rfl hhead
  rw [signed?, hsign]
  simp only [hword, if_false, unsigned?, splitDigits_digits h, List.isEmpty_cons, Bool.false_and,
    Bool.false_eq_true, exponent?, Option.map_some, List.append_nil, List.length_nil,
    Int.natCast_zero, Int.sub_zero]

theorem value?_digits (hne : t ≠ []) (h : ∀ u ∈ t, u.isDigit = true) :
    value? t = some (Double.ofDecimal false (Text.digitsValue t) 0) := by
  rw [← signed?_digits hne h]
  rcases t with _ | ⟨u, _ | ⟨v, s⟩⟩
  · exact absurd rfl hne
  · rfl
  · have hbase := base?_digit (h v (List.mem_cons_of_mem u List.mem_cons_self))
    rw [value?, hbase, ite_self]

end Numeral

/-- A number has no more digits than its numeral. -/
theorem digitCount_le (hne : t ≠ []) (h : ∀ u ∈ t, u.isDigit = true) :
    digitCount (Text.digitsValue t) ≤ t.length := by
  have hlt := Text.digitsValue_lt fun u hu => Json.isDigit_iff.mp (h u hu)
  exact (Nat.length_toDigits_le_iff (by decide) (List.length_pos_iff.mpr hne)).mpr hlt

/-- The value of digits is the number that they write. -/
theorem Double.ofNumeral_digits (hne : t ≠ []) (hlength : t.length ≤ 400)
    (h : ∀ u ∈ t, u.isDigit = true) :
    Double.ofNumeral t = Double.ofNat (Text.digitsValue t) := by
  have hcount := digitCount_le hne h
  rw [Double.ofNumeral, Text.trim_digits h, Numeral.value?_digits hne h, Option.getD_some,
    Double.ofDecimal]
  by_cases hzero : Text.digitsValue t = 0
  · rw [if_pos hzero, hzero]
    rfl
  · rw [if_neg hzero, if_neg (by omega), if_neg (by omega), Double.ofNat]
    have hone : tenPow 0 = 1 := rfl
    rw [Int.toNat_zero, Int.neg_zero, Int.toNat_zero, hone, Nat.mul_one]

end Digits

end NodeWatch
