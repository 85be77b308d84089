import NodeWatch.Proofs.Decimal.Significant
import NodeWatch.Proofs.Double.Apart
import NodeWatch.Proofs.Json.Writing

/-!
# The Texts of Floating Point Numbers

Every finite double is read back from its text as itself, down to the sign of
a zero. Three things come together here. The decimal of seventeen digits is
near to the double, doubles are far enough apart, and the text writes the
decimal, in whichever of its forms.

The forms differ in where the point is and in whether there is an exponent,
but all of them are digits without zeros at their end, put somewhere on the
scale of tens. So the number that a text writes is said by its digits alone:
the zeros that were left out, or that are filled in between the digits and the
point, count for nothing but places.

No text could be taken for an integer, since each has a fraction or an
exponent, and none has a zero in front of other digits. The grammar that texts
are read by would let that pass; the standard one would not.

## Main definitions

* `Unpadded`: Digits of a whole part.
* `Marked`: A number with a fraction or an exponent, and what it writes.

## Theorems

* `significantText_spec`: What is left of the digits of a decimal.
* `marked_write`: A written decimal writes the number that it is.
* `floatText_spec`: The text of a double has the double as the nearest one.
* `parse_floatText`: The text of a double is read as the double.
* `Value.floatsSurvive`: No number in a value is lost when it is printed.
-/

namespace NodeWatch

/-! ### Values of digits -/

namespace Text

theorem digitsValue_zero_cons (t : Text) : digitsValue (ascii '0' :: t) = digitsValue t := by
  have hzero : (ascii '0').toNat - 0x30 = 0 := by decide
  rw [digitsValue_cons, hzero, Nat.zero_mul, Nat.zero_add]

theorem digitsValue_zeros (n : Nat) : digitsValue (List.replicate n (ascii '0')) = 0 := by
  induction n with
  | zero => rfl
  | succ n ih => rw [List.replicate_succ, digitsValue_zero_cons, ih]

theorem digitsValue_lt {t : Text} (h : ∀ u ∈ t, 0x30 ≤ u ∧ u ≤ 0x39) :
    digitsValue t < 10 ^ t.length := by
  induction t with
  | nil => exact Nat.one_pos
  | cons u t ih =>
      have hu : u.toNat ≤ 0x39 := UInt16.le_iff_toNat_le.mp (h u List.mem_cons_self).2
      have ht := ih fun v hv => h v (List.mem_cons_of_mem u hv)
      have hmost : (u.toNat - 0x30) * 10 ^ t.length ≤ 9 * 10 ^ t.length :=
        Nat.mul_le_mul_right _ (by omega)
      rw [digitsValue_cons, List.length_cons, Nat.pow_succ]
      omega

theorem length_ofNat (n : Nat) : (ofNat n).length = digitCount n := List.length_map ..

end Text

namespace Json

open Grammar

/-- The digits of a positive number do not begin with a zero. -/
theorem head?_ofNat {n : Nat} (hn : 0 < n) : (Text.ofNat n).head? ≠ some (ascii '0') := by
  intro hc
  cases ht : Text.ofNat n with
  | nil => exact (digits_ofNat n).1 ht
  | cons u t =>
      rw [ht, List.head?_cons, Option.some.injEq] at hc
      have hdigit := (digits_ofNat n).2
      have hvalue := digitsValue_ofNat n
      have hlength := Text.length_ofNat n
      rw [ht] at hdigit hvalue hlength
      -- Without the zero there is a digit less, and the value is the same.
      rw [hc, Text.digitsValue_zero_cons] at hvalue
      have hless := Text.digitsValue_lt fun v hv => hdigit v (List.mem_cons_of_mem u hv)
      have hlow := (Double.digitCount_bounds hn).1
      rw [← hlength, List.length_cons, Nat.add_sub_cancel] at hlow
      omega

/-! ### Zeros around digits -/

theorem digits_append_zeros {ds : Text} (hds : Digits ds) (n : Nat) :
    Digits (ds ++ List.replicate n (ascii '0')) := by
  refine ⟨fun hc => hds.1 (List.append_eq_nil_iff.mp hc).1, fun u hu => ?_⟩
  rcases List.mem_append.mp hu with hu | hu
  · exact hds.2 u hu
  · exact digit_of_mem_zeros hu

theorem digits_zeros_append {ds : Text} (hds : Digits ds) (n : Nat) :
    Digits (List.replicate n (ascii '0') ++ ds) := by
  refine ⟨fun hc => hds.1 (List.append_eq_nil_iff.mp hc).2, fun u hu => ?_⟩
  rcases List.mem_append.mp hu with hu | hu
  · exact digit_of_mem_zeros hu
  · exact hds.2 u hu

theorem digitsValue_zeros_append (ds : Text) (n : Nat) :
    Text.digitsValue (List.replicate n (ascii '0') ++ ds) = Text.digitsValue ds := by
  rw [Text.digitsValue_append, Text.digitsValue_zeros, Nat.zero_mul, Nat.zero_add]

theorem digitsValue_append_zeros (ds : Text) (n : Nat) :
    Text.digitsValue (ds ++ List.replicate n (ascii '0')) = Text.digitsValue ds * 10 ^ n := by
  rw [Text.digitsValue_append, Text.digitsValue_zeros, List.length_replicate, Nat.add_zero]

/-- The zeros at the end of a text, and what is in front of them. -/
theorem exists_zeros (t : Text) : ∃ n,
    t = (t.reverse.dropWhile (· == ascii '0')).reverse ++ List.replicate n (ascii '0') := by
  have hsplit := List.takeWhile_append_dropWhile (p := (· == ascii '0')) (l := t.reverse)
  have hzero : ∀ u ∈ t.reverse.takeWhile (· == ascii '0'), u = ascii '0' := by
    intro u hu
    exact eq_of_beq (List.mem_takeWhile_imp (p := (· == ascii '0')) hu)
  have hzeros := List.eq_replicate_iff.mpr ⟨rfl, hzero⟩
  refine ⟨(t.reverse.takeWhile (· == ascii '0')).length, ?_⟩
  rw [← List.reverse_replicate, ← hzeros, ← List.reverse_append, hsplit, List.reverse_reverse]

/-! ### Numbers with a fraction or an exponent -/

/-- The digits of a whole part, with no zero in front of other digits. -/
def Unpadded (t : Text) : Prop := Digits t ∧ (t.head? = some (ascii '0') → t = [ascii '0'])

/-- A number without a sign that has a fraction or an exponent, and what it
    writes. -/
inductive Marked : Text → ℚ → Prop where
  | mk {whole fraction exponent : Text} {f : Option Text} {e : Option Int} (hw : Unpadded whole)
      (hf : Fraction fraction f) (he : Exponent exponent e) (hmark : f ≠ none ∨ e ≠ none) :
      Marked (whole ++ (fraction ++ exponent))
        (Text.digitsValue (whole ++ f.getD []) * 10 ^ (e.getD 0 - (f.getD []).length))

/-- With a sign in front, the number is the double nearest to what it writes. -/
theorem Marked.number {sign t : Text} {negative : Bool} {r : ℚ} {x : Double} (h : Marked t r)
    (hs : Sign sign negative) (hx : Double.Nearest negative r x) :
    Number (sign ++ t) (.float x) := by
  cases h with
  | @mk whole fraction exponent f e hw hf he hmark =>
      refine Number.mk hs hw.1 hf he ?_
      cases f with
      | some ds => exact Meaning.fraction (decimal_eq_digitsValue _ ▸ hx)
      | none =>
          cases e with
          | none => exact absurd rfl (hmark.resolve_left fun hc => hc rfl)
          | some e =>
              refine Meaning.exponent ?_
              rw [decimal_eq_digitsValue]
              simpa only [Option.getD_none, Option.getD_some, List.append_nil, List.length_nil,
                Nat.cast_zero, sub_zero] using hx

/-! ### The forms of a decimal -/

section Forms

open Decimal

variable {ds : Text} (hds : Digits ds) (hhead : ds.head? ≠ some (ascii '0'))

include hds in
/-- The two sides of a point between digits. -/
theorem digits_take_drop {n : Nat} (hn : 0 < n) (hlong : n < ds.length) :
    Digits (ds.take n) ∧ Digits (ds.drop n) := by
  refine ⟨⟨fun hc => ?_, fun u hu => hds.2 u (List.mem_of_mem_take hu)⟩,
    fun hc => ?_, fun u hu => hds.2 u (List.mem_of_mem_drop hu)⟩
  · rcases List.take_eq_nil_iff.mp hc with h | h
    · omega
    · exact hds.1 h
  · have := List.drop_eq_nil_iff.mp hc
    omega

include hhead in
theorem unpadded_take {n : Nat} (hn : 0 < n) (h : Digits (ds.take n)) : Unpadded (ds.take n) := by
  refine ⟨h, fun hc => absurd ?_ hhead⟩
  rw [← hc, List.head?_take, if_neg (by omega)]

/-- An exponent is written with its sign, and with zeros in front of few digits. -/
theorem exponent_exponentText (layout : Layout) (e : Int) :
    Exponent (layout.exponentText e) (some e) := by
  have hpadded := digits_zeros_append (digits_ofNat e.natAbs)
    (layout.exponentWidth - (Text.ofNat e.natAbs).length)
  have hvalue : Text.digitsValue
      (Text.padStart (Text.ofNat e.natAbs) layout.exponentWidth (ascii '0')) = e.natAbs := by
    rw [Text.padStart, digitsValue_zeros_append, digitsValue_ofNat]
  by_cases he : e < 0
  · have h := Exponent.some (.inl rfl) ExponentSign.minus hpadded
    rw [← Text.padStart, decimal_eq_digitsValue, hvalue, signed, if_pos rfl,
      show -(e.natAbs : Int) = e by omega] at h
    rw [Layout.exponentText, if_pos he]
    exact h
  · have h := Exponent.some (.inl rfl) ExponentSign.plus hpadded
    rw [← Text.padStart, decimal_eq_digitsValue, hvalue, signed, if_neg Bool.false_ne_true,
      show (e.natAbs : Int) = e by omega] at h
    rw [Layout.exponentText, if_neg he]
    exact h

include hds hhead

/-- One digit, a point if others follow, and an exponent. -/
theorem marked_exponent (layout : Layout) (e : Int) :
    Marked (pointAfter 1 ds ++ layout.exponentText e)
      (Text.digitsValue ds * 10 ^ (e + 1 - ds.length)) := by
  have hexponent := exponent_exponentText layout e
  have hpos : 0 < ds.length := List.length_pos_iff.mpr hds.1
  unfold pointAfter
  by_cases hshort : ds.length ≤ 1
  · have h := Marked.mk (⟨hds, fun hc => absurd hc hhead⟩ : Unpadded ds) Fraction.none hexponent
      (.inr (Option.some_ne_none e))
    have hone : ds.length = 1 := by omega
    rw [if_pos hshort, hone, Nat.sub_self, List.replicate_zero, List.append_nil]
    simpa only [List.nil_append, List.append_nil, Option.getD_none, Option.getD_some,
      List.length_nil, Nat.cast_zero, sub_zero, Nat.cast_one, add_sub_cancel_right] using h
  · rcases digits_take_drop hds Nat.one_pos (show 1 < ds.length by omega) with ⟨htake, hdrop⟩
    have h := Marked.mk (unpadded_take hhead Nat.one_pos htake) (Fraction.some hdrop) hexponent
      (.inr (Option.some_ne_none e))
    have hplaces : e - ((ds.length - 1 : Nat) : Int) = e + 1 - ds.length := by omega
    rw [Option.getD_some, Option.getD_some, List.take_append_drop, List.length_drop, hplaces] at h
    rw [if_neg hshort, List.append_assoc]
    exact h

omit hhead in
/-- A zero, a point and zeros in front of the digits. -/
theorem marked_leading {e : Int} (he : e < 0) :
    Marked (ascii '0' :: ascii '.' :: List.replicate ((-e).toNat - 1) (ascii '0') ++ ds)
      (Text.digitsValue ds * 10 ^ (e + 1 - ds.length)) := by
  obtain ⟨k, hk⟩ : ∃ k, k = (-e).toNat - 1 := ⟨_, rfl⟩
  have hwhole : Unpadded [ascii '0'] := ⟨digits_zero, fun _ => rfl⟩
  have h := Marked.mk hwhole (Fraction.some (digits_zeros_append hds k)) Exponent.none
    (.inl (Option.some_ne_none _))
  -- The zeros in front count for places only.
  have hvalue : Text.digitsValue ([ascii '0'] ++ (List.replicate k (ascii '0') ++ ds))
      = Text.digitsValue ds :=
    (Text.digitsValue_zero_cons _).trans (digitsValue_zeros_append ds k)
  have hplaces : (0 : Int) - (k + ds.length : Nat) = e + 1 - ds.length := by omega
  rw [Option.getD_some, Option.getD_none, hvalue, List.length_append, List.length_replicate,
    hplaces, List.append_nil] at h
  rw [← hk]
  exact h

/-- Digits with a point between them, or a whole number with zeros up to the
    point and one behind it. -/
theorem marked_positional {n : Nat} (hn : 0 < n) :
    Marked (pointAfter n ds ++ if ds.length ≤ n then (".0" : Text) else [])
      (Text.digitsValue ds * 10 ^ ((n : Int) - ds.length)) := by
  unfold pointAfter
  by_cases hshort : ds.length ≤ n
  · obtain ⟨k, hk⟩ : ∃ k, k = n - ds.length := ⟨_, rfl⟩
    have hwhole : Unpadded (ds ++ List.replicate k (ascii '0')) := by
      refine ⟨digits_append_zeros hds k, fun hc => absurd ?_ hhead⟩
      rwa [List.head?_append_of_ne_nil _ hds.1] at hc
    have h := Marked.mk hwhole (Fraction.some digits_zero) Exponent.none
      (.inl (Option.some_ne_none _))
    -- The zero behind the point is one more of those behind the digits.
    have hvalue : Text.digitsValue (ds ++ List.replicate k (ascii '0') ++ [ascii '0'])
        = Text.digitsValue ds * 10 ^ (k + 1) := by
      rw [List.append_assoc, ← List.replicate_succ', digitsValue_append_zeros]
    have hplaces : (n : Int) - ds.length = ((k + 1 : Nat) : Int) + (0 - 1) := by omega
    rw [if_pos hshort, if_pos hshort, ← hk, hplaces, ten_zpow_add, zpow_natCast, ← mul_assoc]
    rw [Option.getD_some, Option.getD_none, hvalue, Nat.cast_mul, Nat.cast_pow, Nat.cast_ofNat,
      List.length_singleton, Nat.cast_one, List.append_nil] at h
    exact h
  · rcases digits_take_drop hds hn (show n < ds.length by omega) with ⟨htake, hdrop⟩
    have h := Marked.mk (unpadded_take hhead hn htake) (Fraction.some hdrop) Exponent.none
      (.inl (Option.some_ne_none _))
    have hplaces : (0 : Int) - ((ds.length - n : Nat) : Int) = n - ds.length := by omega
    rw [Option.getD_some, Option.getD_none, List.take_append_drop, List.length_drop, hplaces,
      List.append_nil] at h
    rw [if_neg hshort, if_neg hshort, List.append_nil]
    exact h

end Forms

/-! ### Decimals -/

section Decimals

open Decimal

/-- What is left of the digits of a positive decimal without the zeros at their
    end: digits, of which the first is no zero, that write the decimal in
    their place. -/
theorem significantText_spec {d : Decimal} (hd : 0 < d.digits) :
    Digits (significantText d) ∧ (significantText d).head? ≠ some (ascii '0') ∧
      d.value = Text.digitsValue (significantText d) *
        10 ^ (d.exponent + 1 - (significantText d).length) := by
  rcases exists_zeros (Text.ofNat d.digits) with ⟨n, hn⟩
  change Text.ofNat d.digits = significantText d ++ _ at hn
  have hvalue := digitsValue_ofNat d.digits
  have hlength := Text.length_ofNat d.digits
  rw [hn, digitsValue_append_zeros] at hvalue
  rw [hn, List.length_append, List.length_replicate] at hlength
  -- Zeros alone would write zero.
  have hne : significantText d ≠ [] := by
    intro hc
    rw [hc] at hvalue
    exact absurd ((Nat.zero_mul _).symm.trans hvalue) (by omega)
  refine ⟨⟨hne, fun u hu => ?_⟩, fun hc => head?_ofNat hd ?_, ?_⟩
  · exact (digits_ofNat d.digits).2 u (hn ▸ List.mem_append_left _ hu)
  · rw [hn, List.head?_append_of_ne_nil _ hne]
    exact hc
  · have hplaces : d.exponent + 1 - ((significantText d).length : Int)
        = n + (d.exponent + 1 - digitCount d.digits) := by omega
    rw [hplaces, ten_zpow_add, ← mul_assoc, zpow_natCast, Decimal.value]
    congr 1
    exact_mod_cast hvalue.symm

/-- A written decimal writes the number that it is. -/
theorem marked_write {layout : Layout} (hlayout : layout.whole = ".0") {d : Decimal}
    (hd : 0 < d.digits) : Marked (write layout d) d.value := by
  rcases significantText_spec hd with ⟨hds, hhead, hvalue⟩
  rw [hvalue]
  unfold write
  by_cases hexponent : d.exponent < layout.least ∨ layout.past ≤ d.exponent
  · simp only [if_pos hexponent]
    exact marked_exponent hds hhead layout d.exponent
  simp only [if_neg hexponent]
  by_cases hsmall : d.exponent < 0
  · rw [if_pos hsmall]
    exact marked_leading hds hsmall
  · have hplaces : d.exponent + 1 = ((d.exponent.toNat + 1 : Nat) : Int) := by omega
    rw [if_neg hsmall, hlayout, hplaces]
    exact marked_positional hds hhead (Nat.succ_pos _)

end Decimals

/-! ### Doubles -/

theorem quotient_eq (m : Nat) (q : Int) :
    ((Double.quotient m q).1 : ℚ) / (Double.quotient m q).2 = m * 2 ^ q := by
  have hpow : (0 : ℚ) < (2 ^ (-q).toNat : Nat) := by positivity
  change ((m * 2 ^ q.toNat : Nat) : ℚ) / (2 ^ (-q).toNat : Nat) = _
  rw [Nat.cast_mul, natCast_pow_toNat (by decide), ← mul_assoc, mul_div_cancel_right₀ _ hpow.ne',
    Nat.cast_ofNat]

/-- The text of a finite double is a sign and a number with a fraction or an
    exponent, and the double is the nearest one to what it writes. -/
theorem floatText_spec {x : Double} (hx : x.isFinite = true) :
    ∃ sign t r, floatText x = sign ++ t ∧ Sign sign x.isNegative ∧ Marked t r ∧
      Double.Nearest x.isNegative r x := by
  cases x with
  | nan => exact absurd hx Bool.false_ne_true
  | infinite s => exact absurd hx Bool.false_ne_true
  | finite s m q h =>
      have hsign : Sign (if s then [ascii '-'] else []) s := by
        cases s
        · exact Sign.none
        · exact Sign.minus
      suffices hnumber : ∃ r, Marked (if m = 0 then ("0.0" : Text) else Decimal.write floatLayout
          (Decimal.significant 17 (Double.quotient m q).1 (Double.quotient m q).2)) r ∧
          Double.Nearest s r (.finite s m q h) by
        rcases hnumber with ⟨r, hmarked, hnearest⟩
        exact ⟨_, _, r, rfl, hsign, hmarked, hnearest⟩
      by_cases hm : m = 0
      -- A zero has one exponent, and it writes a zero.
      · have hq : q = -1074 := h.2.2.2.resolve_left (by rw [hm]; decide)
        subst hm hq
        have hmarked := Marked.mk ⟨digits_zero, fun _ => rfl⟩ (Fraction.some digits_zero)
          Exponent.none (.inl (Option.some_ne_none _))
        refine ⟨_, hmarked, ?_⟩
        have hzero : Text.digitsValue ([ascii '0'] ++ (some [ascii '0']).getD []) = 0 := by decide
        rw [hzero, Nat.cast_zero, zero_mul]
        exact Double.nearest_zero s le_rfl (Double.two_zpow_pos _).le
      -- Any other number is close to its decimal, which is the number that is written.
      · have hpos : 0 < m := Nat.pos_of_ne_zero hm
        have hnum : 0 < (Double.quotient m q).1 := Nat.mul_pos hpos (twoPow_pos _)
        have hden : 0 < (Double.quotient m q).2 := twoPow_pos _
        rw [if_neg hm]
        refine ⟨_, marked_write rfl (Decimal.significant_digits (by decide) hnum hden).2, ?_⟩
        have hnear := Decimal.significant_near (show 0 < 17 by decide) hnum hden
        rw [quotient_eq] at hnear
        exact Double.nearest_of_close h hnear

/-- The text of a finite double is a number, and its value is the double. -/
theorem number_floatText {x : Double} (hx : x.isFinite = true) :
    Number (floatText x) (.float x) := by
  rcases floatText_spec hx with ⟨sign, t, r, htext, hsign, hmarked, hnearest⟩
  rw [htext]
  exact hmarked.number hsign hnearest

/-- No number in a value is lost when it is printed. -/
theorem Value.floatsSurvive (v : Value) : v.FloatsSurvive :=
  fun _ _ hx => parse_of_denotes (Bare.number (number_floatText hx)).denotes

/-- The text of a finite double is a sign and a number with a fraction or an
    exponent, so it is no integer, and it is read as the double. -/
theorem parse_floatText {x : Double} (hx : x.isFinite = true) :
    (∃ sign t r, floatText x = sign ++ t ∧ Sign sign x.isNegative ∧ Marked t r ∧
      Double.Nearest x.isNegative r x) ∧ parse (floatText x) = .ok (.float x) :=
  ⟨floatText_spec hx, parse_of_denotes (Bare.number (number_floatText hx)).denotes⟩

/-- The least double above zero has one bit, and seventeen digits all the same. -/
theorem parse_floatText_least :
    floatText (.finite true 1 (-1074) (by decide)) = "-4.9406564584124654e-324" ∧
      parse "-4.9406564584124654e-324" = .ok (.float (.finite true 1 (-1074) (by decide))) := by
  have htext : floatText (.finite true 1 (-1074) (by decide)) = "-4.9406564584124654e-324" := by
    decide +kernel
  have hparse := (parse_floatText (x := .finite true 1 (-1074) (by decide)) rfl).2
  rw [htext] at hparse
  exact ⟨htext, hparse⟩

end Json

end NodeWatch
