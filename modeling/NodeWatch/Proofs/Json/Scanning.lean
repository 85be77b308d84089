import NodeWatch.Json.Parser
import NodeWatch.Proofs.Bytes.Hex
import NodeWatch.Proofs.Double.Rounding
import NodeWatch.Proofs.Json.Grammar
import Mathlib.Data.List.TakeWhile

/-!
# Scanning against the Grammar

The readers of blanks, digits, numbers and strings, each with what it takes
and what it leaves. None of them calls a reader of values, so every one is
settled by itself here, and the readers of values can be proved without
opening them.

Soundness and completeness differ in what they ask of the rest. What a reader
took is derived by the grammar whatever follows it. In the other direction the
rest matters for numbers: `12` followed by `3` is read as `123`, so a derived
number is read back only in front of a text that does not carry it on. `Next`
says that the first unit of a text, if there is one, is of some sort, and
`Stops` is the sort that ends every number.

## Main definitions

* `Next`: The first unit of a text, if there is one, is of some sort.
* `Carries`: A unit that could carry a number on.
* `Stops`: A text that carries no number on.

## Theorems

* `exists_blank_append`: The blanks that are skipped are blanks.
* `skipSpace_append`: Blanks in front are skipped.
* `decimal_eq_digitsValue`, `hexDigit_iff`: What digits are worth.
* `digits_eq_ok_iff`: Digits are taken as long as there are any.
* `number_sound`, `number_append`: What is read as a number is one, and a
  number is read in front of a text that stops it.
* `stringBody_sound`, `stringBody_append`: What is read as a string is one,
  and a string is read in front of anything.
-/

namespace NodeWatch

namespace Text

theorem digitsValue_append (a b : Text) :
    digitsValue (a ++ b) = digitsValue a * 10 ^ b.length + digitsValue b := by
  -- What was read before counts in front of the digits that follow.
  have hfold : ∀ (b : Text) (n : Nat), b.foldl (fun n u => n * 10 + (u.toNat - 0x30)) n
      = n * 10 ^ b.length + digitsValue b := by
    intro b
    induction b with
    | nil =>
        intro n
        rw [List.foldl_nil, List.length_nil, Nat.pow_zero, Nat.mul_one]
        rfl
    | cons u b ih =>
        intro n
        rw [digitsValue, List.foldl_cons, List.foldl_cons, ih, ih (0 * 10 + _), List.length_cons,
          Nat.pow_succ, Nat.zero_mul, Nat.zero_add, ← Nat.add_assoc, Nat.add_mul, Nat.mul_assoc,
          Nat.mul_comm 10]
  rw [digitsValue, List.foldl_append, hfold]
  rfl

theorem digitsValue_cons (u : CodeUnit) (t : Text) :
    digitsValue (u :: t) = (u.toNat - 0x30) * 10 ^ t.length + digitsValue t := by
  rw [← List.singleton_append, digitsValue_append, digitsValue, List.foldl_cons, List.foldl_nil,
    Nat.zero_mul, Nat.zero_add]

end Text

namespace Json

open Grammar

/-- Digits are read one after the other, and each makes those before it count
    ten times as much. -/
theorem decimal_eq_digitsValue (ds : Text) : decimal ds = Text.digitsValue ds := by
  induction ds with
  | nil => rfl
  | cons u rest ih => rw [decimal, Text.digitsValue_cons, ih]

theorem hexDigit_iff {u : CodeUnit} {n : Nat} : HexDigit u n ↔ u.hexValue? = some n := by
  rw [Hex.hexValue?_eq_some_iff]
  constructor
  · rintro (⟨hn, hu⟩ | ⟨hn, hu⟩ | ⟨hn, hu⟩)
    · exact .inl (by omega)
    · exact .inr (.inl (by omega))
    · exact .inr (.inr (by omega))
  · rintro (h | h | h)
    · exact .digit (by omega) h.2.2
    · exact .lower (by omega) (by omega)
    · exact .upper (by omega) (by omega)

/-- The first unit of a text, if there is one, is of some sort. -/
def Next (p : CodeUnit → Prop) (t : Text) : Prop := ∀ u ∈ t.head?, p u

theorem Next.nil {p : CodeUnit → Prop} : Next p [] := by
  intro u hu
  exact absurd hu (by simp only [List.head?_nil, Option.mem_def, reduceCtorEq, not_false_eq_true])

theorem next_cons {p : CodeUnit → Prop} {u : CodeUnit} {t : Text} : Next p (u :: t) ↔ p u := by
  simp only [Next, List.head?_cons, Option.mem_def, Option.some.injEq, forall_eq']

theorem Next.mono {p q : CodeUnit → Prop} {t : Text} (h : Next p t) (hpq : ∀ u, p u → q u) :
    Next q t :=
  fun u hu => hpq u (h u hu)

/-- What is left behind the units of a sort begins with another one. -/
theorem next_dropWhile (p : CodeUnit → Bool) (s : Text) :
    Next (fun u => p u = false) (s.dropWhile p) := by
  intro u hu
  have h := List.head?_dropWhile_not p s
  rw [hu] at h
  exact h

theorem dropWhile_of_next {p : CodeUnit → Bool} {s : Text} (h : Next (fun u => p u = false) s) :
    s.dropWhile p = s := by
  cases s with
  | nil => rfl
  | cons u s => exact List.dropWhile_cons_of_neg (Bool.eq_false_iff.mp (next_cons.mp h))

theorem takeWhile_of_next {p : CodeUnit → Bool} {s : Text} (h : Next (fun u => p u = false) s) :
    s.takeWhile p = [] := by
  cases s with
  | nil => rfl
  | cons u s => exact List.takeWhile_cons_of_neg (Bool.eq_false_iff.mp (next_cons.mp h))

/-! ### Blanks -/

theorem isSpace_iff {u : CodeUnit} :
    isSpace u = true ↔ u = 0x20 ∨ u = 0x09 ∨ u = 0x0D ∨ u = 0x0A := by
  simp only [isSpace, Bool.or_eq_true, beq_iff_eq, or_assoc]

/-- The blanks that are skipped are blanks. -/
theorem exists_blank_append (s : Text) : ∃ a, Blank a ∧ s = a ++ skipSpace s := by
  refine ⟨s.takeWhile isSpace, fun u hu => isSpace_iff.mp (List.mem_takeWhile_imp hu), ?_⟩
  rw [skipSpace, List.takeWhile_append_dropWhile]

/-- Blanks in front are skipped. -/
theorem skipSpace_append {a : Text} (s : Text) (ha : Blank a) :
    skipSpace (a ++ s) = skipSpace s :=
  List.dropWhile_append_of_pos fun u hu => isSpace_iff.mpr (ha u hu)

/-- Skipping blanks leaves a text that begins with something else, whatever
    number of blanks stands in front of it. -/
theorem skipSpace_blank_append {a s : Text} (ha : Blank a)
    (h : Next (fun u => isSpace u = false) s) : skipSpace (a ++ s) = s := by
  rw [skipSpace_append s ha, skipSpace, dropWhile_of_next h]

/-! ### Digits -/

theorem isDigit_iff {u : CodeUnit} : u.isDigit = true ↔ 0x30 ≤ u ∧ u ≤ 0x39 := by
  simp only [CodeUnit.isDigit, Bool.and_eq_true, decide_eq_true_eq]

theorem digits_zero : Digits [ascii '0'] := by
  refine ⟨List.cons_ne_nil _ _, fun u hu => ?_⟩
  rw [List.mem_singleton.mp hu]
  decide

theorem Grammar.Digits.isDigit {ds : Text} (h : Digits ds) : ∀ u ∈ ds, u.isDigit = true :=
  fun u hu => isDigit_iff.mpr (h.2 u hu)

/-- The first unit of digits is one of them, whatever follows. -/
theorem Grammar.Digits.exists_cons {ds : Text} (h : Digits ds) :
    ∃ u rest, ds = u :: rest ∧ u.isDigit = true := by
  cases ds with
  | nil => exact absurd rfl h.1
  | cons u rest => exact ⟨u, rest, rfl, h.isDigit u List.mem_cons_self⟩

/-- The digits at the front are split off, all of them. -/
theorem splitDigits_append {ds rest : Text} (hds : ∀ u ∈ ds, u.isDigit = true)
    (hrest : Next (fun u => u.isDigit = false) rest) :
    Numeral.splitDigits (ds ++ rest) = (ds, rest) := by
  rw [Numeral.splitDigits, List.takeWhile_append_of_pos hds, List.dropWhile_append_of_pos hds,
    takeWhile_of_next hrest, dropWhile_of_next hrest, List.append_nil]

/-- Digits are taken as long as there are any, and there has to be one. -/
theorem digits_eq_ok_iff {fault : Fault} {s ds rest : Text} :
    digits fault s = .ok (ds, rest)
      ↔ Digits ds ∧ s = ds ++ rest ∧ Next (fun u => u.isDigit = false) rest := by
  constructor
  · intro h
    -- The three things that are known of what was split off.
    have happ : (Numeral.splitDigits s).1 ++ (Numeral.splitDigits s).2 = s :=
      List.takeWhile_append_dropWhile
    have hall : ∀ u ∈ (Numeral.splitDigits s).1, u.isDigit = true :=
      fun u hu => List.mem_takeWhile_imp hu
    have hnext : Next (fun u => u.isDigit = false) (Numeral.splitDigits s).2 :=
      next_dropWhile CodeUnit.isDigit s
    rcases hs : Numeral.splitDigits s with ⟨front, back⟩
    rw [hs] at happ hall hnext
    rw [digits, hs] at h
    by_cases hf : front.isEmpty = true
    · simp only [hf, if_true, reduceCtorEq] at h
    · simp only [hf, Bool.false_eq_true, if_false, Except.ok.injEq, Prod.mk.injEq] at h
      rcases h with ⟨rfl, rfl⟩
      refine ⟨⟨fun hc => hf (by rw [hc]; rfl), fun u hu => isDigit_iff.mp (hall u hu)⟩,
        happ.symm, hnext⟩
  · rintro ⟨hds, rfl, hrest⟩
    -- Of a text of digits some are split off, so the fault is not reached.
    rcases hds.exists_cons with ⟨u, ds', rfl, -⟩
    rw [digits, splitDigits_append hds.isDigit hrest]
    rfl

theorem digits_append (fault : Fault) {ds rest : Text} (hds : Digits ds)
    (hrest : Next (fun u => u.isDigit = false) rest) :
    digits fault (ds ++ rest) = .ok (ds, rest) :=
  digits_eq_ok_iff.mpr ⟨hds, rfl, hrest⟩

/-! ### Numbers -/

/-- A unit that could carry a number on. -/
def Carries (u : CodeUnit) : Prop :=
  u.isDigit = true ∨ u = ascii '.' ∨ u = ascii 'e' ∨ u = ascii 'E'

/-- A text that carries no number on. -/
def Stops (t : Text) : Prop := Next (fun u => ¬ Carries u) t

theorem Stops.noDigit {t : Text} (h : Stops t) : Next (fun u => u.isDigit = false) t :=
  Next.mono h fun _ hu => Bool.eq_false_iff.mpr fun hc => hu (.inl hc)

/-- What is read as an optional minus sign is one. -/
theorem sign_splitMinus (s : Text) :
    ∃ t, Sign t (splitMinus s).1 ∧ s = t ++ (splitMinus s).2 := by
  cases s with
  | nil => exact ⟨[], Sign.none, rfl⟩
  | cons u rest =>
      by_cases hu : u = ascii '-'
      · refine ⟨[ascii '-'], ?_, ?_⟩
        · rw [splitMinus, if_pos hu]
          exact Sign.minus
        · rw [splitMinus, if_pos hu, hu]
          rfl
      · refine ⟨[], ?_, ?_⟩
        · rw [splitMinus, if_neg hu]
          exact Sign.none
        · rw [splitMinus, if_neg hu]
          rfl

/-- An optional minus sign is read in front of digits. -/
theorem splitMinus_append {t ds rest : Text} {negative : Bool} (ht : Sign t negative)
    (hds : Digits ds) : splitMinus (t ++ (ds ++ rest)) = (negative, ds ++ rest) := by
  rcases hds.exists_cons with ⟨u, ds', rfl, hu⟩
  cases ht with
  | none =>
      -- Without a sign the text begins with a digit, which is no minus.
      have hne : u ≠ ascii '-' := fun hc => absurd hu (by rw [hc]; decide)
      rw [List.nil_append, List.cons_append, splitMinus, if_neg hne]
  | minus => rw [List.cons_append, splitMinus, if_pos rfl, List.nil_append]

/-- What is read as an optional fraction is one. -/
theorem fraction?_sound {s rest : Text} {f : Option Text} (h : fraction? s = .ok (f, rest)) :
    ∃ t, Fraction t f ∧ s = t ++ rest := by
  cases s with
  | nil =>
      simp only [fraction?, Except.ok.injEq, Prod.mk.injEq] at h
      rcases h with ⟨rfl, rfl⟩
      exact ⟨[], Fraction.none, rfl⟩
  | cons u s =>
      rw [fraction?] at h
      by_cases hu : u = ascii '.'
      · rw [if_pos hu] at h
        -- A point has to be followed by digits.
        cases hd : digits .fractionDigit s with
        | error e => rw [hd] at h; simp only [Except.map, reduceCtorEq] at h
        | ok p =>
            rw [hd] at h
            simp only [Except.map, Except.ok.injEq, Prod.mk.injEq] at h
            rcases h with ⟨rfl, rfl⟩
            rcases digits_eq_ok_iff.mp hd with ⟨hds, hs, -⟩
            exact ⟨_, Fraction.some hds, by rw [hu, hs]; rfl⟩
      · rw [if_neg hu] at h
        simp only [Except.ok.injEq, Prod.mk.injEq] at h
        rcases h with ⟨rfl, rfl⟩
        exact ⟨[], Fraction.none, rfl⟩

/-- An optional fraction is read in front of what is neither a digit nor a point. -/
theorem fraction?_append {t rest : Text} {f : Option Text} (ht : Fraction t f)
    (hrest : Next (fun u => u.isDigit = false ∧ u ≠ ascii '.') rest) :
    fraction? (t ++ rest) = .ok (f, rest) := by
  cases ht with
  | none =>
      cases rest with
      | nil => rfl
      | cons u rest => rw [List.nil_append, fraction?, if_neg (next_cons.mp hrest).2]
  | some hds =>
      have hd := digits_append .fractionDigit hds (hrest.mono fun _ hu => hu.1)
      rw [List.cons_append, fraction?, if_pos rfl, hd]
      rfl

/-- What is read as an optional sign of an exponent is one. -/
theorem sign_splitSign (s : Text) :
    ∃ t, ExponentSign t (Numeral.splitSign s).1 ∧ s = t ++ (Numeral.splitSign s).2 := by
  cases s with
  | nil => exact ⟨[], ExponentSign.none, rfl⟩
  | cons u rest =>
      rw [Numeral.splitSign]
      by_cases hm : u = ascii '-'
      · rw [if_pos hm]
        exact ⟨[ascii '-'], ExponentSign.minus, by rw [hm]; rfl⟩
      · rw [if_neg hm]
        by_cases hp : u = ascii '+'
        · rw [if_pos hp]
          exact ⟨[ascii '+'], ExponentSign.plus, by rw [hp]; rfl⟩
        · rw [if_neg hp]
          exact ⟨[], ExponentSign.none, rfl⟩

/-- An optional sign of an exponent is read in front of digits. -/
theorem splitSign_append {t ds rest : Text} {negative : Bool} (ht : ExponentSign t negative)
    (hds : Digits ds) : Numeral.splitSign (t ++ (ds ++ rest)) = (negative, ds ++ rest) := by
  rcases hds.exists_cons with ⟨u, ds', rfl, hu⟩
  cases ht with
  | none =>
      -- A digit is neither of the two signs.
      have hm : u ≠ ascii '-' := fun hc => absurd hu (by rw [hc]; decide)
      have hp : u ≠ ascii '+' := fun hc => absurd hu (by rw [hc]; decide)
      rw [List.nil_append, List.cons_append, Numeral.splitSign, if_neg hm, if_neg hp]
  | plus => rw [List.cons_append, Numeral.splitSign, if_neg (by decide), if_pos rfl,
      List.nil_append]
  | minus => rw [List.cons_append, Numeral.splitSign, if_pos rfl, List.nil_append]

/-- What is read as an optional exponent is one. -/
theorem exponent?_sound {s rest : Text} {e : Option Int} (h : exponent? s = .ok (e, rest)) :
    ∃ t, Exponent t e ∧ s = t ++ rest := by
  cases s with
  | nil =>
      simp only [exponent?, Except.ok.injEq, Prod.mk.injEq] at h
      rcases h with ⟨rfl, rfl⟩
      exact ⟨[], Exponent.none, rfl⟩
  | cons u s =>
      rw [exponent?] at h
      by_cases hu : u = ascii 'e' ∨ u = ascii 'E'
      · rw [if_pos hu] at h
        -- The letter has to be followed by digits, a sign before them or not.
        rcases sign_splitSign s with ⟨t, ht, hs⟩
        cases hd : digits .exponentDigit (Numeral.splitSign s).2 with
        | error e => simp only [hd, Except.map, reduceCtorEq] at h
        | ok p =>
            simp only [hd, Except.map, Except.ok.injEq, Prod.mk.injEq] at h
            rcases h with ⟨rfl, rfl⟩
            rcases digits_eq_ok_iff.mp hd with ⟨hds, hr, -⟩
            refine ⟨_, decimal_eq_digitsValue _ ▸ Exponent.some hu ht hds, ?_⟩
            rw [List.cons_append, List.append_assoc, ← hr, ← hs]
      · rw [if_neg hu] at h
        simp only [Except.ok.injEq, Prod.mk.injEq] at h
        rcases h with ⟨rfl, rfl⟩
        exact ⟨[], Exponent.none, rfl⟩

/-- An optional exponent is read in front of a text that stops it. -/
theorem exponent?_append {t rest : Text} {e : Option Int} (ht : Exponent t e)
    (hrest : Stops rest) : exponent? (t ++ rest) = .ok (e, rest) := by
  cases ht with
  | none =>
      cases rest with
      | nil => rfl
      | cons u rest =>
          have hu : ¬ (u = ascii 'e' ∨ u = ascii 'E') :=
            fun hc => next_cons.mp hrest (.inr (.inr hc))
          rw [List.nil_append, exponent?, if_neg hu]
  | some he hsign hds =>
      have hd := digits_append .exponentDigit hds hrest.noDigit
      rw [List.cons_append, List.append_assoc, exponent?, if_pos he]
      simp only [splitSign_append hsign hds, hd, decimal_eq_digitsValue]
      rfl

/-- The integers that have a value are those of sixty-four bits. -/
theorem int?_eq_ok_iff {n : Int} {v : Value} :
    int? n = .ok v ↔ ∃ k : Int64, k.toInt = n ∧ v = .int k := by
  rw [int?]
  constructor
  · intro h
    by_cases hr : inRange n = true
    · rw [if_pos hr, Except.ok.injEq] at h
      -- In the range of sixty-four bits nothing wraps around.
      simp only [inRange, Bool.and_eq_true, decide_eq_true_eq, Int64.toInt_minValue,
        Int64.toInt_maxValue] at hr
      exact ⟨Int64.ofInt n, Int64.toInt_ofInt_of_le hr.1 (by omega), h.symm⟩
    · rw [if_neg hr] at h
      exact absurd h (by simp only [reduceCtorEq, not_false_eq_true])
  · rintro ⟨k, rfl, rfl⟩
    have hr : inRange k.toInt = true := by
      simp only [inRange, Bool.and_eq_true, decide_eq_true_eq]
      exact ⟨k.minValue_le_toInt, k.toInt_le⟩
    rw [if_pos hr, Int64.ofInt_toInt]

theorem toOption_eq_some_iff {ε α : Type} {r : Except ε α} {a : α} :
    r.toOption = some a ↔ r = .ok a := by
  cases r with
  | error e => simp only [Except.toOption, reduceCtorEq]
  | ok b => simp only [Except.toOption, Option.some.injEq, Except.ok.injEq]

/-- A number by its parts has the value that the grammar gives it. -/
theorem numberValue_eq_some_iff {negative : Bool} {whole : Text} {f : Option Text}
    {e : Option Int} {v : Value} :
    numberValue negative whole f e = some v ↔ Meaning negative whole f e v := by
  rcases f with _ | ds
  · rcases e with _ | n
    -- Neither a fraction nor an exponent: an integer, if it is in range.
    · simp only [numberValue, ← decimal_eq_digitsValue]
      rw [toOption_eq_some_iff, int?_eq_ok_iff]
      constructor
      · rintro ⟨k, hk, rfl⟩
        exact Meaning.int hk
      · intro h
        cases h with
        | int hn => exact ⟨_, hn, rfl⟩
    -- An exponent alone: there are no digits behind the point.
    · simp only [numberValue, Option.getD_none, Option.getD_some, List.append_nil,
        List.length_nil, Int.natCast_zero, Int.sub_zero, Option.some.injEq,
        ← decimal_eq_digitsValue]
      constructor
      · rintro rfl
        exact Meaning.exponent (Double.nearest_ofDecimal _ _ _)
      · intro h
        cases h with
        | exponent hx => rw [(Double.nearest_ofDecimal _ _ _).unique hx]
  -- What is computed is the nearest double, and there is only one.
  · simp only [numberValue, Option.getD_some, Option.some.injEq, ← decimal_eq_digitsValue]
    constructor
    · rintro rfl
      exact Meaning.fraction (Double.nearest_ofDecimal _ _ _)
    · intro h
      cases h with
      | fraction hx => rw [(Double.nearest_ofDecimal _ _ _).unique hx]

/-- What is read as a number is one. -/
theorem number_sound {s rest : Text} {v : Value} (h : number s = .ok (v, rest)) :
    ∃ t, Number t v ∧ s = t ++ rest := by
  rcases sign_splitMinus s with ⟨sign, hsign, hs⟩
  simp only [number, bind, Except.bind] at h
  -- Each part is derived from what the part before it left.
  cases hd : digits .digit (splitMinus s).2 with
  | error e => simp only [hd, reduceCtorEq] at h
  | ok p =>
      rcases digits_eq_ok_iff.mp hd with ⟨hw, hp, -⟩
      simp only [hd] at h
      cases hf : fraction? p.2 with
      | error e => simp only [hf, reduceCtorEq] at h
      | ok q =>
          rcases fraction?_sound hf with ⟨fraction, hfraction, hq⟩
          simp only [hf] at h
          cases he : exponent? q.2 with
          | error e => simp only [he, reduceCtorEq] at h
          | ok x =>
              rcases exponent?_sound he with ⟨exponent, hexponent, hx⟩
              simp only [he] at h
              cases hv : numberValue (splitMinus s).1 p.1 q.1 x.1 with
              | none =>
                  simp only [hv, throw, throwThe, MonadExceptOf.throw, reduceCtorEq] at h
              | some w =>
                  simp only [hv, pure, Except.pure, Except.ok.injEq, Prod.mk.injEq] at h
                  rcases h with ⟨rfl, rfl⟩
                  refine ⟨_, Number.mk hsign hw hfraction hexponent
                    (numberValue_eq_some_iff.mp hv), ?_⟩
                  rw [List.append_assoc, List.append_assoc, List.append_assoc, ← hx, ← hq, ← hp,
                    ← hs]

/-- What can follow the digits in front of a point or the fraction of a number. -/
theorem Grammar.Exponent.next {t rest : Text} {e : Option Int} (h : Exponent t e)
    (hrest : Stops rest) :
    Next (fun u => u.isDigit = false ∧ u ≠ ascii '.') (t ++ rest) := by
  cases h with
  | none =>
      refine Next.mono hrest fun u hu => ⟨?_, fun hc => hu (.inr (.inl hc))⟩
      exact Bool.eq_false_iff.mpr fun hc => hu (.inl hc)
  | some he _ _ =>
      refine next_cons.mpr ?_
      rcases he with rfl | rfl
      · decide
      · decide

/-- A fraction begins with a point, so it does not carry the digits before it on. -/
theorem Grammar.Fraction.next {t rest : Text} {f : Option Text} (h : Fraction t f)
    (hrest : Next (fun u => u.isDigit = false ∧ u ≠ ascii '.') rest) :
    Next (fun u => u.isDigit = false) (t ++ rest) := by
  cases h with
  | none => exact hrest.mono fun _ hu => hu.1
  | some _ => exact next_cons.mpr (by decide)

/-- A number is read in front of a text that stops it. -/
theorem number_append {t rest : Text} {v : Value} (h : Number t v) (hrest : Stops rest) :
    number (t ++ rest) = .ok (v, rest) := by
  cases h with
  | @mk sign whole fraction exponent negative f e v hs hw hf he hv =>
      -- From the back: what follows a part stops it, so the part is read whole.
      have hx := exponent?_append he hrest
      have hq := fraction?_append hf (he.next hrest)
      have hd := digits_append .digit hw (hf.next (he.next hrest))
      have hm : splitMinus (sign ++ (whole ++ (fraction ++ (exponent ++ rest))))
          = (negative, whole ++ (fraction ++ (exponent ++ rest))) := splitMinus_append hs hw
      have hn := numberValue_eq_some_iff.mpr hv
      simp only [number, List.append_assoc, hm, hd, hq, hx, hn, bind, Except.bind, pure,
        Except.pure]

/-- A number begins with a minus sign or a digit. -/
theorem Grammar.Number.exists_cons {t : Text} {v : Value} (h : Number t v) :
    ∃ u rest, t = u :: rest ∧ (u = ascii '-' ∨ u.isDigit = true) := by
  cases h with
  | mk hs hw _ _ _ =>
      cases hs with
      | none =>
          rcases hw.exists_cons with ⟨u, rest, rfl, hu⟩
          exact ⟨u, _, rfl, .inr hu⟩
      | minus => exact ⟨ascii '-', _, rfl, .inl rfl⟩

/-! ### Strings -/

/-- The escapes of two units that are read are those of the grammar. -/
theorem escaped?_eq_some_iff {e c : CodeUnit} : escaped? e = some c ↔ Letter e c := by
  constructor
  · intro h
    -- One case for each test of the reader, in its order.
    simp only [escaped?] at h
    split at h
    · next he =>
      rw [Option.some.injEq] at h
      subst h
      rcases he with rfl | rfl | rfl
      · exact Letter.quotation
      · exact Letter.backslash
      · exact Letter.slash
    · split at h
      · next he =>
        rw [Option.some.injEq] at h
        rw [he, ← h]
        exact Letter.backspace
      · split at h
        · next he =>
          rw [Option.some.injEq] at h
          rw [he, ← h]
          exact Letter.formFeed
        · split at h
          · next he =>
            rw [Option.some.injEq] at h
            rw [he, ← h]
            exact Letter.lineFeed
          · split at h
            · next he =>
              rw [Option.some.injEq] at h
              rw [he, ← h]
              exact Letter.carriageReturn
            · split at h
              · next he =>
                rw [Option.some.injEq] at h
                rw [he, ← h]
                exact Letter.tab
              · exact absurd h (by simp only [reduceCtorEq, not_false_eq_true])
  · intro h
    cases h <;> rfl

/-- Four hexadecimal digits write the unit that the grammar gives them. -/
theorem hexUnit?_eq_some_iff {a b c d n : CodeUnit} :
    hexUnit? a b c d = some n ↔ ∃ w x y z, HexDigit a w ∧ HexDigit b x ∧ HexDigit c y
      ∧ HexDigit d z ∧ n = UInt16.ofNat (((w * 16 + x) * 16 + y) * 16 + z) := by
  simp only [hexUnit?, bind, Option.bind_eq_some_iff, pure, Option.some.injEq, hexDigit_iff]
  constructor
  · rintro ⟨w, hw, x, hx, y, hy, z, hz, rfl⟩
    exact ⟨w, x, y, z, hw, hx, hy, hz, rfl⟩
  · rintro ⟨w, x, y, z, hw, hx, hy, hz, rfl⟩
    exact ⟨w, hw, x, hx, y, hy, z, hz, rfl⟩

/-- What is read as a string is one. -/
theorem stringBody_sound {t s rest : Text} (h : stringBody t = .ok (s, rest)) :
    ∃ b, Body b s ∧ t = b ++ 0x22 :: rest := by
  fun_induction stringBody t generalizing s with
  | case1 => exact absurd h (by simp only [reduceCtorEq, not_false_eq_true])
  | case2 tail =>
      simp only [Except.ok.injEq, Prod.mk.injEq] at h
      rcases h with ⟨rfl, rfl⟩
      exact ⟨[], Body.nil, rfl⟩
  | case3 => exact absurd h (by simp only [reduceCtorEq, not_false_eq_true])
  | case4 e tail c hc _ ih =>
      -- An escape of two units.
      rcases consUnit_eq_ok h with ⟨s', rfl, h'⟩
      rcases ih h' with ⟨b, hb, rfl⟩
      exact ⟨_, Body.cons (Spelling.letter (escaped?_eq_some_iff.mp hc)) hb, rfl⟩
  | case5 a b c d tail n hn _ _ ih =>
      -- The escape with four hexadecimal digits.
      rcases consUnit_eq_ok h with ⟨s', rfl, h'⟩
      rcases ih h' with ⟨body, hb, rfl⟩
      rcases hexUnit?_eq_some_iff.mp hn with ⟨w, x, y, z, hw, hx, hy, hz, rfl⟩
      exact ⟨_, Body.cons (Spelling.hex hw hx hy hz) hb, rfl⟩
  | case6 => exact absurd h (by simp only [reduceCtorEq, not_false_eq_true])
  | case7 => exact absurd h (by simp only [reduceCtorEq, not_false_eq_true])
  | case8 => exact absurd h (by simp only [reduceCtorEq, not_false_eq_true])
  | case9 u tail hq hb ih =>
      -- Any other unit stands for itself.
      rcases consUnit_eq_ok h with ⟨s', rfl, h'⟩
      rcases ih h' with ⟨b, hbody, rfl⟩
      exact ⟨_, Body.cons (Spelling.raw hq hb) hbody, rfl⟩

/-- One spelled unit is read, whatever follows it. -/
theorem stringBody_spelling {t : Text} {u : CodeUnit} (h : Spelling t u) (rest : Text) :
    stringBody (t ++ rest) = consUnit u (stringBody rest) := by
  cases h with
  | raw hq hb =>
      rw [List.singleton_append, stringBody.eq_def]
      simp only [hq, hb, if_false]
  | letter hc =>
      have := escaped?_eq_some_iff.mpr hc
      rw [List.cons_append, List.cons_append, List.nil_append, stringBody.eq_def]
      simp only [this, show (0x5C : CodeUnit) ≠ 0x22 by decide, if_false, if_true]
  | hex ha hb hc hd =>
      have hu : escaped? (ascii 'u') = none := by decide
      have := hexUnit?_eq_some_iff.mpr ⟨_, _, _, _, ha, hb, hc, hd, rfl⟩
      simp only [List.cons_append, List.nil_append]
      rw [stringBody.eq_def]
      simp only [hu, this, show (0x5C : CodeUnit) ≠ 0x22 by decide, if_false, if_true]

/-- A string is read in front of anything. -/
theorem stringBody_append {b s : Text} (h : Body b s) (rest : Text) :
    stringBody (b ++ 0x22 :: rest) = .ok (s, rest) := by
  induction h with
  | nil =>
      rw [List.nil_append, stringBody.eq_def]
      rfl
  | cons hu _ ih => rw [List.append_assoc, stringBody_spelling hu, ih, consUnit]

end Json

end NodeWatch
