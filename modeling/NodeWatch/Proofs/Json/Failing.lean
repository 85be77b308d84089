import NodeWatch.Proofs.Json.Reading

/-!
# The Failures of the Readers

Every place at which a reader gives up, with what it has found out by then.
A reader reports a fault of its own or hands on the one of a reader that it
called, and which of the two happens depends on what it read before. The
inductive relations here list all the ways, one for each reader; they are the
counterpart of `Proofs.Json.Steps` for texts that are not read, and for them
the readers are opened once more and nowhere else.

What was read before a failure is said in the terms of the grammar. In a
string that is all there is to say: some units have been spelled, and the next
one is not. A number fails at one of its parts, and the parts in front of it
are those of a number; only a whole number that is out of range is given up as
a whole.

Only one direction is proved. That a reader fails is known from what is not
derived; these relations are for the place at which it fails.

## Main definitions

* `NumberFails`, `SpellingFails`: Failures of the readers that call no other.
* `ValueFails`, `ItemsFails`, `MembersFails`: Failures of the readers of values.

## Theorems

* `numberFails_of_number`, `spellingFails_of_stringBody`: Where numbers and
  strings fail.
* `valueFails_of_value`, `itemsFails_of_items`, `membersFails_of_members`:
  Where the readers of values fail.
* `read_eq_error`: Where a whole text fails.
-/

namespace NodeWatch

namespace Json

open Grammar

/-- A text that carries no digits on. -/
def NoDigit (t : Text) : Prop := Next (fun u => u.isDigit = false) t

/-! ### Numbers -/

/-- A missing digit is missed at the front of the text. -/
theorem digits_eq_error {fault : Fault} {s : Text} {f : Failure}
    (h : digits fault s = .error f) : f = ⟨fault, s.length⟩ ∧ NoDigit s := by
  cases s with
  | nil =>
      simp only [digits, Numeral.splitDigits, List.takeWhile_nil, List.dropWhile_nil,
        List.isEmpty_nil, if_true, Except.error.injEq] at h
      exact ⟨h.symm, Next.nil⟩
  | cons u t =>
      by_cases hu : u.isDigit = true
      · -- With a digit in front some are split off, and nothing is missed.
        simp only [digits, Numeral.splitDigits, List.takeWhile_cons_of_pos hu, List.isEmpty_cons,
          Bool.false_eq_true, if_false, reduceCtorEq] at h
      · simp only [digits, Numeral.splitDigits, List.takeWhile_cons_of_neg hu,
          List.dropWhile_cons_of_neg hu, List.isEmpty_nil, if_true, Except.error.injEq] at h
        exact ⟨h.symm, next_cons.mpr (Bool.eq_false_iff.mpr hu)⟩

theorem fraction?_eq_error {s : Text} {f : Failure} (h : fraction? s = .error f) :
    ∃ rest, s = ascii '.' :: rest ∧ f = ⟨.fractionDigit, rest.length⟩ ∧ NoDigit rest := by
  cases s with
  | nil => simp only [fraction?, reduceCtorEq] at h
  | cons u t =>
      rw [fraction?] at h
      by_cases hu : u = ascii '.'
      · rw [if_pos hu] at h
        cases hd : digits .fractionDigit t with
        | ok p => simp only [hd, Except.map, reduceCtorEq] at h
        | error e =>
            simp only [hd, Except.map, Except.error.injEq] at h
            rcases digits_eq_error hd with ⟨he, ht⟩
            exact ⟨t, by rw [hu], by rw [← h, he], ht⟩
      · rw [if_neg hu] at h
        simp only [reduceCtorEq] at h

theorem exponent?_eq_error {s : Text} {f : Failure} (h : exponent? s = .error f) :
    ∃ e sign rest negative, (e = ascii 'e' ∨ e = ascii 'E') ∧ ExponentSign sign negative ∧
      s = e :: (sign ++ rest) ∧ f = ⟨.exponentDigit, rest.length⟩ ∧ NoDigit rest := by
  cases s with
  | nil => simp only [exponent?, reduceCtorEq] at h
  | cons u t =>
      rw [exponent?] at h
      by_cases hu : u = ascii 'e' ∨ u = ascii 'E'
      · rw [if_pos hu] at h
        rcases sign_splitSign t with ⟨sign, hsign, ht⟩
        cases hd : digits .exponentDigit (Numeral.splitSign t).2 with
        | ok p => simp only [hd, Except.map, reduceCtorEq] at h
        | error e =>
            simp only [hd, Except.map, Except.error.injEq] at h
            rcases digits_eq_error hd with ⟨he, hrest⟩
            exact ⟨u, sign, _, _, hu, hsign, by rw [← ht], by rw [← h, he], hrest⟩
      · rw [if_neg hu] at h
        simp only [reduceCtorEq] at h

/-- No fraction is read where no point stands. -/
theorem fraction?_eq_none {s rest : Text} (h : fraction? s = .ok (none, rest)) :
    rest = s ∧ Next (· ≠ ascii '.') s := by
  cases s with
  | nil =>
      simp only [fraction?, Except.ok.injEq, Prod.mk.injEq, true_and] at h
      exact ⟨h.symm, Next.nil⟩
  | cons u t =>
      rw [fraction?] at h
      by_cases hu : u = ascii '.'
      · rw [if_pos hu] at h
        cases hd : digits .fractionDigit t with
        | error e => simp only [hd, Except.map, reduceCtorEq] at h
        | ok p => simp only [hd, Except.map, Except.ok.injEq, Prod.mk.injEq, reduceCtorEq,
            false_and] at h
      · rw [if_neg hu] at h
        simp only [Except.ok.injEq, Prod.mk.injEq, true_and] at h
        exact ⟨h.symm, next_cons.mpr hu⟩

/-- No exponent is read where none of its letters stands. -/
theorem exponent?_eq_none {s rest : Text} (h : exponent? s = .ok (none, rest)) :
    rest = s ∧ Next (fun u => ¬ (u = ascii 'e' ∨ u = ascii 'E')) s := by
  cases s with
  | nil =>
      simp only [exponent?, Except.ok.injEq, Prod.mk.injEq, true_and] at h
      exact ⟨h.symm, Next.nil⟩
  | cons u t =>
      rw [exponent?] at h
      by_cases hu : u = ascii 'e' ∨ u = ascii 'E'
      · rw [if_pos hu] at h
        cases hd : digits .exponentDigit (Numeral.splitSign t).2 with
        | error e => simp only [hd, Except.map, reduceCtorEq] at h
        | ok p => simp only [hd, Except.map, Except.ok.injEq, Prod.mk.injEq, reduceCtorEq,
            false_and] at h
      · rw [if_neg hu] at h
        simp only [Except.ok.injEq, Prod.mk.injEq, true_and] at h
        exact ⟨h.symm, next_cons.mpr hu⟩

/-- The ways in which reading a number fails. -/
inductive NumberFails : Text → Failure → Prop where
  | digit {sign rest : Text} {negative : Bool} (hs : Sign sign negative) (hr : NoDigit rest) :
      NumberFails (sign ++ rest) ⟨.digit, rest.length⟩
  | fraction {sign whole rest : Text} {negative : Bool} (hs : Sign sign negative)
      (hw : Digits whole) (hr : NoDigit rest) :
      NumberFails (sign ++ (whole ++ ascii '.' :: rest)) ⟨.fractionDigit, rest.length⟩
  | exponent {sign whole fraction esign rest : Text} {negative enegative : Bool}
      {f : Option Text} {e : CodeUnit} (hs : Sign sign negative) (hw : Digits whole)
      (hf : Fraction fraction f) (he : e = ascii 'e' ∨ e = ascii 'E')
      (hsign : ExponentSign esign enegative) (hr : NoDigit rest) :
      NumberFails (sign ++ (whole ++ (fraction ++ e :: (esign ++ rest))))
        ⟨.exponentDigit, rest.length⟩
  | range {sign whole rest : Text} {negative : Bool} (hs : Sign sign negative)
      (hw : Digits whole) (hrest : Stops rest)
      (hr : ∀ k : Int64, k.toInt ≠ signed negative (decimal whole)) :
      NumberFails (sign ++ (whole ++ rest))
        ⟨.intRange, (sign ++ (whole ++ rest)).length⟩

/-- A number has no value only if it is a whole number that is out of range. -/
theorem numberValue_eq_none {negative : Bool} {whole : Text} {f : Option Text} {e : Option Int}
    (h : numberValue negative whole f e = none) :
    f = none ∧ e = none ∧ ∀ k : Int64, k.toInt ≠ signed negative (decimal whole) := by
  rcases f with _ | ds
  · rcases e with _ | n
    · refine ⟨rfl, rfl, fun k hk => ?_⟩
      have hsome := numberValue_eq_some_iff.mpr (Meaning.int hk)
      rw [h] at hsome
      exact absurd hsome (by simp only [reduceCtorEq, not_false_eq_true])
    · simp only [numberValue, reduceCtorEq] at h
  · simp only [numberValue, reduceCtorEq] at h

theorem numberFails_of_number {s : Text} {f : Failure} (h : number s = .error f) :
    NumberFails s f := by
  rcases sign_splitMinus s with ⟨sign, hsign, hs⟩
  simp only [number, bind, Except.bind] at h
  -- The parts are read one after the other, and the first that fails decides.
  cases hd : digits .digit (splitMinus s).2 with
  | error e =>
      simp only [hd, Except.error.injEq] at h
      rcases digits_eq_error hd with ⟨he, hr⟩
      rw [hs, ← h, he]
      exact NumberFails.digit hsign hr
  | ok p =>
      rcases digits_eq_ok_iff.mp hd with ⟨hw, hp, hdigit⟩
      simp only [hd] at h
      cases hf : fraction? p.2 with
      | error e =>
          simp only [hf, Except.error.injEq] at h
          rcases fraction?_eq_error hf with ⟨rest, hrest, he, hr⟩
          rw [hs, hp, hrest, ← h, he]
          exact NumberFails.fraction hsign hw hr
      | ok q =>
          rcases fraction?_sound hf with ⟨fraction, hfraction, hq⟩
          simp only [hf] at h
          cases hx : exponent? q.2 with
          | error e =>
              simp only [hx, Except.error.injEq] at h
              rcases exponent?_eq_error hx with ⟨u, esign, rest, _, hu, hesign, hrest, he, hr⟩
              rw [hs, hp, hq, hrest, ← h, he]
              exact NumberFails.exponent hsign hw hfraction hu hesign hr
          | ok x =>
              simp only [hx] at h
              cases hv : numberValue (splitMinus s).1 p.1 q.1 x.1 with
              | some w => simp only [hv, pure, Except.pure, reduceCtorEq] at h
              | none =>
                  simp only [hv, throw, throwThe, MonadExceptOf.throw, Except.error.injEq] at h
                  rcases numberValue_eq_none hv with ⟨hnone, hnone', hrange⟩
                  rcases fraction?_eq_none (hf.trans (by rw [← hnone])) with ⟨hrest, hpoint⟩
                  rcases exponent?_eq_none (hx.trans (by rw [← hnone'])) with ⟨-, hletter⟩
                  rw [hrest] at hletter
                  rw [← h, hs, hp]
                  refine NumberFails.range hsign hw (fun u hu hcarries => ?_) hrange
                  rcases hcarries with hc | hc | hc
                  · exact absurd hc (Bool.eq_false_iff.mp (hdigit u hu))
                  · exact hpoint u hu hc
                  · exact hletter u hu hc

/-! ### Strings -/

/-- The ways in which a unit of a string is not spelled. -/
inductive SpellingFails : Text → Failure → Prop where
  | unterminated : SpellingFails [] ⟨.unterminated, 0⟩
  | unterminatedEscape : SpellingFails [0x5C] ⟨.unterminatedEscape, 0⟩
  | escape {e : CodeUnit} {rest : Text} (he : ∀ c, ¬ Letter e c) (hu : e ≠ ascii 'u') :
      SpellingFails (0x5C :: e :: rest) ⟨.escape e, rest.length + 1⟩
  | shortHex {rest : Text} (h : rest.length < 4) :
      SpellingFails (0x5C :: ascii 'u' :: rest) ⟨.shortHex, rest.length⟩
  | badHex {a b c d : CodeUnit} {tail : Text} (h : hexUnit? a b c d = none) :
      SpellingFails (0x5C :: ascii 'u' :: a :: b :: c :: d :: tail)
        ⟨.badHex, (a :: b :: c :: d :: tail).length⟩

theorem consUnit_eq_error {u : CodeUnit} {r : Except Failure (Text × Text)} {f : Failure}
    (h : consUnit u r = .error f) : r = .error f := by
  rcases r with e | ⟨t, q⟩
  · exact h
  · simp only [consUnit, reduceCtorEq] at h

/-- A string fails at a unit, and all units before it are spelled. -/
theorem spellingFails_of_stringBody {s : Text} {f : Failure} (h : stringBody s = .error f) :
    ∃ b t rest, Body b t ∧ s = b ++ rest ∧ SpellingFails rest f := by
  fun_induction stringBody s with
  | case1 =>
      cases h
      exact ⟨[], [], [], Body.nil, rfl, SpellingFails.unterminated⟩
  | case2 => simp only [reduceCtorEq] at h
  | case3 =>
      cases h
      exact ⟨[], [], _, Body.nil, rfl, SpellingFails.unterminatedEscape⟩
  | case4 e tail c hc _ ih =>
      -- An escape of two units is spelled, and the fault lies further on.
      rcases ih (consUnit_eq_error h) with ⟨b, t, rest, hb, rfl, hrest⟩
      exact ⟨_, _, rest, Body.cons (Spelling.letter (escaped?_eq_some_iff.mp hc)) hb, rfl, hrest⟩
  | case5 a b c d tail n hn _ _ ih =>
      rcases ih (consUnit_eq_error h) with ⟨body, t, rest, hb, rfl, hrest⟩
      rcases hexUnit?_eq_some_iff.mp hn with ⟨w, x, y, z, hw, hx, hy, hz, rfl⟩
      exact ⟨_, _, rest, Body.cons (Spelling.hex hw hx hy hz) hb, rfl, hrest⟩
  | case6 a b c d tail hn =>
      cases h
      exact ⟨[], [], _, Body.nil, rfl, SpellingFails.badHex hn⟩
  | case7 tail hshort =>
      cases h
      refine ⟨[], [], _, Body.nil, rfl, SpellingFails.shortHex ?_⟩
      -- Four units or more would have been taken for digits.
      rcases tail with _ | ⟨a, _ | ⟨b, _ | ⟨c, _ | ⟨d, tail⟩⟩⟩⟩
      case cons.cons.cons.cons => exact absurd rfl (hshort a b c d tail)
      all_goals
        simp only [List.length_cons, List.length_nil]
        omega
  | case8 e tail he hu =>
      cases h
      refine ⟨[], [], _, Body.nil, rfl, SpellingFails.escape (fun c hc => ?_) hu⟩
      rw [escaped?_eq_some_iff.mpr hc] at he
      exact absurd he (by simp only [reduceCtorEq, not_false_eq_true])
  | case9 u tail hq hb ih =>
      rcases ih (consUnit_eq_error h) with ⟨b, t, rest, hbody, rfl, hrest⟩
      exact ⟨_, _, rest, Body.cons (Spelling.raw hq hb) hbody, rfl, hrest⟩

/-! ### Values -/

/-- A unit that a value may begin with. -/
def Opens (u : CodeUnit) : Prop :=
  u = ascii '\x7b' ∨ u = ascii '[' ∨ u = 0x22 ∨ u = ascii 't' ∨ u = ascii 'f' ∨ u = ascii 'n' ∨
    u = ascii '-' ∨ u.isDigit = true

/-- The words of the grammar with the values that they stand for. -/
def IsWord (word : Text) : Prop := word = "true" ∨ word = "false" ∨ word = "null"

/-- The ways in which reading a value fails, from a text without blanks in front. -/
inductive ValueFails : Text → Failure → Prop where
  | nothing : ValueFails [] ⟨.endOfInput, 0⟩
  | noKey {body : Text} (h : skipSpace body = []) : ValueFails (ascii '\x7b' :: body) ⟨.key, 0⟩
  | object {body : Text} {f : Failure} (h : members body = .error f) :
      ValueFails (ascii '\x7b' :: body) f
  | noItem {body : Text} (h : skipSpace body = []) :
      ValueFails (ascii '[' :: body) ⟨.endOfInput, 0⟩
  | array {body : Text} {f : Failure} (h : items body = .error f) :
      ValueFails (ascii '[' :: body) f
  | string {body : Text} {f : Failure} (h : stringBody body = .error f) :
      ValueFails (0x22 :: body) f
  | word {word s : Text} (hw : IsWord word) (hs : s.head? = word.head?) (h : ¬ word <+: s) :
      ValueFails s ⟨.literal word, s.length⟩
  | number {s : Text} {f : Failure} (h : number s = .error f) : ValueFails s f
  | unexpected {u : CodeUnit} {s : Text} (h : ¬ Opens u) :
      ValueFails (u :: s) ⟨.unexpected u, s.length + 1⟩

/-- The ways in which reading items fails. -/
inductive ItemsFails (s : Text) : Failure → Prop where
  | value {f : Failure} (h : value s = .error f) : ItemsFails s f
  | ended {v : Value} {r : Text} (hv : Yields (value s) v r) (hr : skipSpace r = []) :
      ItemsFails s ⟨.arrayEnd, 0⟩
  | separator {v : Value} {r t : Text} {u : CodeUnit} (hv : Yields (value s) v r)
      (hr : skipSpace r = u :: t) (hcomma : u ≠ ascii ',') (hclose : u ≠ ascii ']') :
      ItemsFails s ⟨.arraySeparator, t.length + 1⟩
  | items {v : Value} {r t : Text} {f : Failure} (hv : Yields (value s) v r)
      (hr : skipSpace r = ascii ',' :: t) (h : items t = .error f) : ItemsFails s f

/-- The ways in which reading entries fails. -/
inductive MembersFails (s : Text) : Failure → Prop where
  | noKey (h : (skipSpace s).head? ≠ some 0x22) : MembersFails s ⟨.key, (skipSpace s).length⟩
  | key {body : Text} {f : Failure} (hs : skipSpace s = 0x22 :: body)
      (hk : stringBody body = .error f) : MembersFails s f
  | noColon {key body q : Text} (hs : skipSpace s = 0x22 :: body)
      (hk : stringBody body = .ok (key, q)) (hq : skipSpace q = []) :
      MembersFails s ⟨.colonMissing, 0⟩
  | colon {key body q t : Text} {u : CodeUnit} (hs : skipSpace s = 0x22 :: body)
      (hk : stringBody body = .ok (key, q)) (hq : skipSpace q = u :: t) (hu : u ≠ ascii ':') :
      MembersFails s ⟨.colonExpected u, t.length + 1⟩
  | value {key body q t : Text} {f : Failure} (hs : skipSpace s = 0x22 :: body)
      (hk : stringBody body = .ok (key, q)) (hq : skipSpace q = ascii ':' :: t)
      (hv : value t = .error f) : MembersFails s f
  | ended {key body q t r : Text} {v : Value} (hs : skipSpace s = 0x22 :: body)
      (hk : stringBody body = .ok (key, q)) (hq : skipSpace q = ascii ':' :: t)
      (hv : Yields (value t) v r) (hr : skipSpace r = []) : MembersFails s ⟨.objectEnd, 0⟩
  | separator {key body q t r w : Text} {v : Value} {u : CodeUnit}
      (hs : skipSpace s = 0x22 :: body) (hk : stringBody body = .ok (key, q))
      (hq : skipSpace q = ascii ':' :: t) (hv : Yields (value t) v r)
      (hr : skipSpace r = u :: w) (hcomma : u ≠ ascii ',') (hclose : u ≠ ascii '\x7d') :
      MembersFails s ⟨.objectSeparator, w.length + 1⟩
  | members {key body q t r w : Text} {v : Value} {f : Failure}
      (hs : skipSpace s = 0x22 :: body) (hk : stringBody body = .ok (key, q))
      (hq : skipSpace q = ascii ':' :: t) (hv : Yields (value t) v r)
      (hr : skipSpace r = ascii ',' :: w) (h : members w = .error f) : MembersFails s f

theorem string_eq_error {s : Text} {u : CodeUnit} {body : Text} {hs : s = u :: body}
    {f : Failure} (h : string u body hs = .error f) : stringBody body = .error f := by
  rw [string] at h
  split at h
  · next e he => exact he.trans (congrArg Except.error (Except.error.inj h))
  · simp only [reduceCtorEq] at h

theorem numeral_eq_error {s : Text} {f : Failure} (h : numeral s = .error f) :
    number s = .error f := by
  rw [numeral] at h
  split at h
  · next e he => exact he.trans (congrArg Except.error (Except.error.inj h))
  · simp only [reduceCtorEq] at h

theorem literal_eq_error {word s : Text} {v : Value} {f : Failure}
    (h : literal word v s = .error f) (hword : word ≠ []) :
    f = ⟨.literal word, s.length⟩ ∧ ¬ word <+: s := by
  rw [literal] at h
  split at h
  · simp only [reduceCtorEq] at h
  · next hnot =>
    rw [Except.error.injEq] at h
    refine ⟨h.symm, fun hpre => hnot ⟨?_, List.isPrefixOf_iff_prefix.mpr hpre⟩⟩
    -- A text that begins with the word is not empty.
    have hpos := List.length_pos_iff.mpr hword
    have hle := hpre.length_le
    omega

theorem map_eq_error {α β : Type} {r : Except Failure α} {g : α → β} {f : Failure}
    (h : r.map g = .error f) : r = .error f := by
  cases r with
  | error e => exact congrArg Except.error (Except.error.inj h)
  | ok a => simp only [Except.map, reduceCtorEq] at h

theorem valueFails_of_literal {α : Type} {word s : Text} {v : Value} {f : Failure}
    {g : Parsed Value s → α} (hw : IsWord word) (hs : s.head? = word.head?)
    (h : (literal word v s).map g = .error f) : ValueFails s f := by
  have hne : word ≠ [] := by
    rcases hw with rfl | rfl | rfl
    · decide
    · decide
    · decide
  rcases literal_eq_error (map_eq_error h) hne with ⟨rfl, hnot⟩
  exact ValueFails.word hw hs hnot

theorem valueFails_of_value {s : Text} {f : Failure} (h : value s = .error f) :
    ValueFails (skipSpace s) f := by
  rw [value] at h
  split at h
  · next hs =>
    rw [hs, ← Except.error.inj h]
    exact ValueFails.nothing
  · next u body hs =>
    rw [hs]
    dsimp only at h
    -- The cases come in the order of the reader's tests.
    by_cases hbrace : u = ascii '\x7b'
    · rw [if_pos hbrace] at h
      subst hbrace
      split at h
      · next hc =>
        rw [← Except.error.inj h]
        exact ValueFails.noKey hc
      · split at h
        · simp only [reduceCtorEq] at h
        · split at h
          · next e he =>
            rw [Except.error.inj h] at he
            exact ValueFails.object he
          · simp only [reduceCtorEq] at h
    rw [if_neg hbrace] at h
    by_cases hbracket : u = ascii '['
    · rw [if_pos hbracket] at h
      subst hbracket
      split at h
      · next hc =>
        rw [← Except.error.inj h]
        exact ValueFails.noItem hc
      · split at h
        · simp only [reduceCtorEq] at h
        · split at h
          · next e he =>
            rw [Except.error.inj h] at he
            exact ValueFails.array he
          · simp only [reduceCtorEq] at h
    rw [if_neg hbracket] at h
    by_cases hquote : u = 0x22
    · rw [if_pos hquote] at h
      rw [hquote]
      exact ValueFails.string (string_eq_error (map_eq_error h))
    rw [if_neg hquote] at h
    by_cases ht : u = ascii 't'
    · rw [if_pos ht] at h
      exact valueFails_of_literal (.inl rfl) (congrArg some ht) h
    rw [if_neg ht] at h
    by_cases hf : u = ascii 'f'
    · rw [if_pos hf] at h
      exact valueFails_of_literal (.inr (.inl rfl)) (congrArg some hf) h
    rw [if_neg hf] at h
    by_cases hn : u = ascii 'n'
    · rw [if_pos hn] at h
      exact valueFails_of_literal (.inr (.inr rfl)) (congrArg some hn) h
    rw [if_neg hn] at h
    by_cases hu : u = ascii '-' ∨ u.isDigit = true
    · rw [if_pos hu] at h
      exact ValueFails.number (numeral_eq_error (map_eq_error h))
    · rw [if_neg hu] at h
      rw [← Except.error.inj h]
      refine ValueFails.unexpected fun hopens => ?_
      rcases hopens with hc | hc | hc | hc | hc | hc | hc
      · exact hbrace hc
      · exact hbracket hc
      · exact hquote hc
      · exact ht hc
      · exact hf hc
      · exact hn hc
      · exact hu hc

theorem itemsFails_of_items {s : Text} {f : Failure} (h : items s = .error f) :
    ItemsFails s f := by
  rw [items] at h
  split at h
  · next e he =>
    rw [Except.error.inj h] at he
    exact ItemsFails.value he
  · next p hp =>
    have hv : Yields (value s) p.value p.rest := hp ▸ yields_self p
    split at h
    · next hr =>
      rw [← Except.error.inj h]
      exact ItemsFails.ended hv hr
    · next u t hr =>
      dsimp only at h
      by_cases hcomma : u = ascii ','
      · rw [if_pos hcomma] at h
        split at h
        · next e he =>
          rw [Except.error.inj h] at he
          exact ItemsFails.items hv (hcomma ▸ hr) he
        · simp only [reduceCtorEq] at h
      rw [if_neg hcomma] at h
      by_cases hclose : u = ascii ']'
      · rw [if_pos hclose] at h
        simp only [reduceCtorEq] at h
      · rw [if_neg hclose] at h
        rw [← Except.error.inj h]
        exact ItemsFails.separator hv hr hcomma hclose

theorem membersFails_of_members {s : Text} {f : Failure} (h : members s = .error f) :
    MembersFails s f := by
  rw [members] at h
  split at h
  · next hs =>
    have hkey := MembersFails.noKey (s := s) (by rw [hs]; exact fun hc => by cases hc)
    rw [hs] at hkey
    rw [← Except.error.inj h]
    exact hkey
  · next u body hs =>
    dsimp only at h
    by_cases hquote : u = 0x22
    · subst hquote
      rw [if_pos rfl] at h
      split at h
      · next e he =>
        rw [Except.error.inj h] at he
        exact MembersFails.key hs (string_eq_error he)
      · next k hk =>
        have hkey : stringBody body = .ok (k.value, k.rest) :=
          yields_string_iff.mp (hk ▸ yields_self k)
        split at h
        · next hq =>
          rw [← Except.error.inj h]
          exact MembersFails.noColon hs hkey hq
        · next c t hq =>
          by_cases hcolon : c = ascii ':'
          · rw [if_pos hcolon] at h
            subst hcolon
            split at h
            · next e he =>
              rw [Except.error.inj h] at he
              exact MembersFails.value hs hkey hq he
            · next p hp =>
              have hv : Yields (value t) p.value p.rest := hp ▸ yields_self p
              split at h
              · next hr =>
                rw [← Except.error.inj h]
                exact MembersFails.ended hs hkey hq hv hr
              · next d w hr =>
                by_cases hcomma : d = ascii ','
                · rw [if_pos hcomma] at h
                  split at h
                  · next e he =>
                    rw [Except.error.inj h] at he
                    exact MembersFails.members hs hkey hq hv (hcomma ▸ hr) he
                  · simp only [reduceCtorEq] at h
                rw [if_neg hcomma] at h
                by_cases hclose : d = ascii '\x7d'
                · rw [if_pos hclose] at h
                  simp only [reduceCtorEq] at h
                · rw [if_neg hclose] at h
                  rw [← Except.error.inj h]
                  exact MembersFails.separator hs hkey hq hv hr hcomma hclose
          · rw [if_neg hcolon] at h
            rw [← Except.error.inj h]
            exact MembersFails.colon hs hkey hq hcolon
    · rw [if_neg hquote] at h
      have hkey := MembersFails.noKey (s := s) (by
        rw [hs]
        exact fun hc => hquote (Option.some.inj hc))
      rw [hs] at hkey
      rw [← Except.error.inj h]
      exact hkey

/-- A text fails where its value does, or at what stands behind the value. -/
theorem read_eq_error {s : Text} {f : Failure} (h : read s = .error f) :
    value s = .error f ∨ ∃ v r, Yields (value s) v r ∧ skipSpace r ≠ [] ∧
      f = ⟨.trailing, (skipSpace r).length⟩ := by
  unfold read at h
  cases hv : value s with
  | error e =>
      simp only [hv] at h
      exact .inl (congrArg Except.error (Except.error.inj h))
  | ok p =>
      simp only [hv] at h
      by_cases hr : skipSpace p.rest = []
      · simp only [hr, List.isEmpty_nil, if_true, reduceCtorEq] at h
      · simp only [List.isEmpty_iff, hr, if_false, Except.error.injEq] at h
        exact .inr ⟨p.value, p.rest, yields_self p, hr, h.symm⟩

end Json

end NodeWatch
