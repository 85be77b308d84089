import NodeWatch.Proofs.Json.Scanning

/-!
# The Steps of the Readers

The three readers of values call each other on what is left of the text, and
their results carry a proof that it has become shorter. `Yields` forgets that
proof, and `ValueStep`, `ItemsStep` and `MembersStep` say once what a reader
does before and after it calls another one. The readers are opened for these
three relations and nowhere else.

## Main definitions

* `Yields`: A reader succeeds with a value and leaves a rest.
* `ValueStep`, `ItemsStep`, `MembersStep`: One step of each reader.

## Theorems

* `yields_string_iff`, `yields_numeral_iff`, `yields_literal_iff`: The readers
  that call no other.
* `yields_value_iff`, `yields_items_iff`, `yields_members_iff`: The steps are
  what the readers do.
-/

namespace NodeWatch

namespace Json

open Grammar

/-- A reader succeeds with a value and leaves a rest. -/
def Yields {α : Type} {s : Text} (result : Except Failure (Parsed α s)) (v : α) (rest : Text) :
    Prop :=
  ∃ h, result = .ok ⟨v, rest, h⟩

theorem yields_ok_iff {α : Type} {s : Text} {p : Parsed α s} {v : α} {rest : Text} :
    Yields (.ok p) v rest ↔ v = p.value ∧ rest = p.rest := by
  constructor
  · rintro ⟨h, hp⟩
    rw [Except.ok.injEq] at hp
    rw [hp]
    exact ⟨rfl, rfl⟩
  · rintro ⟨rfl, rfl⟩
    exact ⟨p.shorter, rfl⟩

theorem yields_self {α : Type} {s : Text} (p : Parsed α s) : Yields (.ok p) p.value p.rest :=
  ⟨p.shorter, rfl⟩

theorem not_yields_error {α : Type} {s : Text} {e : Failure} {v : α} {rest : Text} :
    ¬ Yields (.error e : Except Failure (Parsed α s)) v rest := by
  rintro ⟨h, hp⟩
  simp only [reduceCtorEq] at hp

theorem yields_map_iff {α β : Type} {s t : Text} {r : Except Failure (Parsed α s)} {f : α → β}
    {h : s.length ≤ t.length} {v : β} {rest : Text} :
    Yields (r.map fun p => (p.map f).widen h) v rest ↔ ∃ a, v = f a ∧ Yields r a rest := by
  cases r with
  | error e =>
      constructor
      · intro hy
        exact absurd hy not_yields_error
      · rintro ⟨a, -, hy⟩
        exact absurd hy not_yields_error
  | ok p =>
      rw [Except.map, yields_ok_iff]
      constructor
      · rintro ⟨hv, hr⟩
        exact ⟨p.value, hv, yields_ok_iff.mpr ⟨rfl, hr⟩⟩
      · rintro ⟨a, hv, hy⟩
        rcases yields_ok_iff.mp hy with ⟨rfl, hr⟩
        exact ⟨hv, hr⟩

theorem yields_widen_iff {α : Type} {s t : Text} {r : Except Failure (Parsed α s)}
    {h : s.length ≤ t.length} {v : α} {rest : Text} :
    Yields (r.map (·.widen h)) v rest ↔ Yields r v rest := by
  cases r with
  | error e => exact iff_of_false not_yields_error not_yields_error
  | ok p =>
      rw [Except.map, yields_ok_iff, yields_ok_iff]
      rfl

theorem yields_string_iff {s : Text} {u : CodeUnit} {body : Text} {hs : s = u :: body}
    {t rest : Text} :
    Yields (string u body hs) t rest ↔ stringBody body = .ok (t, rest) := by
  rw [string]
  split
  · next e he =>
    rw [he]
    exact iff_of_false not_yields_error (by simp only [reduceCtorEq, not_false_eq_true])
  · next t' rest' he =>
    refine yields_ok_iff.trans ⟨?_, fun h => ?_⟩
    · rintro ⟨rfl, rfl⟩
      exact he
    · rw [he, Except.ok.injEq, Prod.mk.injEq] at h
      exact ⟨h.1.symm, h.2.symm⟩

theorem yields_numeral_iff {s : Text} {v : Value} {rest : Text} :
    Yields (numeral s) v rest ↔ number s = .ok (v, rest) := by
  rw [numeral]
  split
  · next e he =>
    rw [he]
    exact iff_of_false not_yields_error (by simp only [reduceCtorEq, not_false_eq_true])
  · next v' rest' he =>
    refine yields_ok_iff.trans ⟨?_, fun h => ?_⟩
    · rintro ⟨rfl, rfl⟩
      exact he
    · rw [he, Except.ok.injEq, Prod.mk.injEq] at h
      exact ⟨h.1.symm, h.2.symm⟩

theorem yields_literal_iff {word s : Text} {v w : Value} {rest : Text} (hword : word ≠ []) :
    Yields (literal word v s) w rest ↔ w = v ∧ s = word ++ rest := by
  rw [literal]
  split
  · next h =>
    rw [yields_ok_iff]
    -- What is dropped is the word, since the text begins with it.
    have hs : s = word ++ s.drop word.length := by
      rcases List.isPrefixOf_iff_prefix.mp h.2 with ⟨t, rfl⟩
      rw [List.drop_left]
    constructor
    · rintro ⟨rfl, rfl⟩
      exact ⟨rfl, hs⟩
    · rintro ⟨rfl, ht⟩
      exact ⟨rfl, List.append_cancel_left (ht.symm.trans hs)⟩
  · next h =>
    refine iff_of_false not_yields_error ?_
    rintro ⟨rfl, rfl⟩
    -- A text that begins with the word passes the test.
    refine h ⟨?_, List.isPrefixOf_iff_prefix.mpr (List.prefix_append word rest)⟩
    have := List.length_pos_iff.mpr hword
    rw [List.length_append]
    omega

/-- One step of reading a value, from a text without blanks in front. -/
inductive ValueStep : Text → Value → Text → Prop where
  | null {s rest : Text} (h : s = ("null" : Text) ++ rest) : ValueStep s .null rest
  | bool {b : Bool} {s rest : Text} (h : s = Text.ofBool b ++ rest) : ValueStep s (.bool b) rest
  | number {u : CodeUnit} {s rest : Text} {v : Value} (hu : u = ascii '-' ∨ u.isDigit = true)
      (h : number (u :: s) = .ok (v, rest)) : ValueStep (u :: s) v rest
  | string {body s rest : Text} (h : stringBody body = .ok (s, rest)) :
      ValueStep (0x22 :: body) (.string s) rest
  | emptyArray {body rest : Text} (h : skipSpace body = ascii ']' :: rest) :
      ValueStep (ascii '[' :: body) (.array []) rest
  | array {body rest : Text} {vs : List Value} {c : CodeUnit} {tail : Text}
      (hc : skipSpace body = c :: tail) (hne : c ≠ ascii ']') (h : Yields (items body) vs rest) :
      ValueStep (ascii '[' :: body) (.array vs) rest
  | emptyObject {body rest : Text} (h : skipSpace body = ascii '\x7d' :: rest) :
      ValueStep (ascii '\x7b' :: body) (.object []) rest
  | object {body rest : Text} {es : List (Text × Value)} {c : CodeUnit} {tail : Text}
      (hc : skipSpace body = c :: tail) (hne : c ≠ ascii '\x7d')
      (h : Yields (members body) es rest) :
      ValueStep (ascii '\x7b' :: body) (.object (Entries.ofList es)) rest

/-- One step of reading items. -/
inductive ItemsStep (s : Text) : List Value → Text → Prop where
  | last {v : Value} {r rest : Text} (hv : Yields (value s) v r)
      (hr : skipSpace r = ascii ']' :: rest) : ItemsStep s [v] rest
  | cons {v : Value} {vs : List Value} {r t rest : Text} (hv : Yields (value s) v r)
      (hr : skipSpace r = ascii ',' :: t) (h : Yields (items t) vs rest) :
      ItemsStep s (v :: vs) rest

/-- One step of reading entries. The first entry is read in the same way
    whether or not there are more. -/
inductive MembersStep (s : Text) : List (Text × Value) → Text → Prop where
  | mk {key : Text} {v : Value} {es : List (Text × Value)} {body q t r rest : Text}
      (hs : skipSpace s = 0x22 :: body) (hk : stringBody body = .ok (key, q))
      (hq : skipSpace q = ascii ':' :: t) (hv : Yields (value t) v r)
      (h : (skipSpace r = ascii '\x7d' :: rest ∧ es = [])
        ∨ ∃ w, skipSpace r = ascii ',' :: w ∧ Yields (members w) es rest) :
      MembersStep s ((key, v) :: es) rest

theorem valueStep_of_yields {s rest : Text} {v : Value} (h : Yields (value s) v rest) :
    ValueStep (skipSpace s) v rest := by
  rw [value] at h
  split at h
  · exact absurd h not_yields_error
  · next u body hs =>
    rw [hs]
    dsimp only at h
    -- The first unit decides; the cases come in the order of the reader's tests.
    by_cases hbrace : u = ascii '\x7b'
    · rw [if_pos hbrace] at h
      subst hbrace
      split at h
      · exact absurd h not_yields_error
      · next c tail hc =>
        -- A brace that closes at once, or entries up to one that does.
        by_cases hclose : c = ascii '\x7d'
        · rw [if_pos hclose] at h
          rcases yields_ok_iff.mp h with ⟨rfl, rfl⟩
          exact ValueStep.emptyObject (hclose ▸ hc)
        · rw [if_neg hclose] at h
          split at h
          · exact absurd h not_yields_error
          · next p hp =>
            rcases yields_ok_iff.mp h with ⟨rfl, rfl⟩
            exact ValueStep.object hc hclose (hp ▸ yields_self p)
    rw [if_neg hbrace] at h
    by_cases hbracket : u = ascii '['
    · rw [if_pos hbracket] at h
      subst hbracket
      split at h
      · exact absurd h not_yields_error
      · next c tail hc =>
        -- A bracket that closes at once, or items up to one that does.
        by_cases hclose : c = ascii ']'
        · rw [if_pos hclose] at h
          rcases yields_ok_iff.mp h with ⟨rfl, rfl⟩
          exact ValueStep.emptyArray (hclose ▸ hc)
        · rw [if_neg hclose] at h
          split at h
          · exact absurd h not_yields_error
          · next p hp =>
            rcases yields_ok_iff.mp h with ⟨rfl, rfl⟩
            exact ValueStep.array hc hclose (hp ▸ yields_self p)
    rw [if_neg hbracket] at h
    by_cases hquote : u = 0x22
    · rw [if_pos hquote, yields_map_iff] at h
      rcases h with ⟨t, rfl, ht⟩
      rw [hquote]
      exact ValueStep.string (yields_string_iff.mp ht)
    rw [if_neg hquote] at h
    -- The three words are told apart by their first letters.
    by_cases ht : u = ascii 't'
    · rw [if_pos ht, yields_widen_iff, yields_literal_iff (by decide)] at h
      rcases h with ⟨rfl, hb⟩
      exact ValueStep.bool hb
    rw [if_neg ht] at h
    by_cases hf : u = ascii 'f'
    · rw [if_pos hf, yields_widen_iff, yields_literal_iff (by decide)] at h
      rcases h with ⟨rfl, hb⟩
      exact ValueStep.bool hb
    rw [if_neg hf] at h
    by_cases hn : u = ascii 'n'
    · rw [if_pos hn, yields_widen_iff, yields_literal_iff (by decide)] at h
      rcases h with ⟨rfl, hb⟩
      exact ValueStep.null hb
    rw [if_neg hn] at h
    -- What is left is a number, or no value at all.
    by_cases hu : u = ascii '-' ∨ u.isDigit = true
    · rw [if_pos hu, yields_widen_iff, yields_numeral_iff] at h
      exact ValueStep.number hu h
    · rw [if_neg hu] at h
      exact absurd h not_yields_error

/-- A unit that begins a number begins nothing else. -/
theorem begins_number_ne {u c : CodeUnit} (hu : u = ascii '-' ∨ u.isDigit = true)
    (hc : ¬ (c = ascii '-' ∨ c.isDigit = true)) : u ≠ c := by
  rintro rfl
  exact hc hu

theorem yields_of_valueStep {s rest : Text} {v : Value} (h : ValueStep (skipSpace s) v rest) :
    Yields (value s) v rest := by
  rw [value]
  split
  · next hs =>
    -- No value is read from nothing.
    rw [hs] at h
    cases h with
    | null h => exact absurd h (List.cons_ne_nil _ _).symm
    | @bool b _ _ h =>
        cases b
        · exact absurd h (List.cons_ne_nil _ _).symm
        · exact absurd h (List.cons_ne_nil _ _).symm
  · next u body hs =>
    rw [hs] at h
    dsimp only
    -- Each kind of value fails the tests before its own and passes that one.
    cases h with
    | null h =>
        have hu : u = ascii 'n' := (List.cons.inj h).1
        subst hu
        rw [if_neg (by decide), if_neg (by decide), if_neg (by decide), if_neg (by decide),
          if_neg (by decide), if_pos rfl, yields_widen_iff, yields_literal_iff (by decide)]
        exact ⟨rfl, h⟩
    | @bool b _ _ h =>
        cases b
        · have hu : u = ascii 'f' := (List.cons.inj h).1
          subst hu
          rw [if_neg (by decide), if_neg (by decide), if_neg (by decide), if_neg (by decide),
            if_pos rfl, yields_widen_iff, yields_literal_iff (by decide)]
          exact ⟨rfl, h⟩
        · have hu : u = ascii 't' := (List.cons.inj h).1
          subst hu
          rw [if_neg (by decide), if_neg (by decide), if_neg (by decide), if_pos rfl,
            yields_widen_iff, yields_literal_iff (by decide)]
          exact ⟨rfl, h⟩
    | number hu h =>
        -- A minus sign or a digit fails all six tests that come first.
        rw [if_neg (begins_number_ne hu (by decide)), if_neg (begins_number_ne hu (by decide)),
          if_neg (begins_number_ne hu (by decide)), if_neg (begins_number_ne hu (by decide)),
          if_neg (begins_number_ne hu (by decide)), if_neg (begins_number_ne hu (by decide)),
          if_pos hu, yields_widen_iff, yields_numeral_iff]
        exact h
    | string h =>
        rw [if_neg (by decide), if_neg (by decide), if_pos rfl, yields_map_iff]
        exact ⟨_, rfl, yields_string_iff.mpr h⟩
    | emptyArray h =>
        rw [if_neg (by decide), if_pos rfl]
        split
        · next hc =>
          rw [hc] at h
          exact absurd h (List.cons_ne_nil _ _).symm
        · next c tail hc =>
          rcases List.cons.inj (h.symm.trans hc) with ⟨rfl, rfl⟩
          rw [if_pos rfl]
          exact yields_self _
    | array hc hne h =>
        rcases h with ⟨hlt, hi⟩
        rw [if_neg (by decide), if_pos rfl]
        -- The reader looks at the unit behind the blanks, which is the one of the step.
        split
        · next hc' =>
          rw [hc'] at hc
          exact absurd hc (List.cons_ne_nil _ _).symm
        · next c' tail' hc' =>
          rcases List.cons.inj (hc.symm.trans hc') with ⟨rfl, rfl⟩
          rw [if_neg hne, hi]
          exact yields_self _
    | emptyObject h =>
        rw [if_pos rfl]
        split
        · next hc =>
          rw [hc] at h
          exact absurd h (List.cons_ne_nil _ _).symm
        · next c tail hc =>
          rcases List.cons.inj (h.symm.trans hc) with ⟨rfl, rfl⟩
          rw [if_pos rfl]
          exact yields_self _
    | object hc hne h =>
        rcases h with ⟨hlt, hi⟩
        rw [if_pos rfl]
        split
        · next hc' =>
          rw [hc'] at hc
          exact absurd hc (List.cons_ne_nil _ _).symm
        · next c' tail' hc' =>
          rcases List.cons.inj (hc.symm.trans hc') with ⟨rfl, rfl⟩
          rw [if_neg hne, hi]
          exact yields_self _

/-- The steps of reading a value are what its reader does. -/
theorem yields_value_iff {s rest : Text} {v : Value} :
    Yields (value s) v rest ↔ ValueStep (skipSpace s) v rest :=
  ⟨valueStep_of_yields, yields_of_valueStep⟩

/-- The steps of reading items are what their reader does. -/
theorem yields_items_iff {s rest : Text} {vs : List Value} :
    Yields (items s) vs rest ↔ ItemsStep s vs rest := by
  constructor
  · intro h
    rw [items] at h
    split at h
    · exact absurd h not_yields_error
    · next p hp =>
      have hv : Yields (value s) p.value p.rest := hp ▸ yields_self p
      split at h
      · exact absurd h not_yields_error
      · next u t hr =>
        dsimp only at h
        -- Behind an item stands a comma or the bracket that closes.
        by_cases hcomma : u = ascii ','
        · rw [if_pos hcomma] at h
          split at h
          · exact absurd h not_yields_error
          · next q hq =>
            rcases yields_ok_iff.mp h with ⟨rfl, rfl⟩
            exact ItemsStep.cons hv (hcomma ▸ hr) (hq ▸ yields_self q)
        rw [if_neg hcomma] at h
        by_cases hclose : u = ascii ']'
        · rw [if_pos hclose] at h
          rcases yields_ok_iff.mp h with ⟨rfl, rfl⟩
          exact ItemsStep.last hv (hclose ▸ hr)
        · rw [if_neg hclose] at h
          exact absurd h not_yields_error
  · intro h
    rw [items]
    cases h with
    | last hv hr =>
        rcases hv with ⟨hlt, hv⟩
        rw [hv]
        dsimp only
        split
        · next hr' =>
          rw [hr'] at hr
          exact absurd hr (List.cons_ne_nil _ _).symm
        · next u t hr' =>
          rcases List.cons.inj (hr.symm.trans hr') with ⟨rfl, rfl⟩
          rw [if_neg (by decide), if_pos rfl]
          exact yields_self _
    | cons hv hr hi =>
        rcases hv with ⟨hlt, hv⟩
        rcases hi with ⟨hlt', hi⟩
        rw [hv]
        dsimp only
        split
        · next hr' =>
          rw [hr'] at hr
          exact absurd hr (List.cons_ne_nil _ _).symm
        · next u t hr' =>
          rcases List.cons.inj (hr.symm.trans hr') with ⟨rfl, rfl⟩
          rw [if_pos rfl, hi]
          exact yields_self _

/-- The steps of reading entries are what their reader does. -/
theorem yields_members_iff {s rest : Text} {es : List (Text × Value)} :
    Yields (members s) es rest ↔ MembersStep s es rest := by
  constructor
  · intro h
    rw [members] at h
    split at h
    · exact absurd h not_yields_error
    · next u body hs =>
      dsimp only at h
      by_cases hquote : u = 0x22
      · subst hquote
        rw [if_pos rfl] at h
        split at h
        · exact absurd h not_yields_error
        · next k hk =>
          -- The key, then a colon, then the value, then a comma or a brace.
          have hkey : stringBody body = .ok (k.value, k.rest) :=
            yields_string_iff.mp (hk ▸ yields_self k)
          split at h
          · exact absurd h not_yields_error
          · next c t hq =>
            by_cases hcolon : c = ascii ':'
            · rw [if_pos hcolon] at h
              subst hcolon
              split at h
              · exact absurd h not_yields_error
              · next p hp =>
                have hv : Yields (value t) p.value p.rest := hp ▸ yields_self p
                split at h
                · exact absurd h not_yields_error
                · next d w hr =>
                  by_cases hcomma : d = ascii ','
                  · rw [if_pos hcomma] at h
                    split at h
                    · exact absurd h not_yields_error
                    · next q hm =>
                      rcases yields_ok_iff.mp h with ⟨rfl, rfl⟩
                      exact MembersStep.mk hs hkey hq hv
                        (.inr ⟨w, hcomma ▸ hr, hm ▸ yields_self q⟩)
                  rw [if_neg hcomma] at h
                  by_cases hclose : d = ascii '\x7d'
                  · rw [if_pos hclose] at h
                    rcases yields_ok_iff.mp h with ⟨rfl, rfl⟩
                    exact MembersStep.mk hs hkey hq hv (.inl ⟨hclose ▸ hr, rfl⟩)
                  · rw [if_neg hclose] at h
                    exact absurd h not_yields_error
            · rw [if_neg hcolon] at h
              exact absurd h not_yields_error
      · rw [if_neg hquote] at h
        exact absurd h not_yields_error
  · rintro ⟨hs, hk, hq, hv, h⟩
    rw [members]
    split
    · next hs' =>
      rw [hs'] at hs
      exact absurd hs (List.cons_ne_nil _ _).symm
    · next u body' hs' =>
      rcases List.cons.inj (hs.symm.trans hs') with ⟨rfl, rfl⟩
      dsimp only
      have hkey : Yields (string 0x22 _ rfl) _ _ := yields_string_iff.mpr hk
      rcases hkey with ⟨hltk, hk'⟩
      rw [if_pos rfl, hk']
      dsimp only
      split
      · next hq' =>
        rw [hq'] at hq
        exact absurd hq (List.cons_ne_nil _ _).symm
      · next c t' hq' =>
        rcases List.cons.inj (hq.symm.trans hq') with ⟨rfl, rfl⟩
        rcases hv with ⟨hltv, hv'⟩
        rw [if_pos rfl, hv']
        dsimp only
        -- Nothing more follows, or a comma and the entries behind it.
        rcases h with ⟨hr, rfl⟩ | ⟨w, hr, hltm, hm⟩
        · split
          · next hr' =>
            rw [hr'] at hr
            exact absurd hr (List.cons_ne_nil _ _).symm
          · next d w' hr' =>
            rcases List.cons.inj (hr.symm.trans hr') with ⟨rfl, rfl⟩
            rw [if_neg (by decide), if_pos rfl]
            exact yields_self _
        · split
          · next hr' =>
            rw [hr'] at hr
            exact absurd hr (List.cons_ne_nil _ _).symm
          · next d w' hr' =>
            rcases List.cons.inj (hr.symm.trans hr') with ⟨rfl, rfl⟩
            rw [if_pos rfl, hm]
            exact yields_self _

end Json

end NodeWatch
