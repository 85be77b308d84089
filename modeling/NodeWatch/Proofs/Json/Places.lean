import NodeWatch.Proofs.Json.Failing

/-!
# The Places of Faults

A text that is not read has a fault at an offset, and two things can be said
of the place. The text in front of it could still have become JSON: there is a
way to go on that makes it a text that is read. And what stands behind it is
what the fault says. So a fault is never reported too late, and the place is
the one that its wording speaks of.

Both are proved together, reader by reader, since they are about the same cut
of the text. `Breaks` is the cut: the part in front can be completed to
something that the grammar derives, and the part behind has the length that
the failure carries. Completing is done from the inside to the outside. A
reader that hands on a failure adds its own brackets around the completed part
and needs to know nothing else of it, which is `Breaks.within`.

One fault is not where it says. A backslash at the end of a text is read
together with the unit that should follow it, and the reader has gone one unit
past the end when it finds that there is none. Everywhere else the offset
lies in the text.

## Main definitions

* `EndsInEscape`: A text that ends with a backslash inside a string.
* `Fault.At`: What stands in front of the place of a fault and behind it.
* `Breaks`: The cut of a text at the place of a failure.
* `Located`: The failures of the readers of values are where they say.

## Theorems

* `located`: The readers of values are on every text.
* `place_of_parse`: The place of the fault of a whole text.
* `viable_of_parse`: The text in front of a fault can be completed.
* `offset_of_parse`: The offset lies in the text, but for one fault.
* `offset_past_end`: The one fault is past the end.
-/

namespace NodeWatch

namespace Json

open Grammar

/-! ### What a fault says -/

/-- A text that ends with a backslash inside a string, and the backslash is
    not escaped by another one. -/
def EndsInEscape (p : Text) : Prop := ∃ a b t, p = a ++ 0x22 :: (b ++ [0x5C]) ∧ Body b t

/-- What stands in front of the place of a fault and behind it. -/
def Fault.At (fault : Fault) (p q : Text) : Prop :=
  match fault with
  | .endOfInput | .colonMissing | .objectEnd | .arrayEnd | .unterminated => q = []
  | .unterminatedEscape => q = [] ∧ EndsInEscape p
  | .colonExpected u => q.head? = some u ∧ u ≠ ascii ':'
  | .unexpected u => q.head? = some u ∧ ¬ Opens u
  | .literal word => q.head? = word.head? ∧ ¬ word <+: q
  | .key => q.head? ≠ some 0x22
  | .objectSeparator => ∃ u, q.head? = some u ∧ u ≠ ascii ',' ∧ u ≠ ascii '\x7d'
  | .arraySeparator => ∃ u, q.head? = some u ∧ u ≠ ascii ',' ∧ u ≠ ascii ']'
  | .escape u => q.head? = some u ∧ (∀ c, ¬ Letter u c) ∧ u ≠ ascii 'u'
  | .shortHex => q.length < 4
  | .badHex => ∃ a b c d tail, q = a :: b :: c :: d :: tail ∧ hexUnit? a b c d = none
  | .digit | .fractionDigit | .exponentDigit => NoDigit q
  | .intRange => ∃ sign whole rest negative, q = sign ++ (whole ++ rest) ∧ Sign sign negative ∧
      Digits whole ∧ Stops rest ∧
      ∀ k : Int64, k.toInt ≠ signed negative (decimal whole)
  | .trailing => q ≠ []

/-- More text in front of a fault does not change what stands there. -/
theorem Fault.At.prepend {fault : Fault} {p q : Text} (h : fault.At p q) (a : Text) :
    fault.At (a ++ p) q := by
  cases fault with
  | unterminatedEscape =>
      rcases h with ⟨hq, c, b, t, rfl, hb⟩
      exact ⟨hq, a ++ c, b, t, (List.append_assoc a c _).symm, hb⟩
  | _ => exact h

/-- The cut of a text at the place of a failure. The part in front can be
    completed, and the fault is told by what stands there. -/
def Breaks (L : Text → Prop) (s : Text) (f : Failure) : Prop :=
  ∃ p q r, s = p ++ q ∧ q.length = f.left ∧ L (p ++ r) ∧ f.fault.At p q

/-- A failure inside a greater text is at the same place of it. -/
theorem Breaks.within {L M : Text → Prop} {s : Text} {f : Failure} (h : Breaks L s f)
    (a c : Text) (hLM : ∀ t, L t → M (a ++ (t ++ c))) : Breaks M (a ++ s) f := by
  rcases h with ⟨p, q, r, rfl, hq, hL, hat⟩
  refine ⟨a ++ p, q, r ++ c, (List.append_assoc a p q).symm, hq, ?_, hat.prepend a⟩
  rw [List.append_assoc, ← List.append_assoc p]
  exact hLM _ hL

/-- The same with nothing in front and nothing behind. -/
theorem Breaks.mono {L M : Text → Prop} {s : Text} {f : Failure} (h : Breaks L s f)
    (hLM : ∀ t, L t → M t) : Breaks M s f := by
  rcases h with ⟨p, q, r, hs, hq, hL, hat⟩
  exact ⟨p, q, r, hs, hq, hLM _ hL, hat⟩

/-! ### Numbers -/

/-- A number with a fraction or an exponent has a value. -/
theorem exists_number {sign whole fraction exponent : Text} {negative : Bool}
    {f : Option Text} {e : Option Int} (hs : Sign sign negative) (hw : Digits whole)
    (hf : Fraction fraction f) (he : Exponent exponent e) (h : f ≠ none ∨ e ≠ none) :
    ∃ v, Number (sign ++ (whole ++ (fraction ++ exponent))) v := by
  cases hv : numberValue negative whole f e with
  | some v => exact ⟨v, Number.mk hs hw hf he (numberValue_eq_some_iff.mp hv)⟩
  | none =>
      rcases numberValue_eq_none hv with ⟨hf', he', -⟩
      exact absurd he' (h.resolve_left fun hc => hc hf')

/-- A sign and a zero are a number. -/
theorem number_zero {sign : Text} {negative : Bool} (hs : Sign sign negative) :
    Number (sign ++ [ascii '0']) (.int 0) := by
  have hzero : decimal [ascii '0'] = 0 := by decide
  have hvalue : (0 : Int64).toInt = signed negative (decimal [ascii '0']) := by
    rw [hzero]
    cases negative <;> decide
  exact Number.mk hs digits_zero Fraction.none Exponent.none (Meaning.int hvalue)

/-- In front of a fault of a number, a zero completes it. -/
theorem breaks_number {s : Text} {f : Failure} (h : NumberFails s f) :
    Breaks (fun t => ∃ v, Number t v) s f := by
  cases h with
  | @digit sign rest _ hs hr => exact ⟨sign, rest, [ascii '0'], rfl, rfl, ⟨_, number_zero hs⟩, hr⟩
  | @fraction sign whole rest _ hs hw hr =>
      refine ⟨sign ++ (whole ++ [ascii '.']), rest, [ascii '0'], ?_, rfl, ?_, hr⟩
      · simp only [List.append_assoc, List.cons_append, List.nil_append]
      · have hnumber := exists_number hs hw (Fraction.some digits_zero) Exponent.none
          (.inl (Option.some_ne_none _))
        simpa only [List.append_assoc, List.cons_append, List.nil_append] using hnumber
  | @exponent sign whole fraction esign rest _ _ _ e hs hw hf he hsign hr =>
      refine ⟨sign ++ (whole ++ (fraction ++ e :: esign)), rest, [ascii '0'], ?_, rfl, ?_, hr⟩
      · simp only [List.append_assoc, List.cons_append]
      · have hnumber := exists_number hs hw hf (Exponent.some he hsign digits_zero)
          (.inr (Option.some_ne_none _))
        simpa only [List.append_assoc, List.cons_append] using hnumber
  | @range sign whole rest negative hs hw hrest hr =>
      -- The whole number is given back, so nothing of it stands in front.
      exact ⟨[], _, [ascii '0'], rfl, rfl, ⟨_, number_zero Sign.none⟩,
        ⟨sign, whole, rest, negative, rfl, hs, hw, hrest, hr⟩⟩

/-! ### Strings -/

theorem Grammar.Body.append {a b s t : Text} (ha : Body a s) (hb : Body b t) :
    Body (a ++ b) (s ++ t) := by
  induction ha with
  | nil => exact hb
  | cons hu _ ih =>
      rw [List.append_assoc]
      exact Body.cons hu ih

/-- In front of a fault inside a string, the unit can be spelled to its end.
    The fault at the end of the text looks at all of the string. -/
theorem exists_spelling {s : Text} {f : Failure} (h : SpellingFails s f) :
    ∃ p q r u, s = p ++ q ∧ q.length = f.left ∧ Spelling (p ++ r) u ∧
      ∀ b t, Body b t → f.fault.At (0x22 :: (b ++ p)) q := by
  have hdigit : HexDigit 0x30 0 := .digit (by decide) (by decide)
  have hhex := Spelling.hex hdigit hdigit hdigit hdigit
  have hbackslash := Spelling.letter Letter.backslash
  cases h with
  | unterminated =>
      exact ⟨[], [], [0x30], _, rfl, rfl, Spelling.raw (by decide) (by decide), fun _ _ _ => rfl⟩
  | unterminatedEscape =>
      exact ⟨[0x5C], [], [0x5C], _, rfl, rfl, hbackslash, fun b t hb => ⟨rfl, [], b, t, rfl, hb⟩⟩
  | @escape e rest he hu =>
      exact ⟨[0x5C], e :: rest, [0x5C], _, rfl, rfl, hbackslash, fun _ _ _ => ⟨rfl, he, hu⟩⟩
  | @shortHex rest hshort =>
      exact ⟨[0x5C, ascii 'u'], rest, [0x30, 0x30, 0x30, 0x30], _, rfl, rfl, hhex,
        fun _ _ _ => hshort⟩
  | @badHex a b c d tail hbad =>
      exact ⟨[0x5C, ascii 'u'], a :: b :: c :: d :: tail, [0x30, 0x30, 0x30, 0x30], _, rfl, rfl,
        hhex, fun _ _ _ => ⟨a, b, c, d, tail, rfl, hbad⟩⟩

/-- In front of a fault inside a string, the string can be closed. -/
theorem breaks_string {body : Text} {f : Failure} (h : stringBody body = .error f) :
    Breaks (fun t => ∃ s, Quoted t s) (0x22 :: body) f := by
  rcases spellingFails_of_stringBody h with ⟨b, t, rest, hb, rfl, hrest⟩
  rcases exists_spelling hrest with ⟨p, q, r, u, rfl, hq, hu, hat⟩
  refine ⟨0x22 :: (b ++ p), q, r ++ [0x22], ?_, hq, ⟨t ++ [u], ?_⟩, hat b t hb⟩
  · rw [List.cons_append, List.append_assoc]
  · have hclosed := Quoted.mk (hb.append (Body.cons hu Body.nil))
    simpa only [List.append_assoc, List.cons_append, List.nil_append, List.append_nil]
      using hclosed

/-! ### Values -/

/-- A text that denotes some value. -/
def Valid (t : Text) : Prop := ∃ v, Denotes t v

/-- A text of some items. -/
def ValidItems (t : Text) : Prop := ∃ vs, Items t vs

/-- A text of some entries. -/
def ValidMembers (t : Text) : Prop := ∃ es, Members t es

/-- The failures of the readers of values are where they say. -/
structure Located (s : Text) : Prop where
  value : ∀ f, value s = .error f → Breaks Valid s f
  items : ∀ f, items s = .error f → Breaks ValidItems s f
  members : ∀ f, members s = .error f → Breaks ValidMembers s f

theorem bare_of_isWord {word : Text} (h : IsWord word) : ∃ v, Bare word v := by
  rcases h with rfl | rfl | rfl
  · exact ⟨_, Bare.bool true⟩
  · exact ⟨_, Bare.bool false⟩
  · exact ⟨_, Bare.null⟩

theorem blank_of_skipSpace {s : Text} (h : skipSpace s = []) : Blank s := by
  rcases exists_blank_append s with ⟨a, ha, hs⟩
  rw [h, List.append_nil] at hs
  exact hs ▸ ha

theorem breaks_bare {s : Text} {f : Failure}
    (ih : ∀ body u, s = u :: body → Located body) (h : ValueFails s f) :
    Breaks (fun t => ∃ v, Bare t v) s f := by
  cases h with
  | nothing => exact ⟨[], [], "null", rfl, rfl, ⟨_, Bare.null⟩, rfl⟩
  | @noKey body hbody =>
      refine ⟨ascii '\x7b' :: body, [], [ascii '\x7d'], (List.append_nil _).symm, rfl, ?_,
        fun hc => by cases hc⟩
      exact ⟨_, Bare.emptyObject (blank_of_skipSpace hbody)⟩
  | @object body f hbody =>
      -- The brace goes in front of what was read, and another one behind it.
      refine ((ih body _ rfl).members f hbody).within [ascii '\x7b'] [ascii '\x7d'] ?_
      rintro t ⟨es, ht⟩
      exact ⟨_, Bare.object ht (holds_ofList es)⟩
  | @noItem body hbody =>
      refine ⟨ascii '[' :: body, [], [ascii ']'], (List.append_nil _).symm, rfl, ?_, rfl⟩
      exact ⟨_, Bare.emptyArray (blank_of_skipSpace hbody)⟩
  | @array body f hbody =>
      refine ((ih body _ rfl).items f hbody).within [ascii '['] [ascii ']'] ?_
      rintro t ⟨vs, ht⟩
      exact ⟨_, Bare.array ht⟩
  | string hbody => exact (breaks_string hbody).mono fun t ⟨_, ht⟩ => ⟨_, Bare.string ht⟩
  | @word word s hword hs hnot =>
      exact ⟨[], s, word, rfl, rfl, bare_of_isWord hword, hs, hnot⟩
  | number hn =>
      exact (breaks_number (numberFails_of_number hn)).mono fun t ⟨_, ht⟩ => ⟨_, Bare.number ht⟩
  | @unexpected u s hu => exact ⟨[], u :: s, "null", rfl, rfl, ⟨_, Bare.null⟩, rfl, hu⟩

theorem value_located_step {s : Text} (ih : ∀ t : Text, t.length < s.length → Located t)
    (f : Failure) (h : value s = .error f) : Breaks Valid s f := by
  rcases exists_blank_append s with ⟨a, ha, hs⟩
  have hfails := valueFails_of_value h
  have hlen := congrArg List.length hs
  generalize skipSpace s = t at hs hfails hlen
  rw [List.length_append] at hlen
  have hbare := breaks_bare (fun body u ht => ih body (by
    rw [ht, List.length_cons] at hlen
    omega)) hfails
  rw [hs]
  refine hbare.within a [] ?_
  rintro t ⟨v, ht⟩
  exact ⟨v, Denotes.mk ha ht Blank.nil⟩

theorem items_located_step {s : Text} (ih : ∀ t : Text, t.length < s.length → Located t)
    (f : Failure) (h : items s = .error f) : Breaks ValidItems s f := by
  cases itemsFails_of_items h with
  | value hv => exact (value_located_step ih f hv).mono fun t ⟨_, ht⟩ => ⟨_, Items.last ht⟩
  | ended hv hr =>
      rcases denotes_of_yields (sound s).value hv with ⟨t, ht, hs⟩
      rw [hr] at hs
      exact ⟨t, [], [], hs, rfl, ⟨_, Items.last ((List.append_nil t).symm ▸ ht)⟩, rfl⟩
  | separator hv hr hcomma hclose =>
      rcases denotes_of_yields (sound s).value hv with ⟨t, ht, hs⟩
      rw [hr] at hs
      exact ⟨t, _, [], hs, rfl, ⟨_, Items.last ((List.append_nil t).symm ▸ ht)⟩, _, rfl, hcomma,
        hclose⟩
  | @items v r w f hv hr hw =>
      rcases denotes_of_yields (sound s).value hv with ⟨t, ht, hs⟩
      have hlen := congrArg List.length hs
      rw [hr, List.length_append, List.length_cons] at hlen
      rw [hs, hr, ← List.singleton_append, ← List.append_assoc]
      -- The items behind the comma are completed, and the first one is there.
      refine ((ih w (by omega)).items f hw).within (t ++ [ascii ',']) [] ?_
      rintro ts ⟨vs, hts⟩
      rw [List.append_nil, List.append_assoc]
      exact ⟨v :: vs, Items.cons ht hts⟩

/-- A key that was read, with what stands around it. -/
theorem exists_key {s body key q : Text} (hs : skipSpace s = 0x22 :: body)
    (hk : stringBody body = .ok (key, q)) :
    ∃ a k b, Blank a ∧ Quoted k key ∧ Blank b ∧ s = a ++ (k ++ (b ++ skipSpace q)) := by
  rcases exists_blank_append s with ⟨a, ha, hblank⟩
  rcases stringBody_sound hk with ⟨k, hkey, rfl⟩
  rcases exists_blank_append q with ⟨b, hb, hq⟩
  refine ⟨a, 0x22 :: (k ++ [0x22]), b, ha, Quoted.mk hkey, hb, ?_⟩
  rw [← hq, hblank, hs]
  simp only [List.append_assoc, List.cons_append, List.nil_append]

/-- An entry that was read, with the blanks behind it. -/
theorem exists_entry {s body key q t r : Text} {v : Value} (hs : skipSpace s = 0x22 :: body)
    (hk : stringBody body = .ok (key, q)) (hq : skipSpace q = ascii ':' :: t)
    (hv : Yields (value t) v r) : ∃ u, Entry u (key, v) ∧ s = u ++ skipSpace r := by
  rcases exists_key hs hk with ⟨a, k, b, ha, hkey, hb, hsplit⟩
  rcases denotes_of_yields (sound t).value hv with ⟨u, hu, ht⟩
  refine ⟨_, Entry.mk ha hkey hb hu, ?_⟩
  rw [hsplit, hq, ht]
  simp only [List.append_assoc, List.cons_append]

/-- A key with blanks around it is completed by a colon and a value. -/
theorem validMembers_of_key {a k key b t : Text} (ha : Blank a) (hk : Quoted k key)
    (hb : Blank b) (ht : Valid t) : ValidMembers (a ++ (k ++ (b ++ ascii ':' :: t))) := by
  rcases ht with ⟨v, hv⟩
  exact ⟨_, Members.last (Entry.mk ha hk hb hv)⟩

theorem valid_null : Valid "null" := ⟨_, Bare.null.denotes⟩

theorem members_located_step {s : Text} (ih : ∀ t : Text, t.length < s.length → Located t)
    (f : Failure) (h : members s = .error f) : Breaks ValidMembers s f := by
  cases membersFails_of_members h with
  | noKey hkey =>
      rcases exists_blank_append s with ⟨a, ha, hs⟩
      refine ⟨a, skipSpace s, [0x22, 0x22] ++ ([] ++ ascii ':' :: "null"), hs, rfl, ?_, hkey⟩
      exact validMembers_of_key ha (Quoted.mk Body.nil) Blank.nil valid_null
  | key hs hk =>
      rcases exists_blank_append s with ⟨a, ha, hsplit⟩
      rw [hsplit, hs]
      refine (breaks_string hk).within a (ascii ':' :: "null") ?_
      rintro t ⟨key, ht⟩
      exact validMembers_of_key ha ht Blank.nil valid_null
  | noColon hs hk hq =>
      rcases exists_key hs hk with ⟨a, k, b, ha, hkey, hb, hsplit⟩
      rw [hq, List.append_nil] at hsplit
      refine ⟨s, [], ascii ':' :: "null", (List.append_nil s).symm, rfl, ?_, rfl⟩
      rw [hsplit, List.append_assoc, List.append_assoc]
      exact validMembers_of_key ha hkey hb valid_null
  | @colon _ _ q t u hs hk hq hu =>
      rcases exists_key hs hk with ⟨a, k, b, ha, hkey, hb, hsplit⟩
      refine ⟨a ++ (k ++ b), u :: t, ascii ':' :: "null", ?_, rfl, ?_, rfl, hu⟩
      · rw [hsplit, hq, List.append_assoc, List.append_assoc]
      · rw [List.append_assoc, List.append_assoc]
        exact validMembers_of_key ha hkey hb valid_null
  | @value _ body q t f hs hk hq hv =>
      rcases exists_key hs hk with ⟨a, k, b, ha, hkey, hb, hsplit⟩
      rw [hq] at hsplit
      have hlen := congrArg List.length hsplit
      simp only [List.length_append, List.length_cons] at hlen
      have hvalue : Breaks ValidMembers ((a ++ (k ++ (b ++ [ascii ':']))) ++ t) f := by
        refine ((ih t (by omega)).value f hv).within _ [] ?_
        intro u hu
        rw [List.append_nil]
        simp only [List.append_assoc, List.cons_append, List.nil_append]
        exact validMembers_of_key ha hkey hb hu
      rw [hsplit]
      simpa only [List.append_assoc, List.cons_append, List.nil_append] using hvalue
  | ended hs hk hq hv hr =>
      rcases exists_entry hs hk hq hv with ⟨u, hu, hsplit⟩
      rw [hr] at hsplit
      exact ⟨u, [], [], hsplit, rfl, ⟨_, Members.last ((List.append_nil u).symm ▸ hu)⟩, rfl⟩
  | separator hs hk hq hv hr hcomma hclose =>
      rcases exists_entry hs hk hq hv with ⟨u, hu, hsplit⟩
      rw [hr] at hsplit
      exact ⟨u, _, [], hsplit, rfl, ⟨_, Members.last ((List.append_nil u).symm ▸ hu)⟩, _, rfl,
        hcomma, hclose⟩
  | @members _ body q t r w _ f hs hk hq hv hr hw =>
      rcases exists_entry hs hk hq hv with ⟨u, hu, hsplit⟩
      have hlen := congrArg List.length hsplit
      rw [hr, List.length_append, List.length_cons] at hlen
      rw [hsplit, hr, ← List.singleton_append, ← List.append_assoc]
      refine ((ih w (by omega)).members f hw).within (u ++ [ascii ',']) [] ?_
      rintro ts ⟨es, hts⟩
      rw [List.append_nil, List.append_assoc]
      exact ⟨_ :: es, Members.cons hu hts⟩

/-- The failures of the readers of values are where they say, on every text.
    The three come in the order in which they call each other. -/
theorem located (s : Text) : Located s := by
  induction hn : s.length using Nat.strong_induction_on generalizing s with
  | _ n ih =>
      subst hn
      have ih' : ∀ t : Text, t.length < s.length → Located t := fun t ht => ih t.length ht t rfl
      exact ⟨value_located_step ih', items_located_step ih', members_located_step ih'⟩

/-! ### Whole texts -/

/-- The place of the fault of a whole text. -/
theorem place_of_parse {s : Text} {e : ParseError} (h : parse s = .error e) :
    ∃ p q, s = p ++ q ∧ e.offset = p.length + e.fault.overrun ∧ (∃ r, Valid (p ++ r)) ∧
      e.fault.At p q := by
  rw [parse] at h
  cases hread : read s with
  | ok v => simp only [hread, Except.mapError, reduceCtorEq] at h
  | error f =>
      have hbreaks : Breaks Valid s f := by
        rcases read_eq_error hread with hv | ⟨v, r, hv, hr, rfl⟩
        · exact (located s).value f hv
        · -- The value is read to its end, so the text in front is one already.
          rcases denotes_of_yields (sound s).value hv with ⟨t, ht, hs⟩
          exact ⟨t, _, [], hs, rfl, ⟨v, (List.append_nil t).symm ▸ ht⟩, hr⟩
      simp only [hread, Except.mapError, Except.error.injEq] at h
      rcases hbreaks with ⟨p, q, r, hs, hq, hvalid, hat⟩
      rw [← h]
      refine ⟨p, q, hs, ?_, ⟨r, hvalid⟩, hat⟩
      rw [Failure.locate, hs, List.length_append, hq, Nat.add_sub_cancel]

theorem overrun_eq_zero {fault : Fault} (h : fault ≠ .unterminatedEscape) :
    fault.overrun = 0 := by
  cases fault with
  | unterminatedEscape => exact absurd rfl h
  | _ => rfl

/-- The text in front of a fault can be completed to one that is read. -/
theorem viable_of_parse {s : Text} {e : ParseError} (h : parse s = .error e) :
    ∃ r v, parse (s.take e.offset ++ r) = .ok v := by
  rcases place_of_parse h with ⟨p, q, rfl, hoffset, ⟨r, v, hv⟩, hat⟩
  have htake : (p ++ q).take e.offset = p := by
    by_cases hfault : e.fault = .unterminatedEscape
    · -- The offset is past the end, and all of the text stands in front.
      rw [hfault] at hat
      rw [hat.1, List.append_nil]
      exact List.take_of_length_le (by omega)
    · rw [hoffset, overrun_eq_zero hfault, Nat.add_zero, List.take_left]
  exact ⟨r, v, htake.symm ▸ parse_of_denotes hv⟩

/-- A fault inside an escape. What stands in front of it is a string that is
    still open, and so is the escape. -/
theorem parse_escape : parse "\"a\\x" = .error ⟨.escape (ascii 'x'), 3⟩ := by
  rw [parse, Json.read, value]
  rfl

theorem viable_of_escape :
    parse "\"a\\x" = .error ⟨.escape (ascii 'x'), 3⟩ ∧
      ∃ r v, parse (("\"a\\x" : Text).take 3 ++ r) = .ok v :=
  ⟨parse_escape, viable_of_parse parse_escape⟩

/-- The offset of a fault lies in the text, and what the fault says stands
    there, unless the text ends with a backslash inside a string; then it is
    one more than the length. -/
theorem offset_of_parse {s : Text} {e : ParseError} (h : parse s = .error e) :
    (e.fault ≠ .unterminatedEscape →
      e.offset ≤ s.length ∧ e.fault.At (s.take e.offset) (s.drop e.offset)) ∧
    (e.fault = .unterminatedEscape → e.offset = s.length + 1 ∧ EndsInEscape s) := by
  rcases place_of_parse h with ⟨p, q, rfl, hoffset, -, hat⟩
  constructor
  · intro hfault
    rw [overrun_eq_zero hfault, Nat.add_zero] at hoffset
    rw [hoffset, List.take_left, List.drop_left, List.length_append]
    exact ⟨Nat.le_add_right _ _, hat⟩
  · intro hfault
    rw [hfault] at hat hoffset
    rcases hat with ⟨rfl, hescape⟩
    rw [List.append_nil]
    exact ⟨hoffset, hescape⟩

/-- The one fault past the end. -/
theorem parse_backslash : parse "\"\\" = .error ⟨.unterminatedEscape, 3⟩ := by
  rw [parse, Json.read, value]
  rfl

theorem offset_of_backslash :
    parse "\"\\" = .error ⟨.unterminatedEscape, 3⟩ ∧ EndsInEscape "\"\\" :=
  ⟨parse_backslash, ((offset_of_parse parse_backslash).2 rfl).2⟩

/-- So there is a fault with an offset that is not in the text. -/
theorem offset_past_end :
    ¬ ∀ (s : Text) (e : ParseError), parse s = .error e → e.offset ≤ s.length := by
  intro h
  exact absurd (h "\"\\" _ parse_backslash) (by decide)

end Json

end NodeWatch
