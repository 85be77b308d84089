import NodeWatch.Proofs.Json.Entries
import NodeWatch.Proofs.Json.Steps

/-!
# Reading against the Grammar

The reader of JSON texts accepts exactly what the grammar derives, and gives
it exactly the value that the grammar gives it.

Both directions are inductions on the length of the text, since every call but
the first of `items` is on a shorter one. For completeness the text that
follows has to be carried along: a value inside brackets is followed by a
comma or a bracket, possibly behind blanks, and neither of these carries a
number on.

## Main definitions

* `Sound`, `Complete`: What the readers take is derived, and the converse.
* `Ends`: What can follow a value, the blanks behind it apart.

## Theorems

* `sound`, `complete`: The readers are both on every text.
* `parse_of_denotes`, `denotes_of_parse`: The same for a whole text.
* `parse_eq_ok_iff`: Parsing accepts exactly the grammar, with its meaning.
-/

namespace NodeWatch

namespace Json

open Grammar

/-! ### Objects -/

section Objects

variable {writes : List (Text × Value)} {es : Entries}

/-- Writing entries one after the other leaves what an object holds of them. -/
theorem holds_ofList (writes : List (Text × Value)) : Holds writes (Entries.ofList writes) := by
  refine ⟨Entries.keys_ofList writes, fun k v h => ?_⟩
  exact lookup?_ofList_eq_some_iff.mp ((Entries.distinct_ofList writes).lookup?_eq_some_iff.mpr h)

/-- An object holds nothing else. -/
theorem Grammar.Holds.eq_ofList (h : Holds writes es) : es = Entries.ofList writes := by
  -- Both have the same keys, and a value for each that can be told by the key.
  let entry (k : Text) := (k, (Entries.lookup? k (Entries.ofList writes)).getD .null)
  have hvalues : ∀ {es : Entries}, Holds writes es → es = (es.map Prod.fst).map entry := by
    intro es h
    rw [List.map_map]
    refine (List.map_id es).symm.trans (List.map_congr_left fun e he => ?_)
    have hfound := lookup?_ofList_eq_some_iff.mpr (h.last e.1 e.2 he)
    change e = (e.1, (Entries.lookup? e.1 (Entries.ofList writes)).getD .null)
    rw [hfound]
    rfl
  have hkeys : es.map Prod.fst = (Entries.ofList writes).map Prod.fst :=
    h.keys.trans (holds_ofList writes).keys.symm
  calc es = (es.map Prod.fst).map entry := hvalues h
    _ = ((Entries.ofList writes).map Prod.fst).map entry := by rw [hkeys]
    _ = Entries.ofList writes := (hvalues (holds_ofList writes)).symm

end Objects

/-! ### Soundness -/

/-- What the readers take from a text is derived by the grammar: a value
    behind blanks, and items and entries with their closing bracket. -/
structure Sound (s : Text) : Prop where
  value : ∀ v rest, Yields (value s) v rest → ∃ a t, Blank a ∧ Bare t v ∧ s = a ++ (t ++ rest)
  items : ∀ vs rest, Yields (items s) vs rest → ∃ t, Items t vs ∧ s = t ++ ascii ']' :: rest
  members : ∀ es rest, Yields (members s) es rest →
    ∃ t, Members t es ∧ s = t ++ ascii '\x7d' :: rest

/-- A value with the blanks behind it, which the next reader skips. -/
theorem denotes_of_yields {s r : Text} {v : Value}
    (hval : ∀ v rest, Yields (value s) v rest → ∃ a t, Blank a ∧ Bare t v ∧ s = a ++ (t ++ rest))
    (h : Yields (value s) v r) : ∃ t, Denotes t v ∧ s = t ++ skipSpace r := by
  rcases hval v r h with ⟨a, t, ha, ht, hs⟩
  rcases exists_blank_append r with ⟨b, hb, hr⟩
  refine ⟨a ++ (t ++ b), Denotes.mk ha ht hb, ?_⟩
  rw [List.append_assoc, List.append_assoc, ← hr]
  exact hs

theorem value_sound_step {s : Text} (ih : ∀ t : Text, t.length < s.length → Sound t) (v : Value)
    (rest : Text) (h : Yields (value s) v rest) :
    ∃ a t, Blank a ∧ Bare t v ∧ s = a ++ (t ++ rest) := by
  rcases exists_blank_append s with ⟨a, ha, hs⟩
  have hstep := yields_value_iff.mp h
  have hlen := congrArg List.length hs
  -- From here on only the text behind the blanks matters.
  generalize skipSpace s = t at hs hstep hlen
  rw [List.length_append] at hlen
  cases hstep with
  | null ht => exact ⟨a, _, ha, Bare.null, ht ▸ hs⟩
  | bool ht => exact ⟨a, _, ha, Bare.bool _, ht ▸ hs⟩
  | number _ hn =>
      rcases number_sound hn with ⟨t, ht, hu⟩
      exact ⟨a, t, ha, Bare.number ht, hu ▸ hs⟩
  | string hb =>
      rcases stringBody_sound hb with ⟨b, hbody, rfl⟩
      refine ⟨a, _, ha, Bare.string (Quoted.mk hbody), ?_⟩
      rw [hs, List.cons_append, List.append_assoc, List.singleton_append]
  | @emptyArray body _ hb =>
      rcases exists_blank_append body with ⟨b, hblank, hbody⟩
      refine ⟨a, _, ha, Bare.emptyArray hblank, ?_⟩
      rw [hs, hbody, hb, List.cons_append, List.append_assoc, List.singleton_append]
  | @array body _ vs _ _ _ _ hi =>
      rw [List.length_cons] at hlen
      -- The items stand behind the bracket, so their text is shorter.
      rcases (ih body (by omega)).items vs rest hi with ⟨t, ht, rfl⟩
      refine ⟨a, _, ha, Bare.array ht, ?_⟩
      rw [hs, List.cons_append, List.append_assoc, List.singleton_append]
  | @emptyObject body _ hb =>
      rcases exists_blank_append body with ⟨b, hblank, hbody⟩
      refine ⟨a, _, ha, Bare.emptyObject hblank, ?_⟩
      rw [hs, hbody, hb, List.cons_append, List.append_assoc, List.singleton_append]
  | @object body _ es _ _ _ _ hm =>
      rw [List.length_cons] at hlen
      rcases (ih body (by omega)).members es rest hm with ⟨t, ht, rfl⟩
      refine ⟨a, _, ha, Bare.object ht (holds_ofList es), ?_⟩
      rw [hs, List.cons_append, List.append_assoc, List.singleton_append]

theorem items_sound_step {s : Text} (ih : ∀ t : Text, t.length < s.length → Sound t)
    (vs : List Value) (rest : Text) (h : Yields (items s) vs rest) :
    ∃ t, Items t vs ∧ s = t ++ ascii ']' :: rest := by
  cases yields_items_iff.mp h with
  | last hv hr =>
      rcases denotes_of_yields (value_sound_step ih) hv with ⟨t, ht, hs⟩
      exact ⟨t, Items.last ht, hr ▸ hs⟩
  | @cons v vs r w _ hv hr hi =>
      rcases denotes_of_yields (value_sound_step ih) hv with ⟨t, ht, hs⟩
      have hlen := congrArg List.length hs
      rw [hr, List.length_append, List.length_cons] at hlen
      rcases (ih w (by omega)).items vs rest hi with ⟨ts, hts, rfl⟩
      refine ⟨_, Items.cons ht hts, ?_⟩
      rw [hs, hr, List.append_assoc, List.cons_append]

theorem members_sound_step {s : Text} (ih : ∀ t : Text, t.length < s.length → Sound t)
    (es : List (Text × Value)) (rest : Text) (h : Yields (members s) es rest) :
    ∃ t, Members t es ∧ s = t ++ ascii '\x7d' :: rest := by
  cases yields_members_iff.mp h with
  | @mk key v es body q t r _ hbody hk hq hv hend =>
      rcases exists_blank_append s with ⟨a, ha, hs⟩
      rcases stringBody_sound hk with ⟨k, hkey, rfl⟩
      rcases exists_blank_append q with ⟨b, hb, hcolon⟩
      rw [hbody, hcolon, hq] at hs
      have hlen := congrArg List.length hs
      simp only [List.length_append, List.length_cons] at hlen
      rcases denotes_of_yields (ih t (by omega)).value hv with ⟨u, hu, ht⟩
      -- The entry takes all that was read up to the blanks behind its value.
      have hentry := Entry.mk ha (Quoted.mk hkey) hb hu
      have hassoc : s = (a ++ (0x22 :: (k ++ [0x22]) ++ (b ++ ascii ':' :: u))) ++ skipSpace r := by
        rw [hs, ht]
        simp only [List.append_assoc, List.cons_append, List.nil_append]
      rcases hend with ⟨hr, rfl⟩ | ⟨w, hr, hm⟩
      · exact ⟨_, Members.last hentry, hr ▸ hassoc⟩
      · have hlen' := congrArg List.length ht
        rw [hr, List.length_append, List.length_cons] at hlen'
        rcases (ih w (by omega)).members es rest hm with ⟨ts, hts, rfl⟩
        refine ⟨_, Members.cons hentry hts, ?_⟩
        rw [hassoc, hr]
        simp only [List.append_assoc, List.cons_append]

/-- The readers are sound on every text. Each of them calls the others on
    shorter texts, but for the reader of items, whose first call is on the
    same one; so the three come in this order. -/
theorem sound (s : Text) : Sound s := by
  induction hn : s.length using Nat.strong_induction_on generalizing s with
  | _ n ih =>
      subst hn
      have ih' : ∀ t : Text, t.length < s.length → Sound t := fun t ht => ih t.length ht t rfl
      exact ⟨value_sound_step ih', items_sound_step ih', members_sound_step ih'⟩

/-! ### Completeness -/

/-- What can follow a value, the blanks behind it apart. -/
def Ends (t : Text) : Prop :=
  Next (fun u => u = ascii ',' ∨ u = ascii ']' ∨ u = ascii '\x7d') t

theorem Ends.notBlank {t : Text} (h : Ends t) : Next (fun u => isSpace u = false) t :=
  Next.mono h fun u hu => by rcases hu with rfl | rfl | rfl <;> decide

/-- No number is carried on by blanks and what follows them. -/
theorem Ends.stops {b t : Text} (h : Ends t) (hb : Blank b) : Stops (b ++ t) := by
  cases b with
  | nil =>
      refine Next.mono h fun u hu => ?_
      rcases hu with rfl | rfl | rfl <;> simp only [Carries] <;> decide
  | cons u b =>
      refine next_cons.mpr ?_
      rcases hb u List.mem_cons_self with rfl | rfl | rfl | rfl <;> simp only [Carries] <;> decide

/-- A value begins neither with a blank nor with the end of an array. -/
theorem Grammar.Bare.exists_cons {t : Text} {v : Value} (h : Bare t v) :
    ∃ u rest, t = u :: rest ∧ isSpace u = false ∧ u ≠ ascii ']' := by
  cases h with
  | null => exact ⟨ascii 'n', _, rfl, by decide, by decide⟩
  | bool b =>
      cases b
      · exact ⟨ascii 'f', _, rfl, by decide, by decide⟩
      · exact ⟨ascii 't', _, rfl, by decide, by decide⟩
  | number hn =>
      rcases hn.exists_cons with ⟨u, rest, rfl, hu⟩
      refine ⟨u, rest, rfl, ?_, begins_number_ne hu (by decide)⟩
      refine Bool.eq_false_iff.mpr fun hc => ?_
      -- None of the four blanks is a minus sign or a digit.
      rcases isSpace_iff.mp hc with rfl | rfl | rfl | rfl <;> exact absurd hu (by decide)
  | string hq =>
      cases hq with
      | mk _ => exact ⟨0x22, _, rfl, by decide, by decide⟩
  | emptyArray _ => exact ⟨ascii '[', _, rfl, by decide, by decide⟩
  | array _ => exact ⟨ascii '[', _, rfl, by decide, by decide⟩
  | emptyObject _ => exact ⟨ascii '\x7b', _, rfl, by decide, by decide⟩
  | object _ _ => exact ⟨ascii '\x7b', _, rfl, by decide, by decide⟩

/-- Items begin with a value, so an array that has some does not end at once. -/
theorem Grammar.Items.exists_cons {t : Text} {vs : List Value} (h : Items t vs) (rest : Text) :
    ∃ c tail, skipSpace (t ++ rest) = c :: tail ∧ c ≠ ascii ']' := by
  have hfirst : ∀ {t : Text} {v : Value}, Denotes t v → ∀ rest,
      ∃ c tail, skipSpace (t ++ rest) = c :: tail ∧ c ≠ ascii ']' := by
    intro t v h rest
    cases h with
    | mk ha h hb =>
        rcases h.exists_cons with ⟨u, t', rfl, hu, hne⟩
        simp only [List.append_assoc, List.cons_append]
        exact ⟨u, _, skipSpace_blank_append ha (next_cons.mpr hu), hne⟩
  cases h with
  | last h => exact hfirst h rest
  | cons h _ =>
      rw [List.append_assoc]
      exact hfirst h _

/-- Entries begin with a quotation mark, so an object that has some does not
    end at once. -/
theorem Grammar.Members.exists_cons {t : Text} {es : List (Text × Value)} (h : Members t es)
    (rest : Text) : ∃ tail, skipSpace (t ++ rest) = 0x22 :: tail := by
  have hfirst : ∀ {t : Text} {e : Text × Value}, Entry t e → ∀ rest,
      ∃ tail, skipSpace (t ++ rest) = 0x22 :: tail := by
    intro t e h rest
    cases h with
    | mk ha hk _ _ =>
        cases hk with
        | mk _ =>
            simp only [List.append_assoc, List.cons_append]
            exact ⟨_, skipSpace_blank_append ha (next_cons.mpr (by decide))⟩
  cases h with
  | last h => exact hfirst h rest
  | cons h _ =>
      rw [List.append_assoc]
      exact hfirst h _

/-- The readers take what the grammar derives: a value up to the blanks behind
    it, and items and entries up to the bracket that closes them. -/
structure Complete (t : Text) : Prop where
  value : ∀ v rest, Denotes t v → Ends rest →
    ∃ r, Yields (value (t ++ rest)) v r ∧ skipSpace r = rest
  items : ∀ vs rest, Items t vs → Yields (items (t ++ ascii ']' :: rest)) vs rest
  members : ∀ es rest, Members t es → Yields (members (t ++ ascii '\x7d' :: rest)) es rest

theorem step_of_bare {t : Text} (ih : ∀ u : Text, u.length < t.length → Complete u) {v : Value}
    {rest : Text} (h : Bare t v) (hrest : Stops rest) : ValueStep (t ++ rest) v rest := by
  cases h with
  | null => exact ValueStep.null rfl
  | bool b => exact ValueStep.bool rfl
  | number hn =>
      have hread := number_append hn hrest
      rcases hn.exists_cons with ⟨u, t', rfl, hu⟩
      exact ValueStep.number hu hread
  | string hq =>
      cases hq with
      | mk hb =>
          rw [List.cons_append, List.append_assoc]
          exact ValueStep.string (stringBody_append hb rest)
  | emptyArray hb =>
      rw [List.cons_append, List.append_assoc]
      exact ValueStep.emptyArray (skipSpace_blank_append hb (next_cons.mpr (by decide)))
  | @array u vs hi =>
      rcases hi.exists_cons ([ascii ']'] ++ rest) with ⟨c, tail, hc, hne⟩
      have hlen : u.length < (ascii '[' :: (u ++ [ascii ']'])).length := by
        rw [List.length_cons, List.length_append]
        omega
      rw [List.cons_append, List.append_assoc]
      exact ValueStep.array hc hne ((ih u hlen).items vs rest hi)
  | emptyObject hb =>
      rw [List.cons_append, List.append_assoc]
      exact ValueStep.emptyObject (skipSpace_blank_append hb (next_cons.mpr (by decide)))
  | @object u writes es hm hes =>
      obtain rfl := hes.eq_ofList
      rcases hm.exists_cons ([ascii '\x7d'] ++ rest) with ⟨tail, hc⟩
      have hlen : u.length < (ascii '\x7b' :: (u ++ [ascii '\x7d'])).length := by
        rw [List.length_cons, List.length_append]
        omega
      rw [List.cons_append, List.append_assoc]
      exact ValueStep.object hc (by decide) ((ih u hlen).members writes rest hm)

theorem value_complete_step {t : Text} (ih : ∀ u : Text, u.length < t.length → Complete u)
    (v : Value) (rest : Text) (h : Denotes t v) (hrest : Ends rest) :
    ∃ r, Yields (value (t ++ rest)) v r ∧ skipSpace r = rest := by
  cases h with
  | @mk a s b v ha h hb =>
      -- Without blanks around it the value is no longer than with them, so the
      -- hypothesis still applies to what is inside it.
      have hlen : s.length ≤ (a ++ (s ++ b)).length := by
        rw [List.length_append, List.length_append]
        omega
      have hstep := step_of_bare (fun u hu => ih u (by omega)) h (hrest.stops hb)
      rcases h.exists_cons with ⟨u, s', rfl, hu, -⟩
      refine ⟨b ++ rest, ?_, skipSpace_blank_append hb hrest.notBlank⟩
      rw [yields_value_iff, List.append_assoc, List.append_assoc, List.cons_append,
        skipSpace_blank_append ha (next_cons.mpr hu)]
      exact hstep

theorem items_complete_step {t : Text} (ih : ∀ u : Text, u.length < t.length → Complete u)
    (vs : List Value) (rest : Text) (h : Items t vs) :
    Yields (items (t ++ ascii ']' :: rest)) vs rest := by
  rw [yields_items_iff]
  cases h with
  | last h =>
      -- A single item is the whole text, so the step for values is used as it is.
      have hends : Ends (ascii ']' :: rest) := next_cons.mpr (.inr (.inl rfl))
      rcases value_complete_step ih _ _ h hends with ⟨r, hv, hr⟩
      exact ItemsStep.last hv hr
  | @cons t ts v vs h hs =>
      have hlen : t.length < (t ++ ascii ',' :: ts).length ∧
          ts.length < (t ++ ascii ',' :: ts).length := by
        rw [List.length_append, List.length_cons]
        omega
      have hends : Ends (ascii ',' :: (ts ++ ascii ']' :: rest)) := next_cons.mpr (.inl rfl)
      rcases (ih t hlen.1).value v _ h hends with ⟨r, hv, hr⟩
      rw [List.append_assoc, List.cons_append]
      exact ItemsStep.cons hv hr ((ih ts hlen.2).items vs rest hs)

/-- An entry is read in front of whatever can follow its value. -/
theorem entry_complete_step {t : Text} (ih : ∀ u : Text, u.length < t.length → Complete u)
    {e : Text × Value} {rest : Text} (h : Entry t e) (hrest : Ends rest) :
    ∃ body q u r, skipSpace (t ++ rest) = 0x22 :: body ∧ stringBody body = .ok (e.1, q)
      ∧ skipSpace q = ascii ':' :: u ∧ Yields (value u) e.2 r ∧ skipSpace r = rest := by
  cases h with
  | @mk a _ b t s v ha hk hb h =>
      cases hk with
      | @mk k _ hk =>
          have hlen : t.length < (a ++ (0x22 :: (k ++ [0x22]) ++ (b ++ ascii ':' :: t))).length := by
            simp only [List.length_append, List.length_cons]
            omega
          rcases (ih t hlen).value v rest h hrest with ⟨r, hv, hr⟩
          refine ⟨k ++ 0x22 :: (b ++ ascii ':' :: (t ++ rest)), b ++ ascii ':' :: (t ++ rest),
            t ++ rest, r, ?_, stringBody_append hk _,
            skipSpace_blank_append hb (next_cons.mpr (by decide)), hv, hr⟩
          simp only [List.append_assoc, List.cons_append, List.nil_append]
          exact skipSpace_blank_append ha (next_cons.mpr (by decide))

theorem members_complete_step {t : Text} (ih : ∀ u : Text, u.length < t.length → Complete u)
    (es : List (Text × Value)) (rest : Text) (h : Members t es) :
    Yields (members (t ++ ascii '\x7d' :: rest)) es rest := by
  rw [yields_members_iff]
  cases h with
  | last h =>
      have hends : Ends (ascii '\x7d' :: rest) := next_cons.mpr (.inr (.inr rfl))
      rcases entry_complete_step ih h hends with ⟨body, q, u, r, hs, hk, hq, hv, hr⟩
      exact MembersStep.mk hs hk hq hv (.inl ⟨hr, rfl⟩)
  | @cons t ts e es h hm =>
      have hlen : t.length < (t ++ ascii ',' :: ts).length ∧
          ts.length < (t ++ ascii ',' :: ts).length := by
        rw [List.length_append, List.length_cons]
        omega
      have hends : Ends (ascii ',' :: (ts ++ ascii '\x7d' :: rest)) := next_cons.mpr (.inl rfl)
      obtain ⟨body, q, u, r, hs, hk, hq, hv, hr⟩ :=
        entry_complete_step (fun u hu => ih u (by omega)) h hends
      rw [List.append_assoc, List.cons_append]
      exact MembersStep.mk hs hk hq hv (.inr ⟨_, hr, (ih ts hlen.2).members es rest hm⟩)

/-- The readers are complete on every text. -/
theorem complete (t : Text) : Complete t := by
  induction hn : t.length using Nat.strong_induction_on generalizing t with
  | _ n ih =>
      subst hn
      have ih' : ∀ u : Text, u.length < t.length → Complete u := fun u hu => ih u.length hu u rfl
      exact ⟨value_complete_step ih', items_complete_step ih', members_complete_step ih'⟩

/-! ### Whole texts -/

/-- A text is read as a value when nothing but blanks is left behind it. -/
theorem parse_eq_ok_iff_yields {s : Text} {v : Value} :
    parse s = .ok v ↔ ∃ r, Yields (value s) v r ∧ skipSpace r = [] := by
  unfold parse read
  cases hval : value s with
  | error e =>
      refine ⟨fun h => absurd h (by simp only [Except.mapError, reduceCtorEq,
        not_false_eq_true]), ?_⟩
      rintro ⟨r, h, -⟩
      exact absurd h not_yields_error
  | ok p =>
      have hread : (∃ r, Yields (.ok p) v r ∧ skipSpace r = []) ↔
          v = p.value ∧ skipSpace p.rest = [] := by
        constructor
        · rintro ⟨r, h, hr⟩
          rcases yields_ok_iff.mp h with ⟨hv, rfl⟩
          exact ⟨hv, hr⟩
        · rintro ⟨hv, hr⟩
          exact ⟨_, yields_ok_iff.mpr ⟨hv, rfl⟩, hr⟩
      rw [hread]
      by_cases hr : skipSpace p.rest = []
      · simp only [hr, List.isEmpty_nil, if_true, Except.mapError, Except.ok.injEq, and_true]
        exact eq_comm
      · simp only [hr, List.isEmpty_iff, if_false, Except.mapError, reduceCtorEq, and_false]

/-- A derived text is parsed to the value that it denotes. -/
theorem parse_of_denotes {s : Text} {v : Value} (h : Denotes s v) : parse s = .ok v := by
  rcases (complete s).value v [] h Next.nil with ⟨r, hv, hr⟩
  rw [List.append_nil] at hv
  exact parse_eq_ok_iff_yields.mpr ⟨r, hv, hr⟩

/-- A parsed text is derived. -/
theorem denotes_of_parse {s : Text} {v : Value} (h : parse s = .ok v) : Denotes s v := by
  rcases parse_eq_ok_iff_yields.mp h with ⟨r, hv, hr⟩
  rcases denotes_of_yields (sound s).value hv with ⟨t, ht, hs⟩
  rw [hr, List.append_nil] at hs
  exact hs ▸ ht

/-- Parsing gives a text exactly the value that the grammar derives for it,
    and it rejects exactly the texts for which the grammar derives none. -/
theorem parse_eq_ok_iff (s : Text) :
    (∀ v, parse s = .ok v ↔ Denotes s v) ∧
      ((∃ e, parse s = .error e) ↔ ∀ v, ¬ Denotes s v) := by
  refine ⟨fun v => ⟨denotes_of_parse, parse_of_denotes⟩, ?_⟩
  cases hp : parse s with
  | error e =>
      refine ⟨fun _ v hv => ?_, fun _ => ⟨e, rfl⟩⟩
      rw [parse_of_denotes hv] at hp
      exact absurd hp (by simp only [reduceCtorEq, not_false_eq_true])
  | ok v =>
      refine ⟨fun ⟨e, he⟩ => ?_, fun h => absurd (denotes_of_parse hp) (h v)⟩
      exact absurd he (by simp only [reduceCtorEq, not_false_eq_true])

end Json

end NodeWatch
