import NodeWatch.Proofs.Json.Reading

/-!
# Objects That Were Cut Off

The text of an object ends where its closing brace stands, and no earlier. A
reader that has found this brace has read the object, whatever comes after it,
so a beginning of the text that was read as an object would leave the rest of
the text over, and the text as a whole would not be read. No induction over
unfinished texts is needed for this: it is enough that what begins with a
brace is read in front of any rest.

When the bytes of a text are cut off inside a character, a replacement
character stands at the cut. It is no blank and begins no value, so it makes
nothing complete.

## Theorems

* `Grammar.Bare.closing`: An object is read up to its brace.
* `opening_of_cut`: What begins like an object is read as one.
* `parse_of_cut`: An object that was cut off is not read.
-/

namespace NodeWatch

namespace Json

open Grammar

section Objects

variable {p r s t tail : Text} {v w : Value} {es : Entries}

theorem Grammar.Denotes.exists_bare (h : Denotes s v) :
    ∃ a t b, Blank a ∧ Bare t v ∧ Blank b ∧ s = a ++ (t ++ b) := by
  cases h with
  | mk ha h hb => exact ⟨_, _, _, ha, h, hb, rfl⟩

/-- A value begins with an ASCII character. -/
theorem Grammar.Bare.exists_ascii (h : Bare t v) : ∃ u rest, t = u :: rest ∧ u < 0x80 := by
  cases h with
  | null => exact ⟨_, _, rfl, by decide⟩
  | bool b => cases b <;> exact ⟨_, _, rfl, by decide⟩
  | number hn =>
      rcases hn.exists_cons with ⟨u, rest, rfl, rfl | hu⟩
      · exact ⟨_, _, rfl, by decide⟩
      · exact ⟨_, _, rfl, UInt16.lt_of_le_of_lt (isDigit_iff.mp hu).2 (by decide)⟩
  | string hq =>
      cases hq with
      | mk _ => exact ⟨_, _, rfl, by decide⟩
  | emptyArray _ => exact ⟨_, _, rfl, by decide⟩
  | array _ => exact ⟨_, _, rfl, by decide⟩
  | emptyObject _ => exact ⟨_, _, rfl, by decide⟩
  | object _ => exact ⟨_, _, rfl, by decide⟩

theorem Grammar.Bare.opening (h : Bare t (.object es)) : ∃ b, t = ascii '\x7b' :: b := by
  generalize hv : Value.object es = v at h
  cases h with
  | emptyObject _ => exact ⟨_, rfl⟩
  | object _ => exact ⟨_, rfl⟩
  | number hn =>
      cases hn with
      | mk _ _ _ _ hmeaning => cases hmeaning <;> cases hv
  | _ => cases hv

/-- What begins with a brace ends with one, and it is read up to that brace
    whatever comes after it. -/
theorem Grammar.Bare.closing {b : Text} (h : Bare (ascii '\x7b' :: b) v) :
    (∃ c, ascii '\x7b' :: b = c ++ [ascii '\x7d']) ∧
      ∀ a rest, Blank a → Yields (value (a ++ (ascii '\x7b' :: b ++ rest))) v rest := by
  generalize ht : ascii '\x7b' :: b = t at h
  -- Blanks in front are skipped, and then the value is read in one step.
  have hread : ∀ a rest, Blank a → ValueStep (t ++ rest) v rest →
      Yields (value (a ++ (t ++ rest))) v rest := by
    intro a rest ha hstep
    rw [yields_value_iff, ← ht, List.cons_append,
      skipSpace_blank_append ha (next_cons.mpr (by decide)), ← List.cons_append, ht]
    exact hstep
  cases h with
  | emptyObject hb =>
      refine ⟨⟨_ :: _, rfl⟩, fun a rest ha => hread a rest ha ?_⟩
      rw [List.cons_append, List.append_assoc]
      exact ValueStep.emptyObject (skipSpace_blank_append hb (next_cons.mpr (by decide)))
  | @object u writes es hm hes =>
      obtain rfl := hes.eq_ofList
      refine ⟨⟨_ :: _, rfl⟩, fun a rest ha => hread a rest ha ?_⟩
      rcases hm.exists_cons ([ascii '\x7d'] ++ rest) with ⟨tail, hc⟩
      rw [List.cons_append, List.append_assoc]
      exact ValueStep.object hc (by decide) ((complete u).members writes rest hm)
  | number hn =>
      rcases hn.exists_cons with ⟨u, rest, rfl, hu⟩
      exact absurd (List.cons.inj ht).1.symm (begins_number_ne hu (by decide))
  | string hq =>
      cases hq with
      | mk _ => exact absurd (List.cons.inj ht).1 (by decide)
  | bool b => cases b <;> exact absurd (List.cons.inj ht).1 (by decide)
  | null => exact absurd (List.cons.inj ht).1 (by decide)
  | emptyArray _ => exact absurd (List.cons.inj ht).1 (by decide)
  | array _ => exact absurd (List.cons.inj ht).1 (by decide)

theorem skipSpace_append_of_cons {u : CodeUnit} {q : Text} (h : skipSpace p = u :: q) (r : Text) :
    skipSpace (p ++ r) = u :: (q ++ r) := by
  unfold skipSpace at h ⊢
  rw [List.dropWhile_append, h]
  rfl

theorem skipSpace_append_of_nil (h : skipSpace p = []) (r : Text) :
    skipSpace (p ++ r) = skipSpace r := by
  unfold skipSpace at h ⊢
  rw [List.dropWhile_append, h]
  rfl

/-- The text of a value begins with a blank or with the value. -/
theorem Grammar.Denotes.exists_ascii (h : Denotes s v) : ∃ u rest, s = u :: rest ∧ u < 0x80 := by
  rcases h.exists_bare with ⟨a, t, b, ha, ht, -, rfl⟩
  cases a with
  | nil =>
      rcases ht.exists_ascii with ⟨u, rest, rfl, hu⟩
      exact ⟨u, _, rfl, hu⟩
  | cons u a =>
      refine ⟨u, _, rfl, ?_⟩
      rcases ha u List.mem_cons_self with rfl | rfl | rfl | rfl <;> decide

/-- The value of a text is the one that its first unit behind the blanks begins. -/
theorem skipSpace_of_denotes (h : Denotes s v) :
    ∃ a t b, Blank a ∧ Bare t v ∧ Blank b ∧ s = a ++ (t ++ b) ∧ skipSpace s = t ++ b := by
  rcases h.exists_bare with ⟨a, t, b, ha, ht, hb, rfl⟩
  refine ⟨a, t, b, ha, ht, hb, rfl, ?_⟩
  rcases ht.exists_cons with ⟨u, rest, rfl, hu, -⟩
  exact skipSpace_blank_append ha (next_cons.mpr hu)

/-- The beginning of the text of an object is read as nothing, or as something
    between braces, if it is read at all. -/
theorem opening_of_cut (h : Denotes (p ++ r) (.object es)) (htail : tail = [] ∨ tail = [0xFFFD])
    (hcut : Denotes (p ++ tail) w) :
    ∃ a b c, Blank a ∧ Bare (ascii '\x7b' :: b) w ∧ Blank c ∧
      p ++ tail = a ++ (ascii '\x7b' :: b ++ c) := by
  rcases skipSpace_of_denotes hcut with ⟨a, t, c, ha, ht, hc, hsplit, hskip⟩
  rcases ht.exists_ascii with ⟨u, b, rfl, hu⟩
  -- Either the cut is before the brace or the brace begins what is left.
  cases hp : skipSpace p with
  | nil =>
      -- Nothing but blanks is there, and the replacement begins no value.
      rw [skipSpace_append_of_nil hp] at hskip
      rcases htail with rfl | rfl
      · exact absurd hskip (List.cons_ne_nil _ _).symm
      · have hreplaced : skipSpace [0xFFFD] = [0xFFFD] := by decide
        rw [hreplaced] at hskip
        rw [← (List.cons.inj hskip).1] at hu
        exact absurd hu (by decide)
  | cons x q =>
      rcases skipSpace_of_denotes h with ⟨_, t, _, _, ht', _, _, hwhole⟩
      rcases ht'.opening with ⟨b', rfl⟩
      rw [skipSpace_append_of_cons hp] at hskip hwhole
      have hx : u = ascii '\x7b' := (List.cons.inj hskip).1.symm.trans (List.cons.inj hwhole).1
      subst hx
      exact ⟨a, b, c, ha, ht, hc, hsplit⟩

theorem notMem_of_skipSpace (h : skipSpace s = []) {u : CodeUnit} (hu : isSpace u = false) :
    u ∉ s := by
  intro hmem
  have hspace := List.dropWhile_eq_nil_iff.mp h u hmem
  rw [hu] at hspace
  exact absurd hspace Bool.false_ne_true

/-- The text of an object is not read when it is cut off anywhere before its
    closing brace, whether or not a replacement character stands at the cut. -/
theorem parse_of_cut (h : parse (p ++ r) = .ok (.object es)) (hr : r ≠ [])
    (hlast : (p ++ r).getLast? = some (ascii '\x7d')) (htail : tail = [] ∨ tail = [0xFFFD]) :
    ∃ e, parse (p ++ tail) = .error e := by
  cases hcut : parse (p ++ tail) with
  | error e => exact ⟨e, rfl⟩
  | ok w =>
      exfalso
      rcases opening_of_cut (denotes_of_parse h) htail (denotes_of_parse hcut) with
        ⟨a, b, c, ha, hb, hc, hsplit⟩
      rcases hb.closing with ⟨⟨d, hd⟩, hread⟩
      rcases htail with rfl | rfl
      · -- The value ends before the cut, so the rest of the text is too much.
        rw [List.append_nil] at hsplit
        have hvalue := hread a (c ++ r) ha
        rw [← List.append_assoc, ← List.append_assoc, List.append_assoc a, ← hsplit] at hvalue
        rcases parse_eq_ok_iff_yields.mp h with ⟨q, ⟨hlt, hq⟩, hblank⟩
        rcases hvalue with ⟨hlt', hq'⟩
        rw [hq, Except.ok.injEq, Parsed.mk.injEq] at hq'
        rw [hq'.2] at hblank
        have hmem : ascii '\x7d' ∈ c ++ r := by
          rw [List.getLast?_append_of_ne_nil _ hr] at hlast
          exact List.mem_append_right c (List.mem_of_getLast? hlast)
        exact notMem_of_skipSpace hblank (by decide) hmem
      · -- The text ends with a brace or a blank, and the replacement is neither.
        have hend : (a ++ (ascii '\x7b' :: b ++ c)).getLast? = some 0xFFFD := by
          rw [← hsplit, List.getLast?_concat]
        rcases List.eq_nil_or_concat c with rfl | ⟨c, z, rfl⟩
        · rw [List.append_nil, hd, ← List.append_assoc, List.getLast?_concat] at hend
          exact absurd hend (by decide)
        · rw [List.concat_eq_append] at hend hc
          rw [← List.append_assoc, ← List.append_assoc, List.getLast?_concat] at hend
          have hz := hc z (List.mem_append_right c (List.mem_singleton_self z))
          rw [Option.some.inj hend] at hz
          exact absurd hz (by decide)

end Objects

end Json

end NodeWatch
