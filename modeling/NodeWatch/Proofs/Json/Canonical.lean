import NodeWatch.Proofs.Json.Room
import NodeWatch.Proofs.Json.Sendable
import NodeWatch.Proofs.Json.Writing

/-!
# One Text for One Value

Values that differ in nothing but the order in which entries were written have
the same text, and without floating point numbers no others have. A text can
therefore be compared, or signed, in the place of a value.

For the first half the order of keys has to leave nothing open, which
`Text.isLE_antisymm` says of it, so entries with distinct keys can be sorted in
one way only. For the second half nothing new is needed: two values with one
text are both what is read from it.

The order of keys in a text is a statement about the text and not about a
value, since reading forgets it. `Ascending` takes a text apart at its
brackets, commas and colons, as the grammar does, but it asks less of the
parts in between: a number is any text without such a unit. So it holds of
every printed text, whatever is known of the texts of numbers.

## Main definitions

* `Value.FloatFree`: A value without floating point numbers.
* `Unstructured`: A text without brackets, commas, colons and quotes.
* `Keyed`, `Ascending`: Texts whose objects list their keys in order.

## Theorems

* `sortByKey_eq_of_perm`: Entries with distinct keys are sorted in one way.
* `Value.sorted_eq_of_same`, `Value.same_of_sorted_eq`: Sorting decides whether
  values are the same.
* `ascending_printAt`: Every printed text lists its keys in order.
* `print_canonical`: The text of a value is canonical.
-/

namespace NodeWatch

namespace Json

open Grammar

/-! ### Sorting in one way -/

theorem pairwise_sortByKey {α : Type} (pairs : List (Text × α)) :
    (sortByKey pairs).Pairwise ByKey := by
  rw [sortByKey_eq_insertionSort]
  exact List.pairwise_insertionSort ByKey pairs

/-- Entries with distinct keys are sorted in one way. -/
theorem sortByKey_eq_of_perm {es fs : Entries} (hd : es.Distinct) (hp : fs.Perm es) :
    sortByKey fs = sortByKey es := by
  have hperm : (sortByKey fs).Perm (sortByKey es) :=
    (sortByKey_perm fs).trans (hp.trans (sortByKey_perm es).symm)
  refine List.Perm.eq_of_pairwise ?_ (pairwise_sortByKey fs) (pairwise_sortByKey es) hperm
  intro p q hpmem hqmem hpq hqp
  -- Entries at one place in the order share their key, and so they are one.
  have hkey : p.1 = q.1 := Text.isLE_antisymm hpq hqp
  have hpmem := hp.mem_iff.mp ((sortByKey_perm fs).mem_iff.mp hpmem)
  have hqmem := (sortByKey_perm es).mem_iff.mp hqmem
  have hpfound := hd.lookup?_eq_some_iff.mpr hpmem
  have hqfound := hd.lookup?_eq_some_iff.mpr hqmem
  rw [hkey, hqfound, Option.some.injEq] at hpfound
  exact Prod.ext hkey hpfound.symm

theorem Entries.Distinct.perm_of_lookup? {es fs : Entries} (hes : es.Distinct)
    (hfs : fs.Distinct) (h : ∀ k, Entries.lookup? k es = Entries.lookup? k fs) : es.Perm fs := by
  refine (List.perm_ext_iff_of_nodup hes.of_map hfs.of_map).mpr ?_
  rintro ⟨k, v⟩
  rw [← hes.lookup?_eq_some_iff, ← hfs.lookup?_eq_some_iff, h]

/-- The keys of sorted entries increase strictly if they are distinct. -/
theorem Entries.Distinct.keys_increase {es : Entries} (hd : es.Distinct) :
    ((sortByKey es).map Prod.fst).Pairwise fun k l => Text.compare k l = .lt := by
  have hsorted : ((sortByKey es).map Prod.fst).Pairwise fun k l => Text.isLE k l = true :=
    List.pairwise_map.mpr (pairwise_sortByKey es)
  have hdistinct : ((sortByKey es).map Prod.fst).Nodup := hd.perm (sortByKey_perm es)
  exact hsorted.imp₂ (fun _ _ => Text.compare_lt_of_isLE) hdistinct

namespace Value

/-- A value without floating point numbers. -/
def FloatFree (v : Value) : Prop := ∀ x, ¬ Part (.float x) v

/-! ### The same value -/

section Same

variable {u v w : Value}

/-- Values that are the same as one value are the same as each other. -/
theorem Same.euclidean (hv : u.Same v) (hw : u.Same w) : v.Same w := by
  induction u using Value.ind generalizing v w with
  | array us ih =>
      cases hv with
      | @array _ vs hvs =>
          cases hw with
          | @array _ ws hws =>
              refine Same.array ?_
              -- Item by item along the list that both are compared with.
              induction us generalizing vs ws with
              | nil =>
                  cases hvs
                  exact hws
              | cons u us ihs =>
                  cases hvs with
                  | cons hv hvs =>
                      cases hws with
                      | cons hw hws =>
                          have hrest := ihs (fun u hu => ih u (List.mem_cons_of_mem _ hu)) hvs hws
                          exact .cons (ih _ List.mem_cons_self hv hw) hrest
  | object es ih =>
      cases hv with
      | @object _ fs hfs =>
          cases hw with
          | @object _ gs hgs =>
              refine Same.object fun k => ?_
              have hf := hfs k
              have hg := hgs k
              generalize Entries.lookup? k fs = v at hf
              generalize Entries.lookup? k gs = w at hg
              cases hk : Entries.lookup? k es with
              | none =>
                  rw [hk] at hf hg
                  cases hf
                  exact hg
              | some u =>
                  rw [hk] at hf hg
                  cases hf with
                  | some hv =>
                      cases hg with
                      | some hw => exact .some (ih _ (Entries.mem_of_lookup? hk) hv hw)
  | _ =>
      cases hv
      exact hw

theorem map_eq_of_rel {α β γ : Type} {R : α → β → Prop} {f : α → γ} {g : β → γ} {a : Option α}
    {b : Option β} (h : Option.Rel R a b)
    (heq : ∀ x y, a = some x → b = some y → R x y → f x = g y) : a.map f = b.map g := by
  cases h with
  | none => rfl
  | some h => rw [Option.map_some, Option.map_some, heq _ _ rfl rfl h]

/-- The same values are sorted alike: their objects have the same entries, and
    entries with distinct keys are sorted in one way. -/
theorem sorted_eq_of_same (h : v.Same w) (hv : v.DistinctKeys) (hw : w.DistinctKeys) :
    v.sorted = w.sorted := by
  induction v using Value.ind generalizing w with
  | array vs ih =>
      cases h with
      | @array _ ws hitems =>
          have hvs : ∀ v ∈ vs, v.DistinctKeys := fun v => hv.item
          have hws : ∀ w ∈ ws, w.DistinctKeys := fun w => hw.item
          clear hv hw
          rw [sorted, sorted, sortedItems_eq_map, sortedItems_eq_map]
          refine congrArg Value.array ?_
          induction hitems with
          | nil => rfl
          | cons hitem _ ihs =>
              rw [List.forall_mem_cons] at ih hvs hws
              rw [List.map_cons, List.map_cons, ih.1 hitem hvs.1 hws.1, ihs ih.2 hvs.2 hws.2]
  | object es ih =>
      cases h with
      | @object _ fs hfound =>
          have hes := (hv es (Part.self _)).map sorted
          have hfs := (hw fs (Part.self _)).map sorted
          rw [sorted, sorted, sortedEntries_eq_map, sortedEntries_eq_map]
          refine congrArg Value.object (sortByKey_eq_of_perm hfs ?_)
          refine hes.perm_of_lookup? hfs fun k => ?_
          -- Key by key, what is found in the one is the same as in the other.
          rw [Entries.lookup?_map, Entries.lookup?_map]
          refine map_eq_of_rel (hfound k) fun v w hkv hkw hsame => ?_
          have hvmem := Entries.mem_of_lookup? hkv
          have hwmem := Entries.mem_of_lookup? hkw
          exact ih _ hvmem hsame (hv.entry hvmem) (hw.entry hwmem)
  | _ =>
      cases h
      rfl

/-- Entries in another order make up the same object. -/
theorem DistinctKeys.same_perm {es fs : Entries} (hk : (Value.object es).DistinctKeys)
    (hp : fs.Perm es) : (Value.object es).Same (.object fs) := by
  refine Same.object fun k => ?_
  rw [Entries.Distinct.lookup?_perm (hk es (Part.self _)) hp]
  cases hfound : Entries.lookup? k es with
  | none => exact .none
  | some v =>
      have hv := (hk.entry (Entries.mem_of_lookup? hfound)).same_sorted
      exact .some (hv.euclidean hv)

theorem same_of_sorted_eq (h : v.sorted = w.sorted) (hv : v.DistinctKeys) (hw : w.DistinctKeys) :
    v.Same w := by
  have hsame := hv.same_sorted
  rw [h] at hsame
  exact hsame.euclidean hw.same_sorted

end Same

/-! ### The same text -/

theorem itemSizes_congr {f : Value → Value} {x : Double} {depth : Nat} {vs : List Value}
    (h : ∀ v ∈ vs, (f v).sizeAt x depth = v.sizeAt x depth) :
    itemSizes x depth (vs.map f) = itemSizes x depth vs := by
  induction vs with
  | nil => rfl
  | cons v rest ih =>
      rw [List.forall_mem_cons] at h
      rw [List.map_cons, itemSizes, itemSizes, h.1, ih h.2]

/-- The units of a text are counted in the order of keys. -/
theorem sizeAt_sorted (v : Value) (x : Double) (depth : Nat) :
    v.sorted.sizeAt x depth = v.sizeAt x depth := by
  induction v using Value.ind generalizing depth with
  | array vs ih =>
      rw [sorted, sortedItems_eq_map, sizeAt, sizeAt,
        itemSizes_congr fun v hv => ih v hv (depth + 1)]
  | object es ih =>
      have hsizes : es.map (fun e => (e.1, e.2.sorted.sizeAt x (depth + 1)))
          = es.map fun e => (e.1, e.2.sizeAt x (depth + 1)) := by
        refine List.map_congr_left fun e he => ?_
        rw [ih e he]
      rw [sorted, sortedEntries_eq_map, sizeAt, sizeAt, entrySizes_eq_map, entrySizes_eq_map,
        ← sortByKey_map, sortByKey_sortByKey, List.map_map]
      exact congrArg (fun sizes => _ >>= _) (congrArg sortByKey hsizes)
  | _ => rfl

theorem print_eq_of_sorted_eq {v w : Value} (h : v.sorted = w.sorted) (indent : Option Nat) :
    v.print indent = w.print indent := by
  unfold print
  rw [← printAt_sorted v, h, printAt_sorted]

/-- Values that are sorted alike have the same texts, or none for the same reason. -/
theorem printWith_eq_of_sorted_eq {v w : Value} (h : v.sorted = w.sorted) (x : Option Double) :
    v.printWith x = w.printWith x := by
  have hprint := print_eq_of_sorted_eq h
  cases x with
  | none => exact congrArg Except.ok (hprint none)
  | some x =>
      have hsize : v.sizeAt x 0 = w.sizeAt x 0 := by
        rw [← sizeAt_sorted v, h, sizeAt_sorted]
      unfold printWith
      simp only [hsize, hprint]

/-- A text that is written at all is the one of the indentation asked for. -/
theorem eq_print_of_printWith {v : Value} {x : Option Double} {t : Text}
    (h : v.printWith x = .ok t) : t = v.print (x.bind indentOf?) := by
  cases x with
  | none =>
      rw [printWith, Except.ok.injEq] at h
      exact h.symm
  | some x =>
      simp only [printWith] at h
      cases hindent : indentOf? x with
      | none =>
          rw [hindent] at h
          exact absurd h (by simp only [reduceCtorEq, not_false_eq_true])
      | some n =>
          rw [hindent] at h
          rw [Option.bind_some, hindent]
          cases hsize : v.sizeAt x 0 with
          | error fault =>
              rw [hsize] at h
              exact absurd h (by simp only [Except.mapError, Except.map, reduceCtorEq,
                not_false_eq_true])
          | ok size =>
              rw [hsize] at h
              exact (Except.ok.inj h).symm

theorem FloatFree.floatsSurvive {v : Value} (h : v.FloatFree) : v.FloatsSurvive :=
  fun x hx => absurd hx (h x)

theorem FloatFree.printable_eq {v : Value} (h : v.FloatFree) : v.printable = v := by
  induction v using Value.ind with
  | float x => exact absurd (Part.self _) (h x)
  | array vs ih =>
      rw [printable, printableItems_eq_map]
      refine congrArg Value.array ((List.map_congr_left fun v hv => ?_).trans (List.map_id vs))
      exact ih v hv fun x hx => h x (Part.item hv hx)
  | object es ih =>
      rw [printable, printableEntries_eq_map]
      refine congrArg Value.object ((List.map_congr_left fun e he => ?_).trans (List.map_id es))
      rw [ih e he fun x hx => h x (Part.entry he hx)]
      rfl
  | _ => rfl

/-- Two values with one text are both what is read from it. -/
theorem sorted_eq_of_print_eq {v w : Value} {indent : Option Nat}
    (h : v.print indent = w.print indent) (hv : v.DistinctKeys) (hw : w.DistinctKeys)
    (hvf : v.FloatFree) (hwf : w.FloatFree) : v.sorted = w.sorted := by
  have hvread := parse_of_denotes (denotes_printAt indent 0 hv hvf.floatsSurvive)
  have hwread := parse_of_denotes (denotes_printAt indent 0 hw hwf.floatsSurvive)
  rw [hvf.printable_eq] at hvread
  rw [hwf.printable_eq] at hwread
  change v.printAt indent 0 = w.printAt indent 0 at h
  rw [h, hwread, Except.ok.injEq] at hvread
  exact hvread.symm

end Value

/-! ### Keys in order -/

/-- The units that take a text apart. -/
def isStructural (u : CodeUnit) : Bool :=
  u = 0x22 || u = ascii '[' || u = ascii ']' || u = ascii '\x7b' || u = ascii '\x7d' ||
    u = ascii ',' || u = ascii ':'

/-- No unit of a text takes it apart. -/
def Unstructured (t : Text) : Prop := ∀ u ∈ t, isStructural u = false

instance (t : Text) : Decidable (Unstructured t) := List.decidableBAll (isStructural · = false) t

/-- An entry with its key in front, whose value is such a text. -/
inductive Keyed (One : Text → Prop) : Text → Text → Prop where
  | mk {a key b t k : Text} (ha : Blank a) (hk : Quoted key k) (hb : Blank b) (ht : One t) :
      Keyed One (a ++ (key ++ (b ++ ascii ':' :: t))) k

/-- Texts in which every object lists its keys in strictly increasing order. -/
inductive Ascending : Text → Prop where
  | plain {t : Text} (h : Unstructured t) : Ascending t
  | string {t s : Text} (h : Quoted t s) : Ascending t
  | array {parts : List Text} (h : ∀ p ∈ parts, Ascending p) :
      Ascending (ascii '[' :: (Text.join "," parts ++ [ascii ']']))
  | object {parts keys : List Text} (h : List.Forall₂ (Keyed Ascending) parts keys)
      (hkeys : keys.Pairwise fun k l => Text.compare k l = .lt) :
      Ascending (ascii '\x7b' :: (Text.join "," parts ++ [ascii '\x7d']))
  | spaced {a t b : Text} (ha : Blank a) (h : Ascending t) (hb : Blank b) :
      Ascending (a ++ (t ++ b))

/-- Parts joined by commas are listed, if blanks may stand around each. -/
theorem listed_join {α : Type} {One : Text → α → Prop}
    (hsurround : ∀ a t b x, Blank a → One t x → Blank b → One (a ++ (t ++ b)) x) :
    Listed One fun t xs =>
      ∃ parts, parts ≠ [] ∧ t = Text.join "," parts ∧ List.Forall₂ One parts xs where
  last t x h := ⟨[t], List.cons_ne_nil t [], (List.intercalate_singleton ..).symm, .cons h .nil⟩
  cons t ts x xs h hs := by
    rcases hs with ⟨parts, hne, rfl, hparts⟩
    refine ⟨t :: parts, List.cons_ne_nil t parts, ?_, .cons h hparts⟩
    cases parts with
    | nil => exact absurd rfl hne
    | cons p rest =>
        rw [Text.join, Text.join, List.intercalate_cons_cons, List.append_assoc]
        rfl
  surround := hsurround

/-- Between the brackets of the printer there are parts with commas in between;
    the blanks around the parts have become a part of them. -/
theorem exists_join {α : Type} {P : Text → α → Prop}
    (hsurround : ∀ a t b x, Blank a → P t x → Blank b → P (a ++ (t ++ b)) x)
    (opening closing : CodeUnit) (indent : Option Nat) (depth : Nat) {parts : List Text}
    {xs : List α} (h : List.Forall₂ P parts xs) :
    ∃ parts', bracket opening closing indent depth parts
        = opening :: (Text.join "," parts' ++ [closing]) ∧ List.Forall₂ P parts' xs := by
  by_cases hne : parts = []
  · subst hne
    exact ⟨[], rfl, h⟩
  · obtain ⟨t, ht, parts', -, rfl, hparts⟩ :=
      (listed_join hsurround).exists_bracket opening closing indent depth h hne
    exact ⟨parts', ht, hparts⟩

theorem Keyed.surround (a t b k : Text) (ha : Blank a) (h : Keyed Ascending t k) (hb : Blank b) :
    Keyed Ascending (a ++ (t ++ b)) k := by
  cases h with
  | mk hc hk hd ht =>
      have := Keyed.mk (ha.append hc) hk hd (Ascending.spaced Blank.nil ht hb)
      simpa only [List.append_assoc, List.cons_append, List.nil_append] using this

theorem ascending_array {indent : Option Nat} {depth : Nat} {parts : List Text}
    (h : ∀ p ∈ parts, Ascending p) :
    Ascending (bracket (ascii '[') (ascii ']') indent depth parts) := by
  obtain ⟨parts', ht, hparts⟩ := exists_join (P := fun t (_ : Text) => Ascending t)
    (fun _ _ _ _ => Ascending.spaced) (ascii '[') (ascii ']') indent depth
    (List.forall₂_same.mpr h)
  rw [ht]
  refine Ascending.array fun p hp => ?_
  rcases List.forall₂_iff_get.mp hparts with ⟨hlength, hget⟩
  rcases List.get_of_mem hp with ⟨i, rfl⟩
  exact hget i.1 i.2 (hlength ▸ i.2)

theorem keyed_entryText {indent : Option Nat} {k t : Text} (h : Ascending t) :
    Keyed Ascending (entryText indent (k, t)) k := by
  cases indent with
  | none =>
      rw [entryText, List.append_assoc]
      exact Keyed.mk Blank.nil (quoted_quote k) Blank.nil h
  | some n =>
      -- The blank behind the colon belongs to the value.
      have hblank : Blank [0x20] := fun u hu => .inl (List.mem_singleton.mp hu)
      have hspaced := Ascending.spaced hblank h Blank.nil
      rw [List.append_nil] at hspaced
      rw [entryText_some]
      exact Keyed.mk Blank.nil (quoted_quote k) Blank.nil hspaced

theorem isStructural_digit (u : CodeUnit) (hu : 0x30 ≤ u ∧ u ≤ 0x39) : isStructural u = false := by
  have hne : ∀ c : CodeUnit, ¬ (0x30 ≤ c ∧ c ≤ 0x39) → decide (u = c) = false := by
    intro c hc
    refine decide_eq_false ?_
    rintro rfl
    exact hc hu
  unfold isStructural
  rw [hne, hne, hne, hne, hne, hne, hne]
  all_goals decide

/-- Every printed text lists the keys of its objects in order. -/
theorem ascending_printAt (indent : Option Nat) (depth : Nat) {v : Value} (hk : v.DistinctKeys) :
    Ascending (v.printAt indent depth) := by
  induction v using Value.ind generalizing depth with
  | null => exact Ascending.plain (by decide : Unstructured "null")
  | bool b =>
      have hwords : ∀ b, Unstructured (Text.ofBool b) := by decide
      exact Ascending.plain (hwords b)
  | int n =>
      exact Ascending.plain (forall_ofInt isStructural_digit
        (by decide : Unstructured Decimal.marks) _)
  | float x =>
      exact Ascending.plain (forall_floatText isStructural_digit
        (by decide : Unstructured Decimal.marks) (by decide : Unstructured "null") x)
  | string s => exact Ascending.string (quoted_quote s)
  | array vs ih =>
      rw [Value.printAt, Value.printItems_eq_map]
      refine ascending_array ?_
      rw [List.forall_mem_map]
      exact fun v hv => ih v hv (depth + 1) (hk.item hv)
  | object es ih =>
      have hentries : List.Forall₂ (Keyed Ascending)
          ((sortByKey (Value.printEntries indent (depth + 1) es)).map (entryText indent))
          ((sortByKey es).map Prod.fst) := by
        rw [Value.printEntries_eq_map, sortByKey_map, List.map_map, List.forall₂_map_left_iff,
          List.forall₂_map_right_iff]
        refine List.forall₂_same.mpr fun e he => keyed_entryText ?_
        have he := (sortByKey_perm es).mem_iff.mp he
        exact ih e he (depth + 1) (hk.entry he)
      obtain ⟨parts, ht, hparts⟩ := exists_join Keyed.surround (ascii '\x7b') (ascii '\x7d') indent
        depth hentries
      rw [Value.printAt, ht]
      exact Ascending.object hparts (hk _ (Value.Part.self _)).keys_increase

/-! ### The text of a value -/

/-- The text of a value is canonical. Values that differ only in the order in
    which their entries were written have the same text, or are refused one for
    the same reason; values without floating point numbers have the same text
    only if they differ in nothing else; and every object in a text lists its
    keys in strictly increasing order. -/
theorem print_canonical {v w : Value} (hv : v.DistinctKeys) (hw : w.DistinctKeys) :
    (v.Same w → (∀ indent, v.print indent = w.print indent) ∧
        ∀ x, v.printWith x = w.printWith x) ∧
      (v.FloatFree → w.FloatFree → (∀ indent, v.print indent = w.print indent → v.Same w) ∧
        ∀ x t, v.printWith x = .ok t → w.printWith x = .ok t → v.Same w) ∧
      (∀ indent, Ascending (v.print indent)) ∧ ∀ x t, v.printWith x = .ok t → Ascending t := by
  have hascending : ∀ indent, Ascending (v.print indent) :=
    fun indent => ascending_printAt indent 0 hv
  refine ⟨fun hsame => ?_, fun hvf hwf => ?_, hascending, fun x t ht => ?_⟩
  · have hsorted := Value.sorted_eq_of_same hsame hv hw
    exact ⟨Value.print_eq_of_sorted_eq hsorted, Value.printWith_eq_of_sorted_eq hsorted⟩
  · have hsame : ∀ indent, v.print indent = w.print indent → v.Same w := by
      intro indent h
      exact Value.same_of_sorted_eq (Value.sorted_eq_of_print_eq h hv hw hvf hwf) hv hw
    refine ⟨hsame, fun x t hvt hwt => hsame (x.bind indentOf?) ?_⟩
    rw [← Value.eq_print_of_printWith hvt, Value.eq_print_of_printWith hwt]
  · rw [Value.eq_print_of_printWith ht]
    exact hascending _

/-- An object that was written in another order. It has no number inside it,
    so its text tells that it is the same. -/
theorem print_canonical_reordered :
    let es : Entries := [("b", .array []), ("a", .string [0xD800])]
    let v : Value := .object es
    let w : Value := .object es.reverse
    (v.DistinctKeys ∧ w.DistinctKeys ∧ v.FloatFree ∧ w.FloatFree) ∧
      v.print (some 2) = w.print (some 2) ∧ v.Same w ∧ Ascending (v.print (some 2)) := by
  intro es v w
  have hleaf : ∀ e ∈ es, e.2.DistinctKeys ∧ e.2.FloatFree := by
    refine List.forall_mem_cons.mpr ⟨⟨?_, ?_⟩, List.forall_mem_singleton.mpr ⟨?_, ?_⟩⟩
    · exact Value.DistinctKeys.array fun v hv => absurd hv List.not_mem_nil
    · intro x hx
      cases hx with
      | item hv => exact absurd hv List.not_mem_nil
    · intro fs hfs
      cases hfs
    · intro x hx
      cases hx
  have hfree : ∀ fs : Entries, fs ⊆ es → (Value.object fs).FloatFree := by
    intro fs hfs x hx
    cases hx with
    | entry he hx => exact (hleaf _ (hfs he)).2 x hx
  have hdistinct : es.Distinct := (by decide : ([("b" : Text), "a"]).Nodup)
  have hv : v.DistinctKeys := Value.DistinctKeys.object hdistinct fun e he => (hleaf e he).1
  have hw : w.DistinctKeys := Value.DistinctKeys.object (hdistinct.perm es.reverse_perm)
    fun e he => (hleaf e (List.mem_reverse.mp he)).1
  have hvf : v.FloatFree := hfree es (List.Subset.refl es)
  have hwf : w.FloatFree := hfree es.reverse fun e he => List.mem_reverse.mp he
  have htext := ((print_canonical hv hw).1 (hv.same_perm es.reverse_perm)).1 (some 2)
  exact ⟨⟨hv, hw, hvf, hwf⟩, htext, ((print_canonical hv hw).2.1 hvf hwf).1 (some 2) htext,
    (print_canonical hv hw).2.2.1 (some 2)⟩

end Json

end NodeWatch
