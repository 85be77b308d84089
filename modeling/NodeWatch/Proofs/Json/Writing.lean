import NodeWatch.Proofs.Json.Grammar
import NodeWatch.Proofs.Json.Normal
import NodeWatch.Proofs.Json.Reading

/-!
# Printing against the Grammar

Every printed text is derived by the grammar, and what it denotes is the value
that was printed, its keys in order and `null` for the numbers without a text.

The derivation follows the value. Between the brackets the printer puts commas
and, when it indents, a line feed and blanks behind each of them; the blanks
go to the part that follows, which is why everything here is about `Denotes`
and never about `Bare`. It also keeps the texts of floating point numbers
closed: all that is known of them is that they are read back, and that is
enough to put blanks around them.

## Theorems

* `digitsValue_ofNat`: The digits of a number have its value.
* `number_ofInt`: The text of a whole number is a number.
* `quoted_quote`: A quoted string holds the string.
* `joined`: Parts with a comma and blanks between them.
* `denotes_printAt`: A printed text denotes the value that was printed.
-/

namespace NodeWatch

namespace Json

open Grammar

/-! ### Whole numbers -/

theorem ascii_digit {c : Char} (h : c.isDigit = true) :
    0x30 ≤ ascii c ∧ ascii c ≤ 0x39 ∧ (ascii c).toNat = c.toNat := by
  obtain ⟨hlow, hhigh⟩ : 0x30 ≤ c.toNat ∧ c.toNat ≤ 0x39 := by
    simp only [Char.isDigit, Bool.and_eq_true, decide_eq_true_eq] at h
    exact h
  have hval : (ascii c).toNat = c.toNat := by
    rw [ascii, UInt16.toNat_ofNat']
    omega
  refine ⟨?_, ?_, hval⟩
  · rw [UInt16.le_iff_toNat_le, hval]
    exact hlow
  · rw [UInt16.le_iff_toNat_le, hval]
    exact hhigh

theorem digits_ofNat (n : Nat) : Digits (Text.ofNat n) := by
  refine ⟨fun h => Nat.toDigits_ne_nil (List.map_eq_nil_iff.mp h), fun u hu => ?_⟩
  rcases List.mem_map.mp hu with ⟨c, hc, rfl⟩
  have hd := ascii_digit (Nat.isDigit_of_mem_toDigits (by decide) (by decide) hc)
  exact ⟨hd.1, hd.2.1⟩

theorem digit_of_mem_zeros {n : Nat} {u : CodeUnit} (h : u ∈ List.replicate n (ascii '0')) :
    0x30 ≤ u ∧ u ≤ 0x39 := by
  rw [List.eq_of_mem_replicate h]
  decide

/-- The digits of a number have its value. -/
theorem digitsValue_ofNat (n : Nat) : Text.digitsValue (Text.ofNat n) = n := by
  -- Reading units and reading characters fold in the same way.
  have hfold : ∀ (cs : List Char) (acc : Nat), (∀ c ∈ cs, c.isDigit = true) →
      (cs.map ascii).foldl (fun n u => n * 10 + (u.toNat - 0x30)) acc
        = Nat.ofDigitChars 10 cs acc := by
    intro cs
    induction cs with
    | nil => intro acc _; rfl
    | cons c cs ih =>
        intro acc h
        rw [List.map_cons, List.foldl_cons, (ascii_digit (h c List.mem_cons_self)).2.2,
          ih _ fun d hd => h d (List.mem_cons_of_mem c hd), Nat.mul_comm]
        rfl
  rw [Text.digitsValue, Text.ofNat, hfold _ _ fun c hc =>
    Nat.isDigit_of_mem_toDigits (by decide) (by decide) hc]
  exact Nat.ofDigitChars_ten_toDigits

/-- The text of a whole number is a number with neither a fraction nor an
    exponent. -/
theorem number_ofInt (n : Int64) : Number (Text.ofInt n.toInt) (.int n) := by
  -- A sign and the digits of a magnitude make the number up.
  have hmk : ∀ {sign : Text} {negative : Bool} (m : Nat), Sign sign negative →
      n.toInt = signed negative m → Number (sign ++ Text.ofNat m) (.int n) := by
    intro sign negative m hs hn
    have h := Number.mk hs (digits_ofNat m) Fraction.none Exponent.none
      (Meaning.int (by rw [decimal_eq_digitsValue, digitsValue_ofNat]; exact hn))
    rwa [List.append_nil, List.append_nil] at h
  cases hn : n.toInt with
  | ofNat m => exact hmk m Sign.none hn
  | negSucc m => exact hmk (m + 1) Sign.minus hn

/-! ### Strings -/

theorem hexValue?_ofHexValue {n : Nat} (h : n < 16) :
    (CodeUnit.ofHexValue n).hexValue? = some n := by
  have hall : ∀ n : Fin 16, (CodeUnit.ofHexValue n).hexValue? = some n.val := by decide
  exact hall ⟨n, h⟩

theorem hexDigit_ofHexValue {n : Nat} (h : n < 16) : HexDigit (CodeUnit.ofHexValue n) n :=
  hexDigit_iff.mpr (hexValue?_ofHexValue h)

/-- Every unit is printed in one of its spellings. -/
theorem spelling_quoteUnit (u : CodeUnit) : Spelling (quoteUnit u) u := by
  unfold quoteUnit
  split_ifs with hq hb h8 hC hA hD h9 hlt
  · exact hq ▸ Spelling.letter Letter.quotation
  · exact hb ▸ Spelling.letter Letter.backslash
  · exact h8 ▸ Spelling.letter Letter.backspace
  · exact hC ▸ Spelling.letter Letter.formFeed
  · exact hA ▸ Spelling.letter Letter.lineFeed
  · exact hD ▸ Spelling.letter Letter.carriageReturn
  · exact h9 ▸ Spelling.letter Letter.tab
  -- The other control characters are written by their two low digits.
  · have hu : u.toNat < 32 := UInt16.lt_iff_toNat_lt.mp hlt
    have h := Spelling.hex (hexDigit_ofHexValue (show 0 < 16 by decide))
      (hexDigit_ofHexValue (show 0 < 16 by decide))
      (hexDigit_ofHexValue (show u.toNat / 16 < 16 by omega))
      (hexDigit_ofHexValue (show u.toNat % 16 < 16 by omega))
    have hval : UInt16.ofNat (((0 * 16 + 0) * 16 + u.toNat / 16) * 16 + u.toNat % 16) = u := by
      rw [show ((0 * 16 + 0) * 16 + u.toNat / 16) * 16 + u.toNat % 16 = u.toNat by omega]
      exact UInt16.ofNat_toNat
    rw [hval] at h
    exact h
  · exact Spelling.raw hq hb

/-- A quoted string holds the string. -/
theorem quoted_quote (s : Text) : Quoted (quote s) s := by
  have hbody : Body (s.flatMap quoteUnit) s := by
    induction s with
    | nil => exact Body.nil
    | cons u s ih =>
        rw [List.flatMap_cons]
        exact Body.cons (spelling_quoteUnit u) ih
  exact Quoted.mk hbody

/-! ### Brackets -/

theorem blank_margin (indent depth : Nat) : Blank (margin indent depth) := by
  intro u hu
  exact .inl (List.eq_of_mem_replicate hu)

theorem blank_newline : Blank "\n" := by
  intro u hu
  exact .inr (.inr (.inr (List.mem_singleton.mp hu)))

theorem Grammar.Entry.surround {a t b : Text} {e : Text × Value} (ha : Blank a) (h : Entry t e)
    (hb : Blank b) : Entry (a ++ (t ++ b)) e := by
  cases h with
  | mk hc hk hd h =>
      have := Entry.mk (ha.append hc) hk hd (Denotes.surround Blank.nil h hb)
      simpa only [List.append_assoc, List.cons_append, List.nil_append] using this

/-- Parts and the lists of them that commas make, with room for blanks. -/
structure Listed {α : Type} (One : Text → α → Prop) (Many : Text → List α → Prop) : Prop where
  last : ∀ t x, One t x → Many t [x]
  cons : ∀ t ts x xs, One t x → Many ts xs → Many (t ++ ascii ',' :: ts) (x :: xs)
  surround : ∀ a t b x, Blank a → One t x → Blank b → One (a ++ (t ++ b)) x

theorem listed_items : Listed Denotes Items where
  last _ _ := Items.last
  cons _ _ _ _ := Items.cons
  surround _ _ _ _ := Denotes.surround

theorem listed_members : Listed Entry Members where
  last _ _ := Members.last
  cons _ _ _ _ := Members.cons
  surround _ _ _ _ := Entry.surround

namespace Listed

variable {α : Type} {One : Text → α → Prop} {Many : Text → List α → Prop}

/-- Parts with a comma and blanks between them, and blanks around them all.
    The blanks behind a comma belong to the part that follows it. -/
theorem joined (hl : Listed One Many) {m b : Text} (hm : Blank m) (hb : Blank b)
    {parts : List Text} {xs : List α} (h : List.Forall₂ One parts xs) (hne : parts ≠ [])
    {a : Text} (ha : Blank a) : Many (a ++ (Text.join (ascii ',' :: m) parts ++ b)) xs := by
  induction h generalizing a with
  | nil => exact absurd rfl hne
  | @cons t x parts xs hx hxs ih =>
      cases hxs with
      -- The last part takes the blanks behind all of them.
      | nil =>
          have := hl.last _ _ (hl.surround _ _ _ _ ha hx hb)
          simpa only [Text.join, List.intercalate_singleton] using this
      | @cons t' x' parts xs hx' hxs =>
          -- The blanks behind the comma stand in front of the rest.
          have hrest := ih (List.cons_ne_nil _ _) hm
          have := hl.cons _ _ _ _ (hl.surround _ _ _ _ ha hx Blank.nil) hrest
          rw [Text.join, List.intercalate_cons_cons]
          simpa only [Text.join, List.append_assoc, List.cons_append, List.nil_append] using this

/-- What the printer puts between two brackets is a list of its parts. -/
theorem exists_bracket (hl : Listed One Many) (opening closing : CodeUnit) (indent : Option Nat)
    (depth : Nat) {parts : List Text} {xs : List α} (h : List.Forall₂ One parts xs)
    (hne : parts ≠ []) :
    ∃ t, bracket opening closing indent depth parts = opening :: (t ++ [closing]) ∧ Many t xs := by
  have hempty : parts.isEmpty = false := by
    cases parts with
    | nil => exact absurd rfl hne
    | cons _ _ => rfl
  cases indent with
  | none =>
      refine ⟨_, ?_, hl.joined Blank.nil Blank.nil h hne Blank.nil⟩
      rw [bracket, hempty, List.nil_append, List.append_nil]
      rfl
  | some n =>
      have ha : Blank ("\n" ++ margin n (depth + 1)) := blank_newline.append (blank_margin _ _)
      have hb : Blank ("\n" ++ margin n depth) := blank_newline.append (blank_margin _ _)
      refine ⟨_, ?_, hl.joined ha hb h hne ha⟩
      rw [bracket, hempty]
      simp only [List.append_assoc, List.cons_append, List.nil_append]
      rfl

end Listed

/-! ### Values -/

theorem denotes_array {indent : Option Nat} {depth : Nat} {parts : List Text} {vs : List Value}
    (h : List.Forall₂ Denotes parts vs) :
    Denotes (bracket (ascii '[') (ascii ']') indent depth parts) (.array vs) := by
  cases h with
  | nil => exact (Bare.emptyArray Blank.nil).denotes
  | cons hv hvs =>
      obtain ⟨t, ht, hitems⟩ := listed_items.exists_bracket (ascii '[')
        (ascii ']') indent depth (List.Forall₂.cons hv hvs) (List.cons_ne_nil _ _)
      rw [ht]
      exact (Bare.array hitems).denotes

theorem denotes_object {indent : Option Nat} {depth : Nat} {parts : List Text} {es : Entries}
    (h : List.Forall₂ Entry parts es) (hd : es.Distinct) :
    Denotes (bracket (ascii '\x7b') (ascii '\x7d') indent depth parts) (.object es) := by
  cases h with
  | nil => exact (Bare.emptyObject Blank.nil).denotes
  | @cons _ e parts es he hes =>
      obtain ⟨t, ht, hmembers⟩ := listed_members.exists_bracket (ascii '\x7b')
        (ascii '\x7d') indent depth (List.Forall₂.cons he hes) (List.cons_ne_nil _ _)
      have hes := holds_ofList (e :: es)
      rw [hd.ofList_eq] at hes
      rw [ht]
      exact (Bare.object hmembers hes).denotes

/-- A printed entry is its key, a colon and its value, which may stand behind
    a blank. -/
theorem entry_entryText {indent : Option Nat} {k t : Text} {v : Value} (h : Denotes t v) :
    Entry (entryText indent (k, t)) (k, v) := by
  -- The blank behind the colon, if there is one, belongs to the value.
  have hmk : ∀ {b : Text}, Blank b → Entry (quote k ++ ascii ':' :: (b ++ t)) (k, v) := by
    intro b hb
    have hv := Denotes.surround hb h Blank.nil
    rw [List.append_nil] at hv
    exact Entry.mk Blank.nil (quoted_quote k) Blank.nil hv
  cases indent with
  | none =>
      rw [entryText, List.append_assoc]
      exact hmk Blank.nil
  | some n =>
      rw [entryText_some]
      exact hmk fun u hu => .inl (List.mem_singleton.mp hu)

/-- A printed text denotes the value that was printed, with its keys in order
    and `null` for the numbers without a text. -/
theorem denotes_printAt (indent : Option Nat) (depth : Nat) {v : Value} (hk : v.DistinctKeys)
    (hf : v.FloatsSurvive) : Denotes (v.printAt indent depth) v.printable.sorted := by
  induction v using Value.ind generalizing depth with
  | null => exact Bare.null.denotes
  | bool b => exact (Bare.bool b).denotes
  | int n => exact (Bare.number (number_ofInt n)).denotes
  | string s => exact (Bare.string (quoted_quote s)).denotes
  | float x =>
      cases hx : x.isFinite with
      -- Nothing is known of the text of a number but that it is read back.
      | true =>
          rw [Value.printable, if_pos hx]
          exact denotes_of_parse (hf x (Value.Part.self _) hx)
      | false =>
          rw [Value.printable, hx]
          cases x with
          | finite s m q h => exact absurd hx (by simp only [Double.isFinite, reduceCtorEq,
              not_false_eq_true])
          | nan => exact Bare.null.denotes
          | infinite s => exact Bare.null.denotes
  | array vs ih =>
      rw [Value.printable, Value.printableItems_eq_map, Value.sorted, Value.sortedItems_eq_map,
        Value.printAt, Value.printItems_eq_map, List.map_map]
      refine denotes_array ?_
      rw [List.forall₂_map_left_iff, List.forall₂_map_right_iff]
      exact List.forall₂_same.mpr fun v hv => ih v hv (depth + 1) (hk.item hv) (hf.item hv)
  | object es ih =>
      -- Distinct keys are needed here: what was read of the entries is written
      -- one after the other, and no entry is to overwrite another.
      have hd := (hk es (Value.Part.self _)).map (Value.sorted ∘ Value.printable)
      have hperm := sortByKey_perm es
      rw [Value.printable, Value.printableEntries_eq_map, Value.sorted,
        Value.sortedEntries_eq_map, List.map_map, Value.printAt, Value.printEntries_eq_map]
      change Denotes _ (.object (sortByKey (es.map fun e => (e.1, e.2.printable.sorted))))
      refine denotes_object ?_ (hd.perm (sortByKey_perm _))
      -- Both sides list the same entries in the same order.
      rw [sortByKey_map, sortByKey_map, List.map_map, List.forall₂_map_left_iff,
        List.forall₂_map_right_iff]
      refine List.forall₂_same.mpr fun e he => entry_entryText ?_
      have he := hperm.mem_iff.mp he
      exact ih e he (depth + 1) (hk.entry he) (hf.entry he)

end Json

end NodeWatch
