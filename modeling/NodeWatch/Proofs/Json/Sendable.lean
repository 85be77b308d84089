import NodeWatch.Json.Access
import NodeWatch.Proofs.Json.Normal
import NodeWatch.Proofs.Json.Writing
import NodeWatch.Proofs.Text.Utf8

/-!
# Values That Can Be Sent

A value is sent as the bytes of its text, and two things could be lost on the
way: half a surrogate pair when the text is encoded, and a number or a key when
it is parsed again. `Value.Sendable` asks that neither happens to the value
itself; the printer adds nothing that could be lost.

What it adds is ASCII: brackets, blanks, words, digits and escapes. The rest is
the strings, unit by unit, and what has to be seen is that escaping never comes
between the halves of a pair. It leaves surrogates alone, because everything
that it escapes is ASCII as well.

## Main definitions

* `Value.WellFormed`: The strings and keys inside a value are well-formed.
* `Value.Sendable`: Nothing of a value is lost.

## Theorems

* `forall_floatText`: The texts of numbers are made of digits and a few marks.
* `isAscii_floatText`: The texts of numbers are ASCII.
* `wellFormed_quote`: Quoting keeps a text well-formed.
* `wellFormed_printAt`: The text of a value is well-formed.
* `parse_sendable`: The text of a value is parsed to the same value.
-/

namespace NodeWatch

namespace Decimal

/-- The units of a written decimal that are no digits. -/
def marks : Text := ".e+-"

section Units

variable {P : CodeUnit → Prop} (hdigit : ∀ u : CodeUnit, 0x30 ≤ u ∧ u ≤ 0x39 → P u)

include hdigit

theorem forall_ofNat (n : Nat) : ∀ u ∈ Text.ofNat n, P u :=
  fun u hu => hdigit u ((Json.digits_ofNat n).2 u hu)

theorem forall_zeros (n : Nat) : ∀ u ∈ List.replicate n (ascii '0'), P u :=
  fun u hu => hdigit u (Json.digit_of_mem_zeros hu)

theorem forall_significantText (d : Decimal) : ∀ u ∈ significantText d, P u := by
  intro u hu
  have hdropped := List.dropWhile_subset _ (List.mem_reverse.mp hu)
  exact forall_ofNat hdigit d.digits u (List.mem_reverse.mp hdropped)

variable (hmark : ∀ u ∈ marks, P u)

include hmark

theorem forall_pointAfter {digits : Text} (h : ∀ u ∈ digits, P u) (n : Nat) :
    ∀ u ∈ pointAfter n digits, P u := by
  unfold pointAfter
  by_cases hlong : digits.length ≤ n
  · rw [if_pos hlong, List.forall_mem_append]
    exact ⟨h, forall_zeros hdigit _⟩
  · rw [if_neg hlong, List.forall_mem_append, List.forall_mem_cons]
    exact ⟨fun u hu => h u (List.mem_of_mem_take hu), hmark _ (by decide),
      fun u hu => h u (List.mem_of_mem_drop hu)⟩

theorem forall_exponentText (layout : Layout) (e : Int) : ∀ u ∈ layout.exponentText e, P u := by
  have hsign : P (ascii (if e < 0 then '-' else '+')) := by
    split <;> exact hmark _ (by decide)
  have hpadded : ∀ u ∈ Text.padStart (Text.ofNat e.natAbs) layout.exponentWidth (ascii '0'),
      P u := by
    unfold Text.padStart
    rw [List.forall_mem_append]
    exact ⟨forall_zeros hdigit _, forall_ofNat hdigit _⟩
  unfold Layout.exponentText
  rw [List.forall_mem_cons, List.forall_mem_cons]
  exact ⟨hmark _ (by decide), hsign, hpadded⟩

/-- What holds of the digits, of the marks and of what follows a whole number
    holds of every unit of a written decimal. -/
theorem forall_write {layout : Layout} (hwhole : ∀ u ∈ layout.whole, P u) (d : Decimal) :
    ∀ u ∈ write layout d, P u := by
  have hdigits := forall_significantText hdigit d
  unfold write
  by_cases hexponent : d.exponent < layout.least ∨ layout.past ≤ d.exponent
  · simp only [if_pos hexponent]
    rw [List.forall_mem_append]
    exact ⟨forall_pointAfter hdigit hmark hdigits 1, forall_exponentText hdigit hmark layout _⟩
  simp only [if_neg hexponent]
  by_cases hsmall : d.exponent < 0
  · rw [if_pos hsmall, List.forall_mem_append, List.forall_mem_cons, List.forall_mem_cons]
    exact ⟨⟨hdigit _ (by decide), hmark _ (by decide), forall_zeros hdigit _⟩, hdigits⟩
  · rw [if_neg hsmall, List.forall_mem_append]
    refine ⟨forall_pointAfter hdigit hmark hdigits _, ?_⟩
    split
    · exact hwhole
    · exact fun u hu => absurd hu List.not_mem_nil

end Units

end Decimal

namespace Json

/-! ### Numbers and strings -/

/-- The texts of numbers are words of letters and signs: what holds of the
    units of those holds of every unit. -/
theorem forall_floatText {P : CodeUnit → Prop}
    (hdigit : ∀ u : CodeUnit, 0x30 ≤ u ∧ u ≤ 0x39 → P u) (hmark : ∀ u ∈ Decimal.marks, P u)
    (hnull : ∀ u ∈ ("null" : Text), P u) (x : Double) : ∀ u ∈ floatText x, P u := by
  cases x with
  | nan => exact hnull
  | infinite s => exact hnull
  | finite s m q h =>
      have hzero : P (ascii '0') := hdigit _ (by decide)
      have hpoint : P (ascii '.') := hmark _ (by decide)
      rw [floatText, List.forall_mem_append]
      refine ⟨?_, ?_⟩
      · split
        · exact List.forall_mem_singleton.mpr (hmark _ (by decide))
        · exact fun u hu => absurd hu List.not_mem_nil
      · split
        · exact List.forall_mem_cons.mpr ⟨hzero, List.forall_mem_cons.mpr
            ⟨hpoint, List.forall_mem_singleton.mpr hzero⟩⟩
        · refine Decimal.forall_write hdigit hmark ?_ _
          exact List.forall_mem_cons.mpr ⟨hpoint, List.forall_mem_singleton.mpr hzero⟩

theorem forall_ofInt {P : CodeUnit → Prop}
    (hdigit : ∀ u : CodeUnit, 0x30 ≤ u ∧ u ≤ 0x39 → P u) (hmark : ∀ u ∈ Decimal.marks, P u)
    (n : Int) : ∀ u ∈ Text.ofInt n, P u := by
  cases n with
  | ofNat n => exact Decimal.forall_ofNat hdigit n
  | negSucc n =>
      exact List.forall_mem_cons.mpr ⟨hmark _ (by decide), Decimal.forall_ofNat hdigit _⟩

open Text (IsAscii)

theorem isAscii_floatText (x : Double) : IsAscii (floatText x) :=
  forall_floatText (fun _ hu => UInt16.lt_of_le_of_lt hu.2 (by decide))
    (by decide : IsAscii Decimal.marks) (by decide : IsAscii "null") x

theorem isAscii_ofInt (n : Int) : IsAscii (Text.ofInt n) :=
  forall_ofInt (fun _ hu => UInt16.lt_of_le_of_lt hu.2 (by decide))
    (by decide : IsAscii Decimal.marks) n

theorem isAscii_quoteUnit {u : CodeUnit} (h : u < 0x80) : IsAscii (quoteUnit u) := by
  have hall : ∀ n : Fin 0x80, IsAscii (quoteUnit (UInt16.ofNat n)) := by decide +kernel
  have hself := hall ⟨u.toNat, UInt16.lt_iff_toNat_lt.mp h⟩
  rw [UInt16.ofNat_toNat] at hself
  exact hself

/-- Nothing but ASCII is escaped. -/
theorem quoteUnit_of_le {u : CodeUnit} (h : 0x80 ≤ u) : quoteUnit u = [u] := by
  have hne : ∀ c : CodeUnit, c < 0x80 → u ≠ c := by
    rintro c hc rfl
    exact UInt16.not_le.mpr hc h
  have hcontrol : ¬ u < 0x20 := fun hlow => hne u (UInt16.lt_trans hlow (by decide)) rfl
  rw [quoteUnit, if_neg (hne 0x22 (by decide)), if_neg (hne 0x5C (by decide)),
    if_neg (hne 0x08 (by decide)), if_neg (hne 0x0C (by decide)), if_neg (hne 0x0A (by decide)),
    if_neg (hne 0x0D (by decide)), if_neg (hne 0x09 (by decide)), if_neg hcontrol]

theorem quoteUnit_surrogate {u : CodeUnit} (h : 0xD800 ≤ u.toNat) : quoteUnit u = [u] := by
  refine quoteUnit_of_le (UInt16.le_iff_toNat_le.mpr (Nat.le_trans ?_ h))
  decide

/-- Escaping leaves surrogates alone and adds none, so it keeps a text
    well-formed. -/
theorem wellFormed_flatMap_quoteUnit {s : Text} (h : s.WellFormed) :
    Text.WellFormed (s.flatMap quoteUnit) := by
  refine h.ind (P := fun s => Text.WellFormed (s.flatMap quoteUnit)) Text.wellFormed_nil ?_ ?_
  · intro u t hu _ ih
    rw [List.flatMap_cons]
    by_cases hlow : u < 0x80
    · exact (isAscii_quoteUnit hlow).wellFormed.append ih
    · rw [quoteUnit_of_le (UInt16.not_lt.mp hlow)]
      exact Text.wellFormed_cons hu ih
  · intro u v t hpair _ ih
    have hbounds := Text.surrogates_toNat hpair
    rw [List.flatMap_cons, List.flatMap_cons, quoteUnit_surrogate hbounds.1,
      quoteUnit_surrogate (by omega)]
    exact Text.wellFormed_pair hpair ih

theorem wellFormed_quote {s : Text} (h : s.WellFormed) : (quote s).WellFormed := by
  have hmark : Text.WellFormed [0x22] := Text.IsAscii.wellFormed (by decide)
  exact (hmark.append (wellFormed_flatMap_quoteUnit h)).append hmark

/-! ### Values -/

theorem wellFormed_bracket {opening closing : CodeUnit} (hopening : opening < 0x80)
    (hclosing : closing < 0x80) (indent : Option Nat) (depth : Nat) {parts : List Text}
    (h : ∀ p ∈ parts, Text.WellFormed p) :
    (bracket opening closing indent depth parts).WellFormed := by
  have hmargin : ∀ n depth, Text.WellFormed (margin n depth) := fun n depth =>
    Text.IsAscii.wellFormed (Text.isAscii_replicate (by decide) _)
  have hline : Text.WellFormed "\n" := Text.IsAscii.wellFormed (by decide)
  have hfirst : Text.WellFormed [opening] :=
    Text.wellFormed_cons (Text.isSurrogate_ascii hopening) Text.wellFormed_nil
  have hlast : Text.WellFormed [closing] :=
    Text.wellFormed_cons (Text.isSurrogate_ascii hclosing) Text.wellFormed_nil
  unfold bracket
  by_cases hempty : parts.isEmpty = true
  · rw [if_pos hempty]
    exact hfirst.append hlast
  rw [if_neg hempty]
  cases indent with
  | none =>
      have hcomma : Text.WellFormed "," := Text.IsAscii.wellFormed (by decide)
      exact (hfirst.append (Text.wellFormed_join hcomma h)).append hlast
  | some n =>
      have hcomma : Text.WellFormed ((",\n" : Text) ++ margin n (depth + 1)) :=
        (Text.IsAscii.wellFormed (by decide)).append (hmargin n (depth + 1))
      have hend := hline.append ((hmargin n depth).append hlast)
      have hparts := (Text.wellFormed_join hcomma h).append hend
      exact hfirst.append (hline.append ((hmargin n (depth + 1)).append hparts))

theorem wellFormed_entryText (indent : Option Nat) {k t : Text} (hk : k.WellFormed)
    (ht : t.WellFormed) : (entryText indent (k, t)).WellFormed := by
  have hcolon : Text.WellFormed ":" := Text.IsAscii.wellFormed (by decide)
  have hblank : Text.WellFormed ": " := Text.IsAscii.wellFormed (by decide)
  cases indent with
  | none => exact ((wellFormed_quote hk).append hcolon).append ht
  | some n => exact ((wellFormed_quote hk).append hblank).append ht

namespace Value

/-- The strings and the keys inside a value are well-formed. -/
structure WellFormed (v : Value) : Prop where
  strings : ∀ s, Part (.string s) v → s.WellFormed
  keys : ∀ es, Part (.object es) v → ∀ e ∈ es, e.1.WellFormed

theorem WellFormed.item {vs : List Value} (h : WellFormed (.array vs)) {v : Value}
    (hv : v ∈ vs) : WellFormed v where
  strings s hs := h.strings s (Part.item hv hs)
  keys es hes := h.keys es (Part.item hv hes)

theorem WellFormed.entry {es : Entries} (h : WellFormed (.object es)) {e : Text × Value}
    (he : e ∈ es) : WellFormed e.2 where
  strings s hs := h.strings s (Part.entry he hs)
  keys fs hfs := h.keys fs (Part.entry he hfs)

/-- The text of a value is well-formed. -/
theorem wellFormed_printAt {v : Value} (h : WellFormed v) (indent : Option Nat) (depth : Nat) :
    (v.printAt indent depth).WellFormed := by
  induction v using Value.ind generalizing depth with
  | null => exact (by decide : IsAscii "null").wellFormed
  | bool b =>
      have hword : IsAscii (Text.ofBool b) := by
        cases b <;> decide
      exact hword.wellFormed
  | int n => exact (isAscii_ofInt n.toInt).wellFormed
  | float x => exact (isAscii_floatText x).wellFormed
  | string s => exact wellFormed_quote (h.strings s (Part.self _))
  | array vs ih =>
      rw [printAt, printItems_eq_map]
      refine wellFormed_bracket (by decide) (by decide) indent depth fun p hp => ?_
      rcases List.mem_map.mp hp with ⟨v, hv, rfl⟩
      exact ih v hv (h.item hv) (depth + 1)
  | object es ih =>
      rw [printAt, printEntries_eq_map]
      refine wellFormed_bracket (by decide) (by decide) indent depth fun p hp => ?_
      rcases List.mem_map.mp hp with ⟨printed, hprinted, rfl⟩
      rcases List.mem_map.mp ((sortByKey_perm _).mem_iff.mp hprinted) with ⟨e, he, rfl⟩
      have hkey := h.keys es (Part.self _) e he
      exact wellFormed_entryText indent hkey (ih e he (h.entry he) (depth + 1))

/-! ### Printed and parsed -/

/-- A value of which nothing is lost when it is printed and sent: its objects
    are maps, its strings and keys are well-formed, and its numbers have a text
    that is read as the number it was made from. -/
structure Sendable (v : Value) : Prop where
  distinct : v.DistinctKeys
  wellFormed : v.WellFormed
  finite : ∀ x : Double, Part (.float x) v → x.isFinite = true
  survive : v.FloatsSurvive

theorem printable_of_finite {v : Value} (h : ∀ x : Double, Part (.float x) v → x.isFinite = true) :
    v.printable = v := by
  induction v using Value.ind with
  | float x => rw [printable, if_pos (h x (Part.self _))]
  | array vs ih =>
      rw [printable, printableItems_eq_map]
      refine congrArg Value.array ((List.map_congr_left fun v hv => ?_).trans (List.map_id vs))
      exact ih v hv fun x hx => h x (Part.item hv hx)
  | object es ih =>
      rw [printable, printableEntries_eq_map]
      refine congrArg Value.object ((List.map_congr_left fun e he => ?_).trans (List.map_id es))
      rw [ih e he fun x hx => h x (Part.entry he hx)]
      rfl
  | _ => rfl

theorem exists_print {v : Value} {indent : Option Double} {text : Text}
    (h : v.printWith indent = .ok text) : ∃ n : Option Nat, text = v.print n := by
  cases indent with
  | none => exact ⟨none, (Except.ok.inj h).symm⟩
  | some x =>
      simp only [printWith] at h
      cases hn : indentOf? x with
      | none =>
          rw [hn] at h
          exact absurd h (by simp only [reduceCtorEq, not_false_eq_true])
      | some n =>
          rw [hn] at h
          refine ⟨some n, ?_⟩
          cases hsize : v.sizeAt x 0 with
          | error fault =>
              simp only [hsize, Except.mapError, Except.map, reduceCtorEq] at h
          | ok size =>
              simp only [hsize, Except.mapError, Except.map, Except.ok.injEq] at h
              exact h.symm

theorem parse_sorted {v : Value} (h : v.Sendable) (indent : Option Nat) :
    parse (v.print indent) = .ok v.sorted := by
  have hparse := parse_of_denotes (denotes_printAt indent 0 h.distinct h.survive)
  rw [printable_of_finite h.finite] at hparse
  exact hparse

/-- A printed value is parsed to the same value. -/
theorem parse_sendable {v : Value} (h : v.Sendable) (indent : Option Nat) :
    ∃ w, parse (v.print indent) = .ok w ∧ w.Same v :=
  ⟨v.sorted, parse_sorted h indent, h.distinct.same_sorted⟩

/-- The same values have the same behind every key. -/
theorem Same.field {v w : Value} (h : Same v w) (k : Text) : (v.field k).Same (w.field k) := by
  cases h with
  | @object es fs h =>
      have hrel := h k
      change ((Entries.lookup? k es).getD .null).Same ((Entries.lookup? k fs).getD .null)
      generalize Entries.lookup? k es = v at hrel
      generalize Entries.lookup? k fs = w at hrel
      cases hrel with
      | none => exact Same.null
      | some hvw => exact hvw
  | _ => exact Same.null

theorem exists_print_object (es : Entries) (indent : Option Nat) :
    ∃ rest, (Value.object es).print indent = ascii '\x7b' :: rest := by
  rw [print, printAt]
  unfold bracket
  split
  · exact ⟨_, rfl⟩
  · cases indent with
    | none => exact ⟨_, rfl⟩
    | some n => exact ⟨_, rfl⟩

end Value

end Json

end NodeWatch
