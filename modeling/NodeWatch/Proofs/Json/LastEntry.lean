import NodeWatch.Json.Access
import NodeWatch.Proofs.Json.Entries
import NodeWatch.Proofs.Json.Reading

/-!
# What a Text Says Under a Key

An object may repeat a key, and when its text is read every entry replaces the
earlier ones with the same key. `Says` states the outcome about the text as it
is written, with no object in between: the last entry with a key counts. A text
that has none with the key says `null`, and so does one that is no object.

## Main definitions

* `Written`: The entries in the text of an object, in the order of the text.
* `Says`: What a text says under a key.

## Theorems

* `parse_of_written`, `exists_written`: The object that a text of entries is read as.
* `says_iff`: The part of a value behind a key, by the text of the value.
-/

namespace NodeWatch

namespace Json

open Grammar

/-- The text of an object, and the entries that are written in it. -/
inductive Written : Text → List (Text × Value) → Prop where
  | empty {a b c : Text} (ha : Blank a) (hb : Blank b) (hc : Blank c) :
      Written (a ++ (ascii '\x7b' :: (b ++ [ascii '\x7d']) ++ c)) []
  | members {a t c : Text} {es : List (Text × Value)} (ha : Blank a) (h : Members t es)
      (hc : Blank c) : Written (a ++ (ascii '\x7b' :: (t ++ [ascii '\x7d']) ++ c)) es

/-- What a text says under a key: the value of the last entry with the key, or
    `null` if there is no such entry. -/
inductive Says (text key : Text) : Value → Prop where
  | last {before after : List (Text × Value)} {v : Value}
      (h : Written text (before ++ (key, v) :: after)) (hlast : ∀ e ∈ after, e.1 ≠ key) :
      Says text key v
  | missing (h : ∀ writes, Written text writes → ∀ e ∈ writes, e.1 ≠ key) : Says text key .null

section Reading

variable {text key : Text} {writes : List (Text × Value)} {es : Entries} {v w : Value}

theorem parse_of_written (h : Written text writes) :
    parse text = .ok (.object (Entries.ofList writes)) := by
  cases h with
  | empty ha hb hc => exact parse_of_denotes (.mk ha (.emptyObject hb) hc)
  | members ha h hc => exact parse_of_denotes (.mk ha (.object h (holds_ofList _)) hc)

theorem exists_written (h : parse text = .ok (.object es)) :
    ∃ writes, Written text writes ∧ es = Entries.ofList writes := by
  cases denotes_of_parse h with
  | mk ha hbare hc =>
      generalize hv : Value.object es = v at hbare
      cases hbare with
      | emptyObject hb =>
          cases hv
          exact ⟨[], .empty ha hb hc, rfl⟩
      | object hmembers hes =>
          cases hv
          exact ⟨_, .members ha hmembers hc, hes.eq_ofList⟩
      | number hnumber =>
          subst hv
          cases hnumber with
          | mk _ _ _ _ hmeaning => cases hmeaning
      | _ => cases hv

/-- The part of a value behind a key is what the text of the value says under
    the key. -/
theorem says_iff (h : parse text = .ok v) : Says text key w ↔ v.field key = w := by
  constructor
  · intro hsays
    cases hsays with
    | @last before after _ hwritten hlast =>
        obtain rfl := Except.ok.inj (h.symm.trans (parse_of_written hwritten))
        change (Entries.lookup? key _).getD .null = w
        rw [lookup?_ofList_eq_some_iff.mpr ⟨before, after, rfl, hlast⟩, Option.getD_some]
    | missing hmissing =>
        cases v with
        | object es =>
            rcases exists_written h with ⟨writes, hwritten, rfl⟩
            change (Entries.lookup? key _).getD .null = .null
            rw [lookup?_ofList_eq_none_iff.mpr (hmissing writes hwritten), Option.getD_none]
        | _ => rfl
  · rintro rfl
    -- A value that is no object has no text with entries.
    have hother : (∀ es, v ≠ .object es) → Says text key .null := fun hv =>
      .missing fun writes hwritten =>
        absurd (Except.ok.inj (h.symm.trans (parse_of_written hwritten))) (hv _)
    cases v with
    | object es =>
        rcases exists_written h with ⟨writes, hwritten, rfl⟩
        change Says text key ((Entries.lookup? key _).getD .null)
        cases hfound : Entries.lookup? key (Entries.ofList writes) with
        | some w =>
            rcases lookup?_ofList_eq_some_iff.mp hfound with ⟨before, after, rfl, hlast⟩
            exact .last hwritten hlast
        | none =>
            refine .missing fun writes' hwritten' => ?_
            have hsame := (parse_of_written hwritten).symm.trans (parse_of_written hwritten')
            rw [Value.object.inj (Except.ok.inj hsame)] at hfound
            exact lookup?_ofList_eq_none_iff.mp hfound
    | _ => exact hother fun es => by simp only [ne_eq, reduceCtorEq, not_false_eq_true]

/-- What is not `null` stands in the text of an object. -/
theorem Says.exists_parse (h : Says text key v) (hv : v ≠ .null) :
    ∃ envelope, parse text = .ok envelope := by
  cases h with
  | last hwritten => exact ⟨_, parse_of_written hwritten⟩
  | missing => exact absurd rfl hv

end Reading

end Json

end NodeWatch
