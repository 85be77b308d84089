import NodeWatch.Json.Access
import Mathlib.Data.List.Forall2

/-!
# Fields with a Fallback

What a record takes from a JSON value is said here about the value itself, so
that a record can be described by its keys and fallbacks. A field is what the
value under its key means, and its fallback if the value is no object, has no
such key, or has something there that does not mean anything of the sort.

The sorts are numbers, texts and truth values, and whatever is made of them.
`field_iff` holds for any sort that is read by a function, and the readers of
the single sorts are cases of it.

## Main definitions

* `Value.Has`: What an object has under a key.
* `Value.IsNumber`, `Value.IsText`, `Value.IsFlag`: What a value means.
* `Field`, `NumberAt`, `TextAt`, `FlagAt`, `PartAt`: A field with a fallback.
* `Lists`: The items of an array, and nothing of other values.

## Theorems

* `has_iff`: To have a value under a key is to find it there.
* `field_iff`: A field is what its reader gives.
* `numberAt_iff`, `textAt_iff`, `flagAt_iff`, `partAt_iff`: The fields of each sort.
* `lists_iff`, `listAt_iff`: A list is what the reader of its items gives.
-/

namespace NodeWatch

namespace Json

/-- An object has a value under a key. Where the key is repeated the first
    entry counts; an object that was read or built repeats none. -/
inductive Value.Has : Value → Text → Value → Prop where
  | entry {before after : Entries} {key : Text} {w : Value} (hfirst : ∀ e ∈ before, e.1 ≠ key) :
      Has (.object (before ++ (key, w) :: after)) key w

/-- The number that a value means, whole or not. -/
inductive Value.IsNumber : Value → Double → Prop where
  | int (n : Int64) : IsNumber (.int n) (Double.ofInt n.toInt)
  | float (x : Double) : IsNumber (.float x) x

/-- The text that a value means. -/
inductive Value.IsText : Value → Text → Prop where
  | string (s : Text) : IsText (.string s) s

/-- The truth value that a value means. -/
inductive Value.IsFlag : Value → Bool → Prop where
  | bool (b : Bool) : IsFlag (.bool b) b

/-- A field of a value: what is meant by the value under its key, or else the
    fallback. -/
inductive Field {α : Type} (Means : Value → α → Prop) (v : Value) (key : Text) (fallback : α) :
    α → Prop where
  | told {w : Value} {x : α} (hhas : v.Has key w) (hmeans : Means w x) :
      Field Means v key fallback x
  | untold (hnone : ∀ w x, v.Has key w → ¬ Means w x) : Field Means v key fallback fallback

/-- A number behind a key, or else the fallback. -/
abbrev NumberAt := Field Value.IsNumber

/-- A text behind a key, or else the fallback. -/
abbrev TextAt := Field Value.IsText

/-- A truth value behind a key, or else the fallback. -/
abbrev FlagAt := Field Value.IsFlag

/-- The value behind a key, or else `null`. -/
abbrev PartAt (v : Value) (key : Text) : Value → Prop := Field Eq v key .null

/-- What an array lists, item by item; other values list nothing. -/
inductive Lists {α : Type} (Means : Value → α → Prop) : Value → List α → Prop where
  | array {items : List Value} {xs : List α} (h : List.Forall₂ Means items xs) :
      Lists Means (.array items) xs
  | other {v : Value} (h : ∀ items, v ≠ .array items) : Lists Means v []

/-! ### Fields -/

section Fields

variable {α : Type} {Means : Value → α → Prop} {v w : Value} {key : Text}

theorem lookup?_eq_some_iff_append {es : Entries} :
    Entries.lookup? key es = some w ↔
      ∃ before after, es = before ++ (key, w) :: after ∧ ∀ e ∈ before, e.1 ≠ key := by
  induction es with
  | nil =>
      constructor
      · exact fun h => nomatch h
      · rintro ⟨before, after, h, -⟩
        exact absurd h.symm (List.append_ne_nil_of_right_ne_nil _ (List.cons_ne_nil _ _))
  | cons p rest ih =>
      rcases p with ⟨k, u⟩
      rw [Entries.lookup?]
      by_cases hk : k = key
      · subst hk
        rw [if_pos rfl, Option.some.injEq]
        constructor
        · rintro rfl
          exact ⟨[], rest, rfl, fun e he => absurd he List.not_mem_nil⟩
        · rintro ⟨before, after, h, hfirst⟩
          cases before with
          | nil =>
              cases h
              rfl
          | cons e before =>
              cases h
              exact absurd rfl (hfirst _ List.mem_cons_self)
      · rw [if_neg hk, ih]
        constructor
        · rintro ⟨before, after, rfl, hfirst⟩
          exact ⟨(k, u) :: before, after, rfl, List.forall_mem_cons.mpr ⟨hk, hfirst⟩⟩
        · rintro ⟨before, after, h, hfirst⟩
          cases before with
          | nil =>
              cases h
              exact absurd rfl hk
          | cons e before =>
              cases h
              exact ⟨before, after, rfl, (List.forall_mem_cons.mp hfirst).2⟩

/-- To have a value under a key is to find it there. -/
theorem has_iff : v.Has key w ↔ ∃ es, v = .object es ∧ Entries.lookup? key es = some w := by
  constructor
  · rintro ⟨hfirst⟩
    exact ⟨_, rfl, lookup?_eq_some_iff_append.mpr ⟨_, _, rfl, hfirst⟩⟩
  · rintro ⟨es, rfl, h⟩
    rcases lookup?_eq_some_iff_append.mp h with ⟨before, after, rfl, hfirst⟩
    exact .entry hfirst

/-- A value has something under a key, or reads as `null` there. -/
theorem has_field_or (v : Value) (key : Text) :
    v.Has key (v.field key) ∨ v.field key = .null ∧ ∀ w, ¬ v.Has key w := by
  cases v with
  | object es =>
      change (Value.object es).Has key ((Entries.lookup? key es).getD .null) ∨
        (Entries.lookup? key es).getD .null = .null ∧ _
      cases h : Entries.lookup? key es with
      | some w => exact .inl (has_iff.mpr ⟨es, rfl, h⟩)
      | none =>
          refine .inr ⟨rfl, fun w hw => ?_⟩
          rcases has_iff.mp hw with ⟨es', hes, hfound⟩
          cases hes
          rw [h] at hfound
          exact nomatch hfound
  | _ => exact .inr ⟨rfl, fun w hw => nomatch hw⟩

theorem field_of_has (h : v.Has key w) : v.field key = w := by
  rcases has_iff.mp h with ⟨es, rfl, hfound⟩
  change (Entries.lookup? key es).getD .null = w
  rw [hfound, Option.getD_some]

/-- A field is what its reader gives, if the reader gives what values mean and
    falls back at `null`. -/
theorem field_iff {fallback x : α} (read : Value → Option α)
    (hread : ∀ w x, Means w x ↔ read w = some x)
    (hnull : (read .null).getD fallback = fallback) :
    Field Means v key fallback x ↔ x = (read (v.field key)).getD fallback := by
  constructor
  · intro h
    cases h with
    | told hhas hmeans =>
        rw [field_of_has hhas, (hread _ _).mp hmeans, Option.getD_some]
    | untold hnone =>
        rcases has_field_or v key with hhas | ⟨hfield, -⟩
        · rw [Option.eq_none_iff_forall_ne_some.mpr fun x hx =>
            hnone _ x hhas ((hread _ _).mpr hx), Option.getD_none]
        · rw [hfield, hnull]
  · rintro rfl
    rcases has_field_or v key with hhas | ⟨hfield, hother⟩
    · cases h : read (v.field key) with
      | some x => exact .told hhas ((hread _ _).mpr h)
      | none =>
          refine .untold fun w x hhas hmeans => ?_
          rw [field_of_has hhas, (hread _ _).mp hmeans] at h
          exact nomatch h
    · rw [hfield, hnull]
      exact .untold fun w x hhas _ => hother w hhas

theorem isNumber_iff (w : Value) (x : Double) : w.IsNumber x ↔ w.asNumber? = some x := by
  constructor
  · rintro ⟨⟩ <;> rfl
  · intro h
    cases w <;> cases h <;> constructor

theorem isText_iff (w : Value) (s : Text) : w.IsText s ↔ w.asText? = some s := by
  constructor
  · rintro ⟨⟩
    rfl
  · intro h
    cases w <;> cases h
    constructor

theorem isFlag_iff (w : Value) (b : Bool) : w.IsFlag b ↔ w.asBool? = some b := by
  constructor
  · rintro ⟨⟩
    rfl
  · intro h
    cases w <;> cases h
    constructor

theorem numberAt_iff {d x : Double} : NumberAt v key d x ↔ x = v.numberOr key d :=
  field_iff Value.asNumber? isNumber_iff rfl

theorem textAt_iff {d s : Text} : TextAt v key d s ↔ s = v.textOr key d :=
  field_iff Value.asText? isText_iff rfl

theorem flagAt_iff {d b : Bool} : FlagAt v key d b ↔ b = v.boolOr key d :=
  field_iff Value.asBool? isFlag_iff rfl

theorem partAt_iff : PartAt v key w ↔ w = v.field key :=
  field_iff some (fun _ _ => Option.some_inj.symm) rfl

/-- A list is what the reader of its items gives. -/
theorem lists_iff {read : Value → α} (hread : ∀ w x, Means w x ↔ x = read w) {xs : List α} :
    Lists Means v xs ↔ xs = v.items.map read := by
  have hitems : ∀ items : List Value, List.Forall₂ Means items xs ↔ xs = items.map read := by
    intro items
    have hmeans : Means = fun w x => read w = x :=
      funext fun w => funext fun x => propext ((hread w x).trans eq_comm)
    rw [hmeans, ← List.forall₂_map_left_iff, List.forall₂_eq_eq_eq, eq_comm]
  constructor
  · intro h
    cases h with
    | array h => exact (hitems _).mp h
    | other hother =>
        cases v with
        | array items => exact absurd rfl (hother items)
        | _ => rfl
  · rintro rfl
    cases v with
    | array items => exact .array ((hitems items).mpr rfl)
    | _ => exact .other fun items => by simp only [ne_eq, reduceCtorEq, not_false_eq_true]

/-- A list behind a key is what the reader of its items gives. -/
theorem listAt_iff {read : Value → α} (hread : ∀ w x, Means w x ↔ x = read w) {xs : List α} :
    Field (Lists Means) v key [] xs ↔ xs = (v.field key).items.map read :=
  field_iff (fun w => some (w.items.map read))
    (fun _ _ => (lists_iff hread).trans (eq_comm.trans Option.some_inj.symm)) rfl

end Fields

end Json

end NodeWatch
