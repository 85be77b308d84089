import NodeWatch.Json.Parser
import NodeWatch.Proofs.Json.Entries

/-!
# Values up to the Order of Keys

What becomes of a value when it is printed and read again. Numbers that JSON
has no text for turn into `null`, and the keys of every object come in order.
The first changes the value; the second does not, if objects are taken as
maps, which is what `Value.Same` says.

An object of the program never has a key twice, and no statement about a
value that has one is made here: `DistinctKeys` is the invariant that writing
entries one after the other keeps up.

## Main definitions

* `Value.Part`: The values inside a value, itself included.
* `Value.DistinctKeys`: No object inside has a key twice.
* `Value.FloatsSurvive`: Every finite number inside is read as it was printed.
* `Value.Same`: Equality of values whose objects are maps.
* `Value.printable`: The value with `null` for the numbers without a text.
* `Value.sorted`: The value with the keys of every object in order.

## Theorems

* `Value.ind`: Induction with a hypothesis for every item and every entry.
* `Value.DistinctKeys.same_sorted`: Sorting leaves a value the same.
* `Value.printAt_sorted`, `Value.printAt_printable`: Neither change shows in print.
-/

namespace NodeWatch

namespace Json

/-- In an indented text a blank stands behind the colon of an entry. -/
theorem entryText_some (n : Nat) (k t : Text) :
    entryText (some n) (k, t) = quote k ++ ascii ':' :: ([0x20] ++ t) := by
  have hsplit : (": " : Text) = ascii ':' :: [0x20] := by decide
  rw [entryText, Option.isNone_some, if_neg Bool.false_ne_true, hsplit, List.append_assoc]
  rfl

namespace Value

/-- Induction on a value with a hypothesis for every item of an array and for
    every value of an object. -/
theorem ind {P : Value → Prop} (null : P .null) (bool : ∀ b, P (.bool b))
    (int : ∀ n, P (.int n)) (float : ∀ x, P (.float x)) (string : ∀ s, P (.string s))
    (array : ∀ vs, (∀ v ∈ vs, P v) → P (.array vs))
    (object : ∀ es, (∀ e ∈ es, P e.2) → P (.object es)) (v : Value) : P v := by
  -- The recursor of the type asks for lists of values, lists of entries and
  -- single entries as well.
  refine @Value.rec P (fun vs => ∀ v ∈ vs, P v) (fun es => ∀ e ∈ es, P e.2) (fun e => P e.2)
    null bool int float string array object ?_ ?_ ?_ ?_ ?_ v
  · intro v hv
    exact absurd hv List.not_mem_nil
  · intro w ws hw hws v hv
    rcases List.mem_cons.mp hv with rfl | hv
    · exact hw
    · exact hws v hv
  · intro e he
    exact absurd he List.not_mem_nil
  · intro d ds hd hds e he
    rcases List.mem_cons.mp he with rfl | he
    · exact hd
    · exact hds e he
  · intro k v hv
    exact hv

/-- A value inside another one. -/
inductive Part : Value → Value → Prop where
  | self (v : Value) : Part v v
  | item {u v : Value} {vs : List Value} (hv : v ∈ vs) (h : Part u v) : Part u (.array vs)
  | entry {u : Value} {e : Text × Value} {es : Entries} (he : e ∈ es) (h : Part u e.2) :
      Part u (.object es)

/-- No object inside a value has a key twice. -/
def DistinctKeys (v : Value) : Prop := ∀ es, Part (.object es) v → Entries.Distinct es

/-- Every finite number inside a value is read as it was printed. -/
def FloatsSurvive (v : Value) : Prop :=
  ∀ x : Double, Part (.float x) v → x.isFinite = true → parse (floatText x) = .ok (.float x)

theorem DistinctKeys.item {vs : List Value} (h : DistinctKeys (.array vs)) {v : Value}
    (hv : v ∈ vs) : DistinctKeys v :=
  fun es hes => h es (Part.item hv hes)

theorem DistinctKeys.entry {es : Entries} (h : DistinctKeys (.object es)) {e : Text × Value}
    (he : e ∈ es) : DistinctKeys e.2 :=
  fun fs hfs => h fs (Part.entry he hfs)

theorem DistinctKeys.array {vs : List Value} (h : ∀ v ∈ vs, v.DistinctKeys) :
    DistinctKeys (.array vs) := by
  intro es hes
  cases hes with
  | item hv hes => exact h _ hv es hes

theorem DistinctKeys.object {es : Entries} (hd : es.Distinct)
    (h : ∀ e ∈ es, DistinctKeys e.2) : DistinctKeys (.object es) := by
  intro fs hfs
  cases hfs with
  | self => exact hd
  | entry he hfs => exact h _ he fs hfs

theorem FloatsSurvive.item {vs : List Value} (h : FloatsSurvive (.array vs)) {v : Value}
    (hv : v ∈ vs) : FloatsSurvive v :=
  fun x hx => h x (Part.item hv hx)

theorem FloatsSurvive.entry {es : Entries} (h : FloatsSurvive (.object es)) {e : Text × Value}
    (he : e ∈ es) : FloatsSurvive e.2 :=
  fun x hx => h x (Part.entry he hx)

/-- Equality of values whose objects are maps: two objects are the same when
    every key has the same value in both, or in neither. -/
inductive Same : Value → Value → Prop where
  | null : Same .null .null
  | bool (b : Bool) : Same (.bool b) (.bool b)
  | int (n : Int64) : Same (.int n) (.int n)
  | float (x : Double) : Same (.float x) (.float x)
  | string (s : Text) : Same (.string s) (.string s)
  | array {vs ws : List Value} (h : List.Forall₂ Same vs ws) : Same (.array vs) (.array ws)
  | object {es fs : Entries}
      (h : ∀ k, Option.Rel Same (Entries.lookup? k es) (Entries.lookup? k fs)) :
      Same (.object es) (.object fs)

/-! ### Numbers without a text -/

mutual

/-- The value with `null` for the numbers that have no text. -/
def printable : Value → Value
  | .float x => if x.isFinite then .float x else .null
  | .array items => .array (printableItems items)
  | .object entries => .object (printableEntries entries)
  | v => v

/-- The items of an array with `null` for the numbers that have no text. -/
def printableItems : List Value → List Value
  | [] => []
  | v :: rest => printable v :: printableItems rest

/-- The entries of an object with `null` for the numbers that have no text. -/
def printableEntries : List (Text × Value) → List (Text × Value)
  | [] => []
  | (k, v) :: rest => (k, printable v) :: printableEntries rest

end

theorem printableItems_eq_map (vs : List Value) : printableItems vs = vs.map printable := by
  induction vs with
  | nil => rfl
  | cons v rest ih => rw [printableItems, ih, List.map_cons]

theorem printableEntries_eq_map (es : Entries) :
    printableEntries es = es.map fun e => (e.1, e.2.printable) := by
  induction es with
  | nil => rfl
  | cons e rest ih => rw [printableEntries, ih, List.map_cons]

/-! ### Keys in order -/

mutual

/-- The value with the keys of every object in order. -/
def sorted : Value → Value
  | .array items => .array (sortedItems items)
  | .object entries => .object (sortByKey (sortedEntries entries))
  | v => v

/-- The items of an array with the keys inside them in order. -/
def sortedItems : List Value → List Value
  | [] => []
  | v :: rest => sorted v :: sortedItems rest

/-- The entries of an object with the keys inside them in order. -/
def sortedEntries : List (Text × Value) → List (Text × Value)
  | [] => []
  | (k, v) :: rest => (k, sorted v) :: sortedEntries rest

end

theorem sortedItems_eq_map (vs : List Value) : sortedItems vs = vs.map sorted := by
  induction vs with
  | nil => rfl
  | cons v rest ih => rw [sortedItems, ih, List.map_cons]

theorem sortedEntries_eq_map (es : Entries) :
    sortedEntries es = es.map fun e => (e.1, e.2.sorted) := by
  induction es with
  | nil => rfl
  | cons e rest ih => rw [sortedEntries, ih, List.map_cons]

/-- Sorting leaves a value the same, since no key is there twice. -/
theorem DistinctKeys.same_sorted {v : Value} (h : DistinctKeys v) : Same v.sorted v := by
  induction v using Value.ind with
  | null => exact Same.null
  | bool b => exact Same.bool b
  | int n => exact Same.int n
  | float x => exact Same.float x
  | string s => exact Same.string s
  | array vs ih =>
      rw [sorted, sortedItems_eq_map]
      refine Same.array ?_
      rw [List.forall₂_map_left_iff]
      exact List.forall₂_same.mpr fun v hv => ih v hv (h.item hv)
  | object es ih =>
      have hd := h es (Part.self _)
      rw [sorted, sortedEntries_eq_map]
      -- Key by key: sorting does not change what is found, only the values do.
      refine Same.object fun k => ?_
      rw [(hd.map sorted).lookup?_sortByKey, Entries.lookup?_map]
      cases hk : Entries.lookup? k es with
      | none => exact Option.Rel.none
      | some v =>
          have hv := Entries.mem_of_lookup? hk
          exact Option.Rel.some (ih _ hv (h.entry hv))

theorem DistinctKeys.printable {v : Value} (h : DistinctKeys v) : DistinctKeys v.printable := by
  induction v using Value.ind with
  | array vs ih =>
      intro es hes
      rw [Value.printable, printableItems_eq_map] at hes
      cases hes with
      | item hw hes =>
          rcases List.mem_map.mp hw with ⟨v, hv, rfl⟩
          exact ih v hv (h.item hv) es hes
  | object fs ih =>
      intro es hes
      rw [Value.printable, printableEntries_eq_map] at hes
      cases hes with
      -- The object itself has the keys that it had.
      | self => exact (h fs (Part.self _)).map Value.printable
      | entry hd hes =>
          rcases List.mem_map.mp hd with ⟨e, he, rfl⟩
          exact ih e he (h.entry he) es hes
  | float x =>
      intro es hes
      -- A number has no object inside it, and neither has `null`.
      rw [Value.printable] at hes
      split at hes <;> cases hes
  | _ => exact h

/-! ### The same print -/

theorem printItems_eq_map (indent : Option Nat) (depth : Nat) (vs : List Value) :
    printItems indent depth vs = vs.map (printAt indent depth) := by
  induction vs with
  | nil => rfl
  | cons v rest ih => rw [printItems, ih, List.map_cons]

theorem printEntries_eq_map (indent : Option Nat) (depth : Nat) (es : Entries) :
    printEntries indent depth es = es.map fun e => (e.1, e.2.printAt indent depth) := by
  induction es with
  | nil => rfl
  | cons e rest ih => rw [printEntries, ih, List.map_cons]

/-- The texts of the entries depend on the values only through their texts. -/
theorem printEntries_congr {f : Value → Value} {indent : Option Nat} {depth : Nat}
    {es : Entries} (h : ∀ e ∈ es, (f e.2).printAt indent depth = e.2.printAt indent depth) :
    printEntries indent depth (es.map fun e => (e.1, f e.2)) = printEntries indent depth es := by
  rw [printEntries_eq_map, printEntries_eq_map, List.map_map]
  refine List.map_congr_left fun e he => ?_
  rw [Function.comp_apply, h e he]

theorem printItems_congr {f : Value → Value} {indent : Option Nat} {depth : Nat}
    {vs : List Value} (h : ∀ v ∈ vs, (f v).printAt indent depth = v.printAt indent depth) :
    printItems indent depth (vs.map f) = printItems indent depth vs := by
  rw [printItems_eq_map, printItems_eq_map, List.map_map]
  exact List.map_congr_left h

theorem printAt_printable (v : Value) (indent : Option Nat) (depth : Nat) :
    v.printable.printAt indent depth = v.printAt indent depth := by
  induction v using Value.ind generalizing depth with
  | float x =>
      cases x with
      | finite s m q h => rfl
      | nan => rfl
      | infinite s => rfl
  | array vs ih =>
      rw [printable, printableItems_eq_map, printAt, printAt,
        printItems_congr fun v hv => ih v hv (depth + 1)]
  | object es ih =>
      rw [printable, printableEntries_eq_map, printAt, printAt,
        printEntries_congr fun e he => ih e he (depth + 1)]
  | _ => rfl

theorem printAt_sorted (v : Value) (indent : Option Nat) (depth : Nat) :
    v.sorted.printAt indent depth = v.printAt indent depth := by
  induction v using Value.ind generalizing depth with
  | array vs ih =>
      rw [sorted, sortedItems_eq_map, printAt, printAt,
        printItems_congr fun v hv => ih v hv (depth + 1)]
  | object es ih =>
      -- Printing commutes with sorting, and sorting twice is sorting once.
      rw [sorted, sortedEntries_eq_map, printAt, printAt, printEntries_eq_map, ← sortByKey_map,
        sortByKey_sortByKey, ← printEntries_eq_map,
        printEntries_congr fun e he => ih e he (depth + 1)]
  | _ => rfl

end Value

end Json

end NodeWatch
