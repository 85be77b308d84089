import NodeWatch.Json.Value
import NodeWatch.Proofs.Text.Order
import Mathlib.Data.List.Induction
import Mathlib.Data.List.Sort

/-!
# Objects as Maps

The entries of an object stand in some order, but what an object says is
which value it has under which key. This module relates the two: writing,
sorting and mapping entries are described by `lookup?`, which is all that a
reader of an object can ask.

Sorting by key is the insertion sort of the library, once the order of texts
is known to be total and transitive (`Text.isLE_total`, `Text.isLE_trans`).

## Main definitions

* `ByKey`: The order of pairs by their keys.
* `Entries.Distinct`: No key comes twice.

## Theorems

* `sortByKey_eq_insertionSort`: Sorting is the insertion sort by keys.
* `sortByKey_sortByKey`: Sorting twice is sorting once.
* `sortByKey_map`: Sorting does not look at the values.
* `lookup?_insert`, `lookup?_ofList`: What writing entries does to a key.
* `lookup?_ofList_eq_some_iff`: A key is found in the last entry with it.
* `keys_ofList`, `distinct_ofList`: The keys stand where they were first written.
* `insert_of_lookup?`, `insert_insert`: Writing a key over again.
* `Distinct.lookup?_eq_some_iff`: With distinct keys, to find an entry is to
  have it.
* `Distinct.lookup?_sortByKey`: Sorting does not change the map.
* `Distinct.ofList_eq`: Writing entries with distinct keys leaves just them.
-/

namespace NodeWatch

namespace Json

/-! ### Sorting -/

section Sorting

variable {α β : Type}

/-- One pair comes no later than another by its key. -/
def ByKey (p q : Text × α) : Prop := Text.isLE p.1 q.1 = true

instance : DecidableRel (ByKey (α := α)) := fun p q =>
  inferInstanceAs (Decidable (Text.isLE p.1 q.1 = true))

instance : Std.Total (ByKey (α := α)) := ⟨fun p q => Text.isLE_total p.1 q.1⟩

instance : IsTrans (Text × α) ByKey := ⟨fun _ _ _ hpq hqr => Text.isLE_trans hpq hqr⟩

theorem insertByKey_eq_orderedInsert (pair : Text × α) (pairs : List (Text × α)) :
    insertByKey pair pairs = pairs.orderedInsert ByKey pair := by
  induction pairs with
  | nil => rfl
  | cons p rest ih =>
      rw [insertByKey, ih, List.orderedInsert_cons]
      rfl

theorem sortByKey_eq_insertionSort (pairs : List (Text × α)) :
    sortByKey pairs = pairs.insertionSort ByKey := by
  induction pairs with
  | nil => rfl
  | cons p rest ih =>
      rw [List.insertionSort_cons, ← ih, ← insertByKey_eq_orderedInsert]
      rfl

theorem sortByKey_perm (pairs : List (Text × α)) : (sortByKey pairs).Perm pairs := by
  rw [sortByKey_eq_insertionSort]
  exact List.perm_insertionSort ByKey pairs

theorem sortByKey_sortByKey (pairs : List (Text × α)) :
    sortByKey (sortByKey pairs) = sortByKey pairs := by
  rw [sortByKey_eq_insertionSort, sortByKey_eq_insertionSort]
  exact (List.pairwise_insertionSort ByKey pairs).insertionSort_eq

/-- Sorting does not look at the values. -/
theorem sortByKey_map (f : Text × α → β) (pairs : List (Text × α)) :
    sortByKey (pairs.map fun p => (p.1, f p)) = (sortByKey pairs).map fun p => (p.1, f p) := by
  rw [sortByKey_eq_insertionSort, sortByKey_eq_insertionSort]
  exact (List.map_insertionSort ByKey ByKey (fun p => (p.1, f p)) pairs
    fun _ _ _ _ => Iff.rfl).symm

end Sorting

/-! ### Looking up -/

/-- Writing a key changes that key alone. -/
theorem lookup?_insert (k key : Text) (v : Value) (es : Entries) :
    Entries.lookup? k (Entries.insert key v es)
      = if key = k then some v else Entries.lookup? k es := by
  induction es with
  | nil => simp only [Entries.insert, Entries.lookup?]
  | cons e rest ih =>
      rcases e with ⟨l, w⟩
      by_cases hl : l = key
      -- The entry with the key is here, and its value is replaced.
      · rw [Entries.insert, if_pos hl, Entries.lookup?, Entries.lookup?, hl]
        by_cases hk : key = k
        · rw [if_pos hk, if_pos hk]
        · rw [if_neg hk, if_neg hk, if_neg hk]
      -- It is further on; an entry with another key does not hide it.
      · rw [Entries.insert, if_neg hl, Entries.lookup?, Entries.lookup?, ih]
        by_cases hk : l = k
        · rw [if_pos hk, if_pos hk, if_neg (fun hc => hl (hk.trans hc.symm))]
        · rw [if_neg hk, if_neg hk]

/-- Of the entries with one key the last counts. -/
theorem lookup?_ofList (k : Text) (writes : List (Text × Value)) :
    Entries.lookup? k (Entries.ofList writes)
      = (writes.reverse.find? fun e => e.1 = k).map Prod.snd := by
  rw [Entries.ofList, ← List.foldr_reverse]
  -- The last write comes first, and what was written before it is left as it is.
  induction writes.reverse with
  | nil => rfl
  | cons e rest ih =>
      rw [List.foldr_cons, lookup?_insert, ih, List.find?_cons]
      by_cases hk : e.1 = k
      · rw [if_pos hk, decide_eq_true hk, Option.map_some]
      · rw [if_neg hk, decide_eq_false hk]

section LastEntry

variable {key : Text} {writes : List (Text × Value)} {v : Value}

/-- A key is found in the last entry with it. -/
theorem lookup?_ofList_eq_some_iff :
    Entries.lookup? key (Entries.ofList writes) = some v ↔
      ∃ before after, writes = before ++ (key, v) :: after ∧ ∀ e ∈ after, e.1 ≠ key := by
  rw [lookup?_ofList, Option.map_eq_some_iff]
  constructor
  · rintro ⟨⟨k, v⟩, hfind, rfl⟩
    rw [List.find?_eq_some_iff_append] at hfind
    rcases hfind with ⟨hk, back, front, hsplit, hback⟩
    obtain rfl : k = key := of_decide_eq_true hk
    refine ⟨front.reverse, back.reverse, ?_, fun e he => ?_⟩
    · have hwrites := congrArg List.reverse hsplit
      rw [List.reverse_reverse, List.reverse_append, List.reverse_cons, List.append_assoc]
        at hwrites
      exact hwrites
    · have hother := hback e (List.mem_reverse.mp he)
      rw [Bool.not_eq_true', decide_eq_false_iff_not] at hother
      exact hother
  · rintro ⟨before, after, rfl, hlast⟩
    refine ⟨(key, v), List.find?_eq_some_iff_append.mpr
      ⟨decide_eq_true rfl, after.reverse, before.reverse, ?_, fun e he => ?_⟩, rfl⟩
    · rw [List.reverse_append, List.reverse_cons, List.append_assoc]
      rfl
    · rw [Bool.not_eq_true', decide_eq_false_iff_not]
      exact hlast e (List.mem_reverse.mp he)

theorem lookup?_ofList_eq_none_iff :
    Entries.lookup? key (Entries.ofList writes) = none ↔ ∀ e ∈ writes, e.1 ≠ key := by
  rw [lookup?_ofList, Option.map_eq_none_iff, List.find?_eq_none]
  simp only [List.mem_reverse, decide_eq_true_eq, ne_eq]

end LastEntry

namespace Entries

/-- No key comes twice. -/
def Distinct (es : Entries) : Prop := (es.map Prod.fst).Nodup

theorem lookup?_map (f : Value → Value) (k : Text) (es : Entries) :
    lookup? k (es.map fun e => (e.1, f e.2)) = (lookup? k es).map f := by
  induction es with
  | nil => rfl
  | cons e rest ih =>
      rw [List.map_cons, lookup?, lookup?, ih]
      by_cases hk : e.1 = k
      · rw [if_pos hk, if_pos hk, Option.map_some]
      · rw [if_neg hk, if_neg hk]

theorem length_insert (k : Text) (v : Value) (entries : Entries) :
    (insert k v entries).length
      = entries.length + if (lookup? k entries).isSome then 0 else 1 := by
  induction entries with
  | nil => rfl
  | cons e rest ih =>
      rw [insert, lookup?]
      by_cases hk : e.1 = k
      · rw [if_pos hk, if_pos hk]
        rfl
      · rw [if_neg hk, if_neg hk, List.length_cons, List.length_cons, ih]
        exact Nat.add_right_comm _ _ 1

/-- To write the value that is there is to write nothing. -/
theorem insert_of_lookup? {k : Text} {part : Value} {entries : Entries}
    (h : lookup? k entries = some part) : insert k part entries = entries := by
  induction entries with
  | nil => exact absurd h (by simp only [lookup?, reduceCtorEq, not_false_eq_true])
  | cons e rest ih =>
      rw [lookup?] at h
      rw [insert]
      by_cases hk : e.1 = k
      · rw [if_pos hk, Option.some.injEq] at h
        rw [if_pos hk, ← h]
      · rw [if_neg hk] at h
        rw [if_neg hk, ih h]

/-- Of two values for one key the second stays. -/
theorem insert_insert (k : Text) (part later : Value) (entries : Entries) :
    insert k later (insert k part entries) = insert k later entries := by
  induction entries with
  | nil => exact if_pos rfl
  | cons e rest ih =>
      rw [insert, insert]
      by_cases hk : e.1 = k
      · rw [if_pos hk, if_pos hk, insert, if_pos hk]
      · rw [if_neg hk, if_neg hk, insert, if_neg hk, ih]

theorem mem_of_lookup? {k : Text} {v : Value} {es : Entries} (h : lookup? k es = some v) :
    (k, v) ∈ es := by
  induction es with
  | nil => exact absurd h (by simp only [lookup?, reduceCtorEq, not_false_eq_true])
  | cons e rest ih =>
      rw [lookup?] at h
      by_cases hk : e.1 = k
      · rw [if_pos hk, Option.some.injEq] at h
        rw [← hk, ← h]
        exact List.mem_cons_self
      · rw [if_neg hk] at h
        exact List.mem_cons_of_mem _ (ih h)

namespace Distinct

/-- With distinct keys, to find an entry is to have it. -/
theorem lookup?_eq_some_iff {es : Entries} (hd : Distinct es) {k : Text} {v : Value} :
    lookup? k es = some v ↔ (k, v) ∈ es := by
  refine ⟨mem_of_lookup?, fun hm => ?_⟩
  induction es with
  | nil => exact absurd hm List.not_mem_nil
  | cons e rest ih =>
      rcases List.nodup_cons.mp hd with ⟨hfresh, hrest⟩
      rw [lookup?]
      rcases List.mem_cons.mp hm with rfl | hm
      · rw [if_pos rfl]
      -- An entry further on has a key that is not this one.
      · have hne : e.1 ≠ k := fun hk => hfresh (hk ▸ List.mem_map_of_mem hm)
        rw [if_neg hne]
        exact ih hrest hm

theorem perm {es fs : Entries} (hd : Distinct es) (hp : fs.Perm es) : Distinct fs :=
  (hp.map Prod.fst).nodup_iff.mpr hd

theorem lookup?_perm {es fs : Entries} (hd : Distinct es) (hp : fs.Perm es) (k : Text) :
    lookup? k fs = lookup? k es := by
  refine Option.ext fun v => ?_
  rw [(hd.perm hp).lookup?_eq_some_iff, hd.lookup?_eq_some_iff]
  exact hp.mem_iff

/-- Sorting does not change the map. -/
theorem lookup?_sortByKey {es : Entries} (hd : Distinct es) (k : Text) :
    lookup? k (sortByKey es) = lookup? k es :=
  hd.lookup?_perm (sortByKey_perm es) k

theorem map {es : Entries} (hd : Distinct es) (f : Value → Value) :
    Distinct (es.map fun e => (e.1, f e.2)) := by
  rw [Distinct, List.map_map]
  exact hd

theorem insert_fresh {k : Text} (v : Value) {es : Entries} (h : k ∉ es.map Prod.fst) :
    insert k v es = es ++ [(k, v)] := by
  induction es with
  | nil => rfl
  | cons e rest ih =>
      rw [List.map_cons, List.mem_cons, not_or] at h
      rw [insert, if_neg (Ne.symm h.1), ih h.2]
      rfl

/-- Writing entries with distinct keys leaves just them. -/
theorem ofList_eq {es : Entries} (hd : Distinct es) : ofList es = es := by
  induction es using List.reverseRecOn with
  | nil => rfl
  | append_singleton es e ih =>
      rw [Distinct, List.map_append] at hd
      rcases List.nodup_append.mp hd with ⟨hes, -, hfresh⟩
      -- A new key is written behind the others.
      have hnew : e.1 ∉ es.map Prod.fst := fun hmem =>
        hfresh e.1 hmem e.1 List.mem_cons_self rfl
      rw [ofList] at ih
      rw [ofList, List.foldl_append, ih hes]
      exact insert_fresh e.2 hnew

end Distinct

/-- A key that is written again keeps its place. -/
theorem keys_insert (k : Text) (v : Value) (es : Entries) :
    (insert k v es).map Prod.fst
      = if k ∈ es.map Prod.fst then es.map Prod.fst else es.map Prod.fst ++ [k] := by
  by_cases hk : k ∈ es.map Prod.fst
  · rw [if_pos hk]
    induction es with
    | nil => exact absurd hk List.not_mem_nil
    | cons e rest ih =>
        rw [insert]
        by_cases he : e.1 = k
        · rw [if_pos he, List.map_cons, List.map_cons, he]
        · rw [List.map_cons, List.mem_cons] at hk
          rw [if_neg he, List.map_cons, List.map_cons, ih (hk.resolve_left (Ne.symm he))]
  · rw [if_neg hk, Distinct.insert_fresh v hk, List.map_append]
    rfl

theorem ofList_concat (writes : List (Text × Value)) (e : Text × Value) :
    ofList (writes ++ [e]) = insert e.1 e.2 (ofList writes) := by
  rw [ofList, List.foldl_append]
  rfl

/-- The keys stand where they were first written. -/
theorem keys_ofList (writes : List (Text × Value)) :
    (ofList writes).map Prod.fst = (writes.map Prod.fst).eraseDups := by
  induction writes using List.reverseRecOn with
  | nil => rfl
  | append_singleton writes e ih =>
      rw [ofList_concat, keys_insert, ih, List.map_append, List.map_singleton,
        List.eraseDups_append, List.removeAll]
      by_cases he : e.1 ∈ writes.map Prod.fst
      · have hnone : [e.1].filter (fun k => !(writes.map Prod.fst).elem k) = [] := by
          rw [List.filter_singleton, List.elem_eq_mem, decide_eq_true he]
          rfl
        rw [if_pos (List.mem_eraseDups.mpr he), hnone, List.eraseDups_nil, List.append_nil]
      · have hnew : [e.1].filter (fun k => !(writes.map Prod.fst).elem k) = [e.1] := by
          rw [List.filter_singleton, List.elem_eq_mem, decide_eq_false he]
          rfl
        rw [if_neg (mt List.mem_eraseDups.mp he), hnew]
        rfl

theorem distinct_ofList (writes : List (Text × Value)) : Distinct (ofList writes) := by
  induction writes using List.reverseRecOn with
  | nil => exact List.nodup_nil
  | append_singleton writes e ih =>
      rw [ofList_concat, Distinct, keys_insert]
      split
      · exact ih
      · next hfresh =>
          refine List.nodup_append.mpr ⟨ih, List.nodup_singleton _, fun k hk l hl => ?_⟩
          rw [List.mem_singleton.mp hl]
          rintro rfl
          exact hfresh hk

end Entries

end Json

end NodeWatch
