import NodeWatch.Json.Document
import NodeWatch.Proofs.Json.Entries

/-!
# Writing Behind a Path

A write changes the value behind a path and is seen from the whole document.
The two are taken apart here. `graft` is the document in which the value behind
a path is another one, whatever that is, and `writeAt_eq` says that a write is
the change of the value and then this. What is known of a grafted document is
then known of a written one.

A missing part reads as `null`, and so does everything behind it. Since nothing
can be written into `null`, a path along which something was written is there,
and this is all that the laws ask: `v.follow path ≠ null`. For an index it says
that it lies in the array, without which a negative one would be taken for zero.

Reading does not tell a key that is missing from one that is `null`. A document
in which every such key had been added would read the same. So it is said apart
that values on the way to the one that was written keep their keys and their
sizes.

## Main definitions

* `Value.Leads`: A path that is there.
* `Value.put`, `Value.graft`: Another value behind a step and behind a path.
* `Value.SameShape`: Values that have the same kind, size and keys.
* `Value.Changes`: What a write does to a document.
* `Value.afterWrite`: The document after an attempt to write.

## Theorems

* `follow_of_missing`: Behind a path that is not there is `null`.
* `at_insert`, `at_append`: Reading an object with another key and an array with
  another item.
* `at_put`, `put_at`, `put_put`: Writing a step and reading one.
* `follow_graft`, `graft_follow`, `graft_graft`: The same for a path.
* `follow_graft_of_apart`, `sameShape_graft`: What a grafted document keeps.
* `writeAt_eq`: A write is a change of the value behind the path.
* `writeAt_laws`: What a write does and when it is refused.
-/

namespace NodeWatch

namespace Json

/-- The part of a value behind one step, if there is one. -/
def Value.part? (v : Value) (key : Key) : Option Value :=
  match v, key with
  | .object entries, .name k => Entries.lookup? k entries
  | .array items, .index i => if 0 ≤ i then items[i.toNat]? else none
  | _, _ => none

/-- A path that is there: every step of it finds something, if only `null`. -/
inductive Value.Leads : Value → List Key → Value → Prop where
  | here {v : Value} : Leads v [] v
  | step {v part u : Value} {key : Key} {path : List Key} (hpart : v.part? key = some part)
      (h : Leads part path u) : Leads v (key :: path) u

/-- A value in which the part behind one step is another one. -/
def Value.put (v : Value) (key : Key) (part : Value) : Value :=
  match v, key with
  | .object entries, .name k => .object (Entries.insert k part entries)
  | .array items, .index i => .array (items.set i.toNat part)
  | _, _ => v

/-- A value in which the part behind a path is another one. -/
def Value.graft (v : Value) (path : List Key) (part : Value) : Value :=
  match path with
  | [] => part
  | key :: rest => v.put key ((v.at key).graft rest part)

/-- The values have the same kind, size and keys. -/
structure Value.SameShape (v u : Value) : Prop where
  kind : v.kind = u.kind
  size : v.size = u.size
  hasKey : ∀ k, v.hasKey k = u.hasKey k

/-- A document after an item was written behind a path and one more step. It is
    there, and what is not on the way to it and not a part of it is as it was. The
    values on the way are as they were but for the item inside them. -/
structure Value.Changes (v : Value) (path : List Key) (key : Key) (item changed : Value) :
    Prop where
  written : changed.follow (path ++ [key]) = item
  elsewhere : ∀ q, ¬ q <+: path ++ [key] → ¬ path ++ [key] <+: q → changed.follow q = v.follow q
  around : ∀ q, q <+: path → q ≠ path → (changed.follow q).SameShape (v.follow q)

/-- The document after an attempt to write. -/
def Value.afterWrite (v : Value) (path : List Key) (w : Write) : Value :=
  match v.writeAt path w with
  | .ok changed => changed
  | .error _ => v

/-- The kind of value that a write is for. -/
def Write.target : Write → Kind
  | .set .. => .object
  | .push _ => .array

/-- The fault of a write into a value of another kind. -/
def Write.refusal : Write → Kind → AccessError
  | .set key _, kind => .setKey key kind
  | .push _, kind => .append kind

/-! ### Reading along paths -/

section Following

variable {v : Value} {path : List Key}

theorem at_eq (v : Value) (key : Key) : v.at key = (v.part? key).getD .null := by
  cases v with
  | object entries => cases key <;> rfl
  | array items =>
      cases key with
      | name k => rfl
      | index i =>
          rw [Value.at, Value.part?, List.getD_eq_getElem?_getD]
          by_cases hi : 0 ≤ i
          · rw [if_pos hi, if_pos hi]
          · rw [if_neg hi, if_neg hi, Option.getD_none]
  | _ => rfl

theorem follow_append (v : Value) (p q : List Key) :
    v.follow (p ++ q) = (v.follow p).follow q := List.foldl_append

theorem follow_null (path : List Key) : Value.null.follow path = .null := by
  induction path with
  | nil => rfl
  | cons key rest ih => exact ih

/-- Behind a path that is not there is `null`. -/
theorem follow_of_missing (h : ¬ ∃ u, v.Leads path u) : v.follow path = .null := by
  induction path generalizing v with
  | nil => exact absurd ⟨v, .here⟩ h
  | cons key rest ih =>
      have hat := at_eq v key
      change (v.at key).follow rest = .null
      -- Either this step finds nothing, or the rest of the path does not.
      cases hpart : v.part? key with
      | none =>
          rw [hat, hpart]
          exact follow_null rest
      | some part =>
          rw [hat, hpart]
          exact ih fun ⟨u, hu⟩ => h ⟨u, .step hpart hu⟩

end Following

/-! ### One step -/

section Steps

variable {v : Value} {key : Key}

theorem at_insert (k : Text) (part : Value) (entries : Entries) (j : Key) :
    (Value.object (Entries.insert k part entries)).at j
      = if j = .name k then part else (Value.object entries).at j := by
  cases j with
  | index j => exact (if_neg (by simp only [reduceCtorEq, not_false_eq_true])).symm
  | name j =>
      simp only [Value.at, lookup?_insert, Key.name.injEq, eq_comm (a := j)]
      by_cases hk : k = j
      · rw [if_pos hk, if_pos hk, Option.getD_some]
      · rw [if_neg hk, if_neg hk]

theorem hasKey_insert (k : Text) (part : Value) (entries : Entries) (j : Text) :
    (Value.object (Entries.insert k part entries)).hasKey j
      = (decide (j = k) || (Value.object entries).hasKey j) := by
  rw [Value.hasKey, Value.hasKey, lookup?_insert]
  by_cases hk : j = k
  · rw [if_pos hk.symm, decide_eq_true hk, Bool.true_or]
    rfl
  · rw [if_neg (Ne.symm hk), decide_eq_false hk, Bool.false_or]

theorem at_append (items : List Value) (item : Value) (j : Key) :
    (Value.array (items ++ [item])).at j
      = if j = .index items.length then item else (Value.array items).at j := by
  cases j with
  | name j => exact (if_neg (by simp only [reduceCtorEq, not_false_eq_true])).symm
  | index j =>
      simp only [Value.at, Key.index.injEq, List.getD_eq_getElem?_getD, List.getElem?_append]
      by_cases hj : j = items.length
      -- The index behind the last one finds the item.
      · have hlast : ¬ j.toNat < items.length := by omega
        have hzero : j.toNat - items.length = 0 := by omega
        rw [if_pos hj, if_pos (by omega), if_neg hlast, hzero]
        rfl
      · rw [if_neg hj]
        by_cases hlt : j.toNat < items.length
        · rw [if_pos hlt]
        -- Further on there is as little as before, and below zero there is nothing at all.
        · rw [if_neg hlt]
          by_cases hneg : 0 ≤ j
          · have hafter : [item].length ≤ j.toNat - items.length := by
              rw [List.length_singleton]
              omega
            rw [if_pos hneg, if_pos hneg, List.getElem?_eq_none hafter,
              List.getElem?_eq_none (Nat.le_of_not_lt hlt)]
          · rw [if_neg hneg, if_neg hneg]

/-- An index that finds something lies in the array. -/
theorem index_bounds {items : List Value} {i : Int}
    (h : (Value.array items).at (.index i) ≠ .null) : 0 ≤ i ∧ i.toNat < items.length := by
  by_cases hi : 0 ≤ i
  · refine ⟨hi, Nat.lt_of_not_le fun hle => h ?_⟩
    rw [Value.at, if_pos hi, List.getD_eq_getElem?_getD, List.getElem?_eq_none hle,
      Option.getD_none]
  · exact absurd (by rw [Value.at, if_neg hi]) h

/-- A key that finds something is a key of the object. -/
theorem lookup?_of_at {entries : Entries} {k : Text}
    (h : (Value.object entries).at (.name k) ≠ .null) :
    Entries.lookup? k entries = some ((Value.object entries).at (.name k)) := by
  rw [Value.at] at h ⊢
  cases hlookup : Entries.lookup? k entries with
  | some part => rfl
  | none => exact absurd (by rw [hlookup, Option.getD_none]) h

/-- Writing a step that is there changes what is read with that step. -/
theorem at_put (h : v.at key ≠ .null) (part : Value) (k : Key) :
    (v.put key part).at k = if k = key then part else v.at k := by
  cases v with
  | object entries =>
      cases key with
      | index i => exact absurd rfl h
      | name key => exact at_insert key part entries k
  | array items =>
      cases key with
      | name key => exact absurd rfl h
      | index i =>
          rcases index_bounds h with ⟨hi, hlt⟩
          cases k with
          | name k => exact (if_neg (by simp only [reduceCtorEq, not_false_eq_true])).symm
          | index j =>
              simp only [Value.put, Value.at, Key.index.injEq]
              by_cases hj : 0 ≤ j
              -- Neither index is negative, so they agree if they name the same item.
              · have hindex : i.toNat = j.toNat ↔ j = i := by omega
                simp only [if_pos hj, List.getD_eq_getElem?_getD, List.getElem?_set, hindex, hlt,
                  if_true]
                by_cases hji : j = i
                · rw [if_pos hji, if_pos hji, Option.getD_some]
                · rw [if_neg hji, if_neg hji]
              · have hji : j ≠ i := fun hc => hj (hc ▸ hi)
                rw [if_neg hj, if_neg hj, if_neg hji]
  | _ => exact absurd rfl h

theorem put_at (h : v.at key ≠ .null) : v.put key (v.at key) = v := by
  cases v with
  | object entries =>
      cases key with
      | index i => exact absurd rfl h
      | name key => exact congrArg Value.object (Entries.insert_of_lookup? (lookup?_of_at h))
  | array items =>
      cases key with
      | name key => exact absurd rfl h
      | index i =>
          rcases index_bounds h with ⟨hi, hlt⟩
          rw [Value.put, Value.at, if_pos hi, List.getD_eq_getElem?_getD,
            List.getElem?_eq_getElem hlt, Option.getD_some, List.set_getElem_self]
  | _ => rfl

theorem put_put (v : Value) (key : Key) (part later : Value) :
    (v.put key part).put key later = v.put key later := by
  cases v with
  | object entries =>
      cases key with
      | index i => rfl
      | name key => exact congrArg Value.object (Entries.insert_insert key part later entries)
  | array items =>
      cases key with
      | name key => rfl
      | index i => exact congrArg Value.array (List.set_set _)
  | _ => rfl

/-- Writing a step that is there keeps the kind, the size and the keys. -/
theorem sameShape_put (h : v.at key ≠ .null) (part : Value) :
    (v.put key part).SameShape v := by
  cases v with
  | object entries =>
      cases key with
      | index i => exact absurd rfl h
      | name key =>
          have hsome : (Entries.lookup? key entries).isSome = true := by
            rw [lookup?_of_at h, Option.isSome_some]
          refine ⟨rfl, ?_, fun k => ?_⟩
          · rw [Value.put, Value.size, Entries.length_insert, if_pos hsome]
            rfl
          · rw [Value.put, hasKey_insert]
            by_cases hk : k = key
            · rw [decide_eq_true hk, Bool.true_or, hk]
              exact hsome.symm
            · rw [decide_eq_false hk, Bool.false_or]
  | array items =>
      cases key with
      | name key => exact absurd rfl h
      | index i => exact ⟨rfl, List.length_set, fun k => rfl⟩
  | _ => exact absurd rfl h

end Steps

/-! ### Documents with another part -/

section Grafting

variable {v : Value} {path : List Key}

theorem at_ne_null {key : Key} {rest : List Key} (h : v.follow (key :: rest) ≠ .null) :
    v.at key ≠ .null := by
  intro hat
  change (v.at key).follow rest ≠ .null at h
  rw [hat] at h
  exact h (follow_null rest)

theorem follow_graft (h : v.follow path ≠ .null) (part : Value) :
    (v.graft path part).follow path = part := by
  induction path generalizing v with
  | nil => rfl
  | cons key rest ih =>
      change ((v.put key ((v.at key).graft rest part)).at key).follow rest = part
      rw [at_put (at_ne_null h), if_pos rfl]
      exact ih h

/-- Paths that part from one another do not meet again. -/
theorem follow_graft_of_apart (h : v.follow path ≠ .null) (part : Value) {q : List Key}
    (hq : ¬ q <+: path) (hpath : ¬ path <+: q) : (v.graft path part).follow q = v.follow q := by
  induction path generalizing v q with
  | nil => exact absurd List.nil_prefix hpath
  | cons key rest ih =>
      cases q with
      | nil => exact absurd List.nil_prefix hq
      | cons k q =>
          change ((v.put key ((v.at key).graft rest part)).at k).follow q = (v.at k).follow q
          rw [at_put (at_ne_null h)]
          by_cases hk : k = key
          -- The paths go on together.
          · subst hk
            rw [if_pos rfl]
            exact ih h (fun hc => hq (List.cons_prefix_cons.mpr ⟨rfl, hc⟩))
              (fun hc => hpath (List.cons_prefix_cons.mpr ⟨rfl, hc⟩))
          -- They part here, and what was written is behind the other step.
          · rw [if_neg hk]

/-- What is on the way to the new part keeps its shape. -/
theorem sameShape_graft (h : v.follow path ≠ .null) (part : Value) {q : List Key}
    (hq : q <+: path) (hne : q ≠ path) :
    ((v.graft path part).follow q).SameShape (v.follow q) := by
  induction path generalizing v q with
  | nil => exact absurd (List.prefix_nil.mp hq) hne
  | cons key rest ih =>
      cases q with
      | nil => exact sameShape_put (at_ne_null h) _
      | cons k q =>
          rcases List.cons_prefix_cons.mp hq with ⟨rfl, hrest⟩
          change (((v.put k ((v.at k).graft rest part)).at k).follow q).SameShape
            ((v.at k).follow q)
          rw [at_put (at_ne_null h), if_pos rfl]
          exact ih h hrest fun hc => hne (congrArg _ hc)

theorem graft_follow (h : v.follow path ≠ .null) : v.graft path (v.follow path) = v := by
  induction path generalizing v with
  | nil => rfl
  | cons key rest ih =>
      change v.put key ((v.at key).graft rest ((v.at key).follow rest)) = v
      rw [ih h, put_at (at_ne_null h)]

theorem graft_graft (h : v.follow path ≠ .null) (part later : Value) :
    (v.graft path part).graft path later = v.graft path later := by
  induction path generalizing v with
  | nil => rfl
  | cons key rest ih =>
      have hat : (v.put key ((v.at key).graft rest part)).at key = (v.at key).graft rest part := by
        rw [at_put (at_ne_null h), if_pos rfl]
      change (v.put key _).put key (((v.put key _).at key).graft rest later) = _
      rw [hat, put_put, ih h]
      rfl

/-- A value that reads like the old one but for one step makes for a document that
    reads like the old one but for the path to that step. -/
theorem changes_graft (h : v.follow path ≠ .null) {part item : Value} {key : Key}
    (hpart : ∀ k, part.at k = if k = key then item else (v.follow path).at k) :
    v.Changes path key item (v.graft path part) where
  written := by
    rw [follow_append, follow_graft h]
    exact (hpart key).trans (if_pos rfl)
  elsewhere := by
    intro q hq hpath
    by_cases hinside : path <+: q
    -- What is read is a part of another step, for it can be neither the whole nor this one.
    · rcases hinside with ⟨steps, rfl⟩
      rw [follow_append, follow_append, follow_graft h]
      cases steps with
      | nil => exact absurd ((List.append_nil path).symm ▸ List.prefix_append path [key]) hq
      | cons k rest =>
          have hk : k ≠ key := fun hk => hpath ⟨rest, by rw [hk, List.append_assoc]; rfl⟩
          change (part.at k).follow rest = ((v.follow path).at k).follow rest
          rw [hpart, if_neg hk]
    -- What is read is elsewhere in the document, since the path does not lead to it.
    · exact follow_graft_of_apart h part (fun hc => hq (hc.trans (List.prefix_append path [key])))
        hinside
  around _ hq hne := sameShape_graft h part hq hne

end Grafting

/-! ### Writes -/

section Writing

variable {v : Value} {path : List Key}

theorem apply_of_ne {w : Write} (h : v.kind ≠ w.target) :
    w.apply v = .error (w.refusal v.kind) := by
  cases w <;> cases v <;> first | rfl | exact absurd rfl h

/-- A write is a change of the value behind the path. -/
theorem writeAt_eq (v : Value) (path : List Key) (w : Write) :
    v.writeAt path w = (w.apply (v.follow path)).map (v.graft path) := by
  induction path generalizing v with
  | nil =>
      change w.apply v = (w.apply v).map id
      cases w.apply v <;> rfl
  | cons key rest ih =>
      change _ = (w.apply ((v.at key).follow rest)).map _
      rw [Value.writeAt, ih]
      -- Only a change is put back, and both put it back by the kind of the value.
      cases w.apply ((v.at key).follow rest) with
      | error fault => rfl
      | ok part => cases v <;> cases key <;> rfl

theorem writeAt_set {entries : Entries} (h : v.follow path = .object entries) (key : Text)
    (item : Value) :
    v.writeAt path (.set key item)
      = .ok (v.graft path (.object (Entries.insert key item entries))) := by
  rw [writeAt_eq, h]
  rfl

theorem writeAt_push {items : List Value} (h : v.follow path = .array items) (item : Value) :
    v.writeAt path (.push item) = .ok (v.graft path (.array (items ++ [item]))) := by
  rw [writeAt_eq, h]
  rfl

end Writing

/-- What a write does.

    A key that is set reads as the item, and whatever is not on the way to it and
    not a part of it reads as before. The object has the keys that it had and this
    one. Setting what is there changes nothing, and of two values the second stays.
    An item that is appended stands behind the others, and again all else reads as
    before. A value of another kind refuses the write, and so does what is not
    there, which is taken for `null`; the document is then left as it was. -/
theorem writeAt_laws (v : Value) (path : List Key) :
    (∀ entries, v.follow path = .object entries → ∀ key item, ∃ changed,
      v.writeAt path (.set key item) = .ok changed ∧
      v.Changes path (.name key) item changed ∧
      (∀ k, (changed.follow path).hasKey k
        = (decide (k = key) || (v.follow path).hasKey k)) ∧
      (changed.follow path).size
        = (v.follow path).size + (if (v.follow path).hasKey key then 0 else 1) ∧
      (Entries.lookup? key entries = some item → changed = v) ∧
      ∀ later, changed.writeAt path (.set key later) = v.writeAt path (.set key later)) ∧
    (∀ items, v.follow path = .array items → ∀ item, ∃ changed,
      v.writeAt path (.push item) = .ok changed ∧
      v.Changes path (.index items.length) item changed ∧
      changed.follow path = .array (items ++ [item])) ∧
    (∀ w, (v.follow path).kind ≠ w.target →
      v.writeAt path w = .error (w.refusal (v.follow path).kind) ∧ v.afterWrite path w = v) ∧
    ((¬ ∃ u, v.Leads path u) → ∀ w,
      v.writeAt path w = .error (w.refusal .null) ∧ v.afterWrite path w = v) := by
  have hrefused : ∀ w, (v.follow path).kind ≠ w.target →
      v.writeAt path w = .error (w.refusal (v.follow path).kind) ∧ v.afterWrite path w = v := by
    intro w hkind
    have hwrite : v.writeAt path w = .error (w.refusal (v.follow path).kind) := by
      rw [writeAt_eq, apply_of_ne hkind]
      rfl
    exact ⟨hwrite, by rw [Value.afterWrite, hwrite]⟩
  refine ⟨fun entries hentries key item => ?_, fun items hitems item => ?_, hrefused,
    fun hmissing w => ?_⟩
  -- An object. What is behind the path is known to be there, since it is not `null`.
  · have hnull : v.follow path ≠ .null := by
      rw [hentries]
      exact Value.noConfusion
    have hpart := follow_graft hnull (.object (Entries.insert key item entries))
    refine ⟨_, writeAt_set hentries key item, changes_graft hnull fun k => ?_, fun k => ?_, ?_,
      fun hitem => ?_, fun later => ?_⟩
    · rw [at_insert, hentries]
    · rw [hpart, hasKey_insert, hentries]
    · rw [hpart, hentries]
      exact Entries.length_insert key item entries
    · rw [Entries.insert_of_lookup? hitem, ← hentries, graft_follow hnull]
    · rw [writeAt_set hpart, writeAt_set hentries, graft_graft hnull,
        Entries.insert_insert]
  -- An array.
  · have hnull : v.follow path ≠ .null := by
      rw [hitems]
      exact Value.noConfusion
    refine ⟨_, writeAt_push hitems item, changes_graft hnull fun k => ?_, follow_graft hnull _⟩
    rw [at_append, hitems]
  -- Nothing is there, and `null` is neither of the two.
  · have hnull := follow_of_missing hmissing
    have hkind : (v.follow path).kind ≠ w.target := by
      rw [hnull]
      cases w <;> exact Kind.noConfusion
    have hwrite := hrefused w hkind
    rw [hnull] at hwrite
    exact hwrite

/-- A key is set inside an array inside an object. An index below zero leads to
    nothing, and nothing is appended there. -/
theorem writeAt_laws_sample :
    let v : Value := .object [("a", .array [.bool true, .object [("b", .null)]])]
    let path : List Key := [.name "a", .index 1]
    (∃ changed, v.writeAt path (.set "z" (.bool false)) = .ok changed ∧
      changed.follow [.name "a", .index 1, .name "z"] = .bool false ∧
      changed.follow [.name "a", .index 0] = .bool true ∧
      (changed.follow path).hasKey "b" = true ∧ (changed.follow path).size = 2) ∧
    v.writeAt [.name "a", .index (-1)] (.push .null) = .error (.append .null) := by
  intro v path
  rcases (writeAt_laws v path).1 [("b", .null)] rfl "z" (.bool false) with
    ⟨changed, hwrite, hchanges, hkeys, hsize, -⟩
  have hapart : changed.follow [.name "a", .index 0] = .bool true :=
    hchanges.elsewhere [.name "a", .index 0] (by decide) (by decide)
  exact ⟨⟨changed, hwrite, hchanges.written, hapart, hkeys "b", hsize⟩,
    ((writeAt_laws v [.name "a", .index (-1)]).2.2.1 (.push .null) (by decide)).1⟩

end Json

end NodeWatch
