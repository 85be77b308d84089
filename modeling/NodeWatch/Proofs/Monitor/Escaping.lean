import NodeWatch.Proofs.Monitor.OneLookup

/-!
# The Way Out

The escape key undoes one thing at a time: it closes a list that is open, else
it goes back to an earlier result, else it clears the screen, and with nothing
on the screen it is the wish to leave. Whoever keeps pressing it gets out, and
the question is after how many times.

There is a count that every press lowers by one, the results that are held and
the lists that are open on any of them. The results to go back to bring their
open lists with them, since following an input leaves its list open, so these
lists count from the time when their result is put away. What the count needs
of the search is that an empty screen has nothing to go back to. Otherwise a
press could go back from nothing and lower nothing.

## Main definitions

* `Cursor.openLists`: How many lists are open on a result.
* `Search.held`, `Search.depth`: The results that are held, and the count.
* `Search.escapes`: The escape key, pressed several times in a row.

## Theorems

* `depth_of_escape`: Every press that is accepted lowers the count by one.
* `escapes_depth`: As many presses as the count says empty the screen.
* `escape_leads_out`: The way out from wherever a search has come to.
-/

namespace NodeWatch

namespace Lookup

/-- How many lists are open on a result. -/
def Cursor.openLists (cursor : Cursor) : Nat :=
  cursor.inputs.isOpen.toNat + cursor.outputs.isOpen.toNat

/-- Closing closes one list. -/
theorem openLists_of_close? {cursor closed : Cursor} (h : cursor.close? = some closed) :
    closed.openLists + 1 = cursor.openLists := by
  rcases closed_cases h with ⟨side, hopen, rfl⟩
  cases side with
  | inputs =>
      change 0 + cursor.outputs.isOpen.toNat + 1 = cursor.openLists
      rw [Cursor.openLists, show cursor.inputs.isOpen = true from hopen, Bool.toNat_true,
        Nat.zero_add, Nat.add_comm]
  | outputs =>
      change cursor.inputs.isOpen.toNat + 0 + 1 = cursor.openLists
      rw [Cursor.openLists, show cursor.outputs.isOpen = true from hopen, Bool.toNat_true,
        Nat.add_zero]

/-- Nothing closes when no list is open. -/
theorem openLists_of_close?_eq_none {cursor : Cursor} (h : cursor.close? = none) :
    cursor.openLists = 0 := by
  have hclosed := close?_eq_none_iff.mp h
  rw [Cursor.openLists, show cursor.inputs.isOpen = false from hclosed .inputs,
    show cursor.outputs.isOpen = false from hclosed .outputs]
  rfl

end Lookup

namespace Search

open Lookup (Result)

/-- The results that are held, the one on the screen first. -/
def held (s : Search) : List Result := s.current.toList ++ s.history

/-- How many results are held, and how many lists are open on them. -/
def depth (s : Search) : Nat :=
  s.held.length + (s.held.map fun r => r.cursor.openLists).sum

/-- The escape key pressed several times in a row, if it is accepted each time. -/
def escapes : Nat → Search → Option Search
  | 0, s => some s
  | n + 1, s => s.escape.bind (escapes n)

section Depth

variable {s t : Search}

theorem depth_of_nothing (hcurrent : s.current = none) (hhistory : s.history = []) :
    s.depth = 0 := by
  rw [depth, held, hcurrent, hhistory]
  rfl

/-- The result on the screen counts with its open lists. -/
theorem depth_of_current {r : Result} (h : s.current = some r) :
    s.depth = r.cursor.openLists + 1 + s.history.length
      + (s.history.map fun r => r.cursor.openLists).sum := by
  rw [depth, held, h, Option.toList_some, List.singleton_append, List.length_cons, List.map_cons,
    List.sum_cons]
  omega

/-- With nothing open the result on the screen counts once. -/
theorem depth_of_close_eq_none {r : Result} (h : s.current = some r) (hclose : s.close = none) :
    s.depth = s.history.length + (s.history.map fun r => r.cursor.openLists).sum + 1 := by
  have hnone : r.cursor.close? = none := by
    cases hcursor : r.cursor.close? with
    | none => rfl
    | some cursor =>
        have hsome : s.close = some { s with current := some { r with cursor } } := by
          rw [close, h]
          simp only [Option.bind_eq_bind, Option.bind_some, Result.closeList, hcursor,
            Option.map_some, Option.pure_def]
        exact absurd (hsome.symm.trans hclose) (Option.some_ne_none _)
  rw [depth_of_current h, Lookup.openLists_of_close?_eq_none hnone]
  omega

theorem depth_of_close (h : s.close = some t) : t.depth + 1 = s.depth := by
  cases moved_of_close h with
  | @closeList r closed hr hclosed =>
      rcases Option.map_eq_some_iff.mp hclosed with ⟨cursor, hcursor, rfl⟩
      have hfewer := Lookup.openLists_of_close? hcursor
      rw [depth_of_current hr, depth_of_current (s := { s with current := _ }) rfl]
      simp only
      omega

theorem depth_of_back {r : Result} (hr : s.current = some r) (hclose : s.close = none)
    (h : s.back = some t) : t.depth + 1 = s.depth := by
  cases moved_of_back h with
  | @back earlier rest hhistory =>
      rw [depth_of_close_eq_none hr hclose, hhistory,
        depth_of_current (s := { s with current := _, history := _ }) rfl, List.length_cons,
        List.map_cons, List.sum_cons]
      simp only
      omega

theorem depth_of_dismiss (hclose : s.close = none) (hback : s.back = none)
    (h : s.dismiss = some t) : t.depth + 1 = s.depth := by
  rcases cleared_of_dismiss h with ⟨r, hr, rfl⟩
  rw [depth_of_close_eq_none hr hclose, history_of_back_eq_none hback,
    depth_of_nothing rfl rfl]
  rfl

/-- Every press that is accepted lowers the count by one. -/
theorem depth_of_escape (hblank : s.current = none → s.history = []) (h : s.escape = some t) :
    t.depth + 1 = s.depth := by
  rcases cases_of_escape h with hclose | ⟨hclose, hback⟩ | ⟨hclose, hback, hdismiss⟩
  · exact depth_of_close hclose
  · cases hr : s.current with
    | some r => exact depth_of_back hr hclose hback
    -- Nothing to go back to from an empty screen.
    | none =>
        rcases returned_of_back hback with ⟨r, rest, hhistory, -⟩
        exact absurd (hhistory.symm.trans (hblank hr)) (List.cons_ne_nil r rest)
  · exact depth_of_dismiss hclose hback hdismiss

/-- Escape is refused on an empty screen and nowhere else. -/
theorem escape_eq_none_iff (hblank : s.current = none → s.history = []) :
    s.escape = none ↔ s.current = none := by
  constructor
  · intro h
    cases hr : s.current with
    | none => rfl
    -- Whatever is on the screen can be cleared.
    | some r =>
        rw [escape] at h
        cases hclose : s.close <;> cases hback : s.back <;>
          simp only [hclose, hback, dismiss, hr, Option.orElse_eq_orElse, Option.orElse_some,
            Option.orElse_none, reduceCtorEq] at h
  · intro h
    have hclose : s.close = none := by
      rw [close, h]
      rfl
    have hback : s.back = none := by
      rw [back, hblank h]
    have hdismiss : s.dismiss = none := by
      rw [dismiss, h]
    rw [escape, hclose, hback, hdismiss]
    rfl

theorem blank_of_escape (hblank : s.current = none → s.history = []) (h : s.escape = some t) :
    t.current = none → t.history = [] := by
  have hstep : s.run [.act .escape] = t := congrArg (Option.getD · s) h
  rw [← hstep]
  exact blank_run hblank _

theorem current_of_depth (hblank : s.current = none → s.history = []) :
    s.depth = 0 ↔ s.current = none := by
  constructor
  · intro h
    cases hr : s.current with
    | none => rfl
    | some r =>
        rw [depth_of_current hr] at h
        omega
  · intro h
    exact depth_of_nothing h (hblank h)

/-- As many presses as the count says empty the screen, and fewer do not. -/
theorem escapes_depth (hblank : s.current = none → s.history = []) (n : Nat) (hn : n ≤ s.depth) :
    ∃ t, s.escapes n = some t ∧ (t.current = none → t.history = []) ∧ t.depth + n = s.depth := by
  induction n generalizing s with
  | zero => exact ⟨s, rfl, hblank, rfl⟩
  | succ n ih =>
      cases hescape : s.escape with
      | none =>
          have hzero := (current_of_depth hblank).mpr ((escape_eq_none_iff hblank).mp hescape)
          omega
      | some u =>
          have hlower := depth_of_escape hblank hescape
          rcases ih (blank_of_escape hblank hescape) (by omega) with ⟨t, ht, htblank, hdepth⟩
          refine ⟨t, ?_, htblank, by omega⟩
          rw [escapes, hescape]
          exact ht

end Depth

/-- The way out, from wherever a search has come to. Escape is refused exactly
    when nothing is on the screen, and then nothing is left to count; each time
    that it is accepted it lowers the count by one. Pressed as often as the
    count says it empties the screen, and not before, and then it is refused. -/
theorem escape_leads_out (steps : List Step) :
    let s := initial.run steps
    (s.escape = none ↔ s.current = none) ∧ (s.current = none ↔ s.depth = 0) ∧
      (∀ t, s.escape = some t → t.depth + 1 = s.depth) ∧
      (∀ n < s.depth, ∃ t, s.escapes n = some t ∧ t.current ≠ none) ∧
      ∃ t, s.escapes s.depth = some t ∧ t.current = none ∧ t.history = [] ∧ t.escape = none := by
  intro s
  have hblank : s.current = none → s.history = [] := blank_run (fun _ => rfl) steps
  refine ⟨escape_eq_none_iff hblank, (current_of_depth hblank).symm,
    fun t => depth_of_escape hblank, fun n hn => ?_, ?_⟩
  · rcases escapes_depth hblank n hn.le with ⟨t, ht, htblank, hdepth⟩
    refine ⟨t, ht, fun hnone => ?_⟩
    have hzero := (current_of_depth htblank).mpr hnone
    omega
  · rcases escapes_depth hblank s.depth le_rfl with ⟨t, ht, htblank, hdepth⟩
    have hnone : t.current = none := (current_of_depth htblank).mp (by omega)
    exact ⟨t, ht, hnone, htblank hnone, (escape_eq_none_iff htblank).mpr hnone⟩

/-- An input is followed out of the open list of inputs. The list is still open
    when the way out comes back to it. -/
example :
    let tx : Lookup.ConfirmedTx := ⟨1, 4, "", none, 1, 0, [.spend "5a" 0], [], 0⟩
    let steps : List Step :=
      [.act (.submit true "7" .topLevel 0), .begin, .settle (.ok ⟨"7", .confirmed tx, .unset⟩),
        .act (.navigate 2), .act (.activate true 0), .act (.navigate 1), .act (.activate true 0)]
    let s := initial.run steps
    s.current = some (.searching "5a") ∧ s.depth = 3 ∧
      ((s.escapes 1).bind Search.current).bind Result.openList = some .inputs := by
  decide +kernel

end Search

end NodeWatch
