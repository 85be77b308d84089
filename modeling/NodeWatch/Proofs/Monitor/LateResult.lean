import NodeWatch.Proofs.Monitor.Acts

/-!
# Results That Come Late

While a lookup is under way the user can go back to an earlier result or clear
the screen, and what the lookup finds then comes late. What becomes of it
depends on when the screen was cleared and on how the lookup ends.

A result is put on the screen that the lookup was asking for, so it is not
seen any more once that screen was cleared. Going back does not clear the
screen: the result that was brought back is overwritten and lost. Neither does
clearing the screen before the lookup asks, because it asks for whatever
screen there is then. And a lookup that breaks down reports on the screen that
there is in the end. So of all that the user can do to get rid of a lookup,
one thing works: to clear the screen while it is asking, if it does not break
down.

## Theorems

* `settle_asking`: How a lookup that is asking ends.
* `settle_after_submit`: What a lookup leaves, whatever the user does before
  and while it asks, and when it leaves alone what the user has moved on to.
-/

namespace NodeWatch

namespace Search

open Lookup (Query Result)

variable {s t : Search}

/-- How a lookup that is asking ends. -/
theorem settle_asking {query : Query} {screen : Nat}
    (hw : s.worker = some (.asking query screen)) (result : Result) (message : Text) :
    s.settle (.ok result) = { s with
        current := if screen = s.screen then some result else s.current, worker := none } ∧
      s.settle (.error message) = { s with
        current := some (.failed query.text message), worker := none } := by
  unfold settle
  rw [hw]
  exact ⟨rfl, rfl⟩

/-- A lookup that waited asks for the screen that there is. -/
theorem begin_waiting {query : Query} (hw : s.worker = some (.waiting query)) :
    s.begin = { s with worker := some (.asking query s.screen) } := by
  unfold begin
  rw [hw]

/-- A search with another worker is left alone by an ending that only takes
    the worker away, and by no other. -/
theorem settled_eq_iff (current : Option Result) :
    { s with current := current, worker := none } = { s with worker := none } ↔
      current = s.current := by
  constructor
  · intro h
    exact congrArg Search.current h
  · rintro rfl
    rfl

/-- What a lookup leaves, whatever the user does before it asks and while it
    asks. The placeholder is on the screen at the end unless it was taken away.
    If it was, the lookup leaves everything but itself alone exactly when the
    screen was cleared while it asked, or when the screen shows what it puts
    there anyway; a lookup that breaks down does so only in the second case. -/
theorem settle_after_submit {running : Bool} {text : Text} {mode : Mode} {tip : Double}
    (h : s.submit running text mode tip = some t) (before during : List Act) :
    let asked := (t.after before).begin
    let last := asked.after during
    let gone := t.removed before || asked.removed during
    (∀ ending, (last.settle ending).history = last.history ∧
        (last.settle ending).busy = false) ∧
      (gone = false → last.current = some (.searching text)) ∧
      (∀ result, last.settle (.ok result) = { last with
        current := if asked.dismissed during then last.current else some result
        worker := none }) ∧
      (∀ message, last.settle (.error message) = { last with
        current := some (.failed text message), worker := none }) ∧
      (gone = true →
        (∀ result, last.settle (.ok result) = { last with worker := none } ↔
          asked.dismissed during = true ∨ last.current = some result) ∧
        ∀ message, last.settle (.error message) = { last with worker := none } ↔
          last.current = some (.failed text message)) := by
  intro asked last gone
  rcases begun_of_submit h with ⟨-, ht⟩
  -- The worker waits until it asks, and then asks until the end.
  have hwaiting : (t.after before).worker = some (.waiting ⟨text, Hex.isHeight text, tip⟩) :=
    after_worker (by rw [ht]) before
  have hbegin := begin_waiting hwaiting
  have hasked : asked.worker
      = some (.asking ⟨text, Hex.isHeight text, tip⟩ (t.after before).screen) := by
    rw [show asked = (t.after before).begin from rfl, hbegin]
  have hasking := after_worker hasked during
  have hscreen : asked.screen = (t.after before).screen := by
    rw [show asked = (t.after before).begin from rfl, hbegin]
  have hok : ∀ result, last.settle (.ok result) = { last with
      current := if asked.dismissed during then last.current else some result
      worker := none } := by
    intro result
    rw [(settle_asking hasking result []).1, ← hscreen]
    -- The screen that was asked for is still there unless it was cleared.
    by_cases hd : asked.dismissed during = true
    · have hne : asked.screen ≠ last.screen := by
        intro hc
        rw [(after_screen during).mp hc.symm] at hd
        exact absurd hd (by decide)
      rw [if_neg hne, if_pos hd]
    · have heq := (after_screen during).mpr (Bool.eq_false_iff.mpr hd)
      rw [if_pos heq.symm, if_neg hd]
  have herror : ∀ message, last.settle (.error message) = { last with
      current := some (.failed text message), worker := none } := by
    intro message
    exact (settle_asking hasking (.failed text message) message).2
  refine ⟨?_, ?_, hok, herror, ?_⟩
  · intro ending
    cases ending with
    | ok result =>
        rw [hok]
        exact ⟨rfl, rfl⟩
    | error message =>
        rw [herror]
        exact ⟨rfl, rfl⟩
  · intro hkept
    rw [Bool.or_eq_false_iff] at hkept
    have hsubmitted : t.worker = some (.waiting ⟨text, Hex.isHeight text, tip⟩) := by rw [ht]
    have hplaceholder := after_placeholder hsubmitted (by rw [ht]) before hkept.1
    refine after_placeholder hasked ?_ during hkept.2
    rw [show asked = (t.after before).begin from rfl, hbegin]
    exact hplaceholder
  · intro _
    refine ⟨fun result => ?_, fun message => ?_⟩
    · rw [hok, settled_eq_iff]
      by_cases hd : asked.dismissed during = true
      · rw [if_pos hd]
        exact ⟨fun _ => .inl hd, fun _ => rfl⟩
      · rw [if_neg hd]
        constructor
        · intro heq
          exact .inr heq.symm
        · rintro (hc | heq)
          · exact absurd hc hd
          · exact heq.symm
    · rw [herror, settled_eq_iff]
      exact eq_comm

/-- A lookup that was dismissed while it was asking is not seen any more. -/
theorem settle_after_dismiss :
    let t : Search := ⟨some (.searching "7"), [], 0, some (.waiting ⟨"7", true, 0⟩)⟩
    initial.submit true "7" .topLevel 0 = some t ∧
      (t.begin.after [.dismiss]).settle (.ok (.failed "7" "late"))
        = { t.begin.after [.dismiss] with worker := none } := by
  intro t
  have h : initial.submit true "7" .topLevel 0 = some t := by rfl
  exact ⟨h, ((settle_after_submit h [] [.dismiss]).2.2.2.2 (by decide)).1 _ |>.mpr
    (.inl (by decide))⟩

/-- A result that the user went back to is overwritten by a lookup that is
    still asking, and lost; and a lookup that breaks down is seen although it
    was dismissed. -/
theorem settle_overwrites_returned :
    let earlier : Result := .failed "1" "Method not found"
    let s : Search := { initial with current := some earlier }
    ∃ t, s.submit true "2" .drillDown 0 = some t ∧
      (t.begin.after [.back]).current = some earlier ∧
      ((t.begin.after [.back]).settle (.ok (.failed "2" "late"))).current
        = some (.failed "2" "late") ∧
      ((t.begin.after [.back]).settle (.ok (.failed "2" "late"))).history = [] ∧
      (t.begin.after [.dismiss]).current = none ∧
      ((t.begin.after [.dismiss]).settle (.error "late")).current = some (.failed "2" "late") := by
  intro earlier s
  exact ⟨_, rfl, by decide⟩

end Search

end NodeWatch
