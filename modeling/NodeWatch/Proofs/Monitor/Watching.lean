import NodeWatch.Proofs.Monitor.Events
import NodeWatch.Proofs.Monitor.LateResult
import NodeWatch.Proofs.Monitor.Polls
import NodeWatch.Simulation.World

/-!
# What a Listener Has Seen

The dashboard shows copies. It takes one of the snapshot and of the search when
it subscribes, and a new one each time it is called, so a change that is not
followed by a call is not seen before something else changes. A session makes
many kinds of changes, and it has to ask for a redraw after every one of them.

`notified_or_same` goes through the list of what can come of an event: either a
redraw is asked for, or what is shown stays as it is. There is one place where
this is not obvious. A poll writes its list of blocks, and the note of its
failure, without a word, and both are covered by the request that is made when
the poll is over. From there it is an invariant, `UpToDate`, that the latest
copy of a listener is right or a delivery is to come. A delivery keeps it
because it forgets the request before it calls anybody: what the listeners
themselves do may ask for the next one.

## Main definitions

* `Occurrence.Keeps`: What may happen to a session with a certain listener.
* `Session.Watched`: The latest copy that a listener has taken.
* `Session.UpToDate`: The copy is right, or a delivery is to come.

## Theorems

* `notified_or_same`: What is shown does not change without a request.
* `upToDate_of_watched`: The invariant holds at any time.
* `latest_copy`: When no delivery is to come the latest copy is right.
-/

namespace NodeWatch

namespace Monitor

namespace Session

open Simulation (View)

/-- What happens while a listener stays subscribed to a session that goes on,
    deliveries left out. -/
def Occurrence.Keeps (number : Nat) : Occurrence → Prop
  | .event .shutdown | .event .redraw => False
  | .unsubscribe other => other ≠ number
  | _ => True

/-- The latest copy that a listener has taken. The first one is of the session
    that it subscribed to, and later ones are taken whenever it is called. By
    then the listeners that are called before it may have done something. -/
inductive Watched (number : Nat) : Session → View → Prop where
  | subscribed (before : List Occurrence) (hrunning : (initial.after before).running = true)
      (hnumber : (initial.after before).redraw.next = number) :
      Watched number ((initial.after before).occur .subscribe).1 (.of (initial.after before))
  | happened {s : Session} {v : View} (h : Watched number s v) {o : Occurrence}
      (ho : o.Keeps number) : Watched number (s.occur o).1 v
  | delivered {s : Session} {v : View} (h : Watched number s v) (acts : List Occurrence)
      (hacts : ∀ o ∈ acts, o.Keeps number) :
      Watched number (s.deliver.2.after acts)
        (if number ∈ s.deliver.1 then .of (s.deliver.2.after acts) else v)

/-- The listener is there, and its copy is right or a delivery is to come. -/
structure UpToDate (number : Nat) (s : Session) (v : View) : Prop where
  listening : number ∈ s.redraw.listeners.map (·.1)
  opened : s.redraw.closed = false
  inStep : s.redraw.InStep
  shown : s.redraw.scheduled = true ∨ v = .of s

section Step

variable {s t : Session} {v : View} {number : Nat}

/-- Whatever changes what is shown is followed by a request for a redraw. -/
theorem notified_or_same {event : Event} {requests : List Request}
    (h : Stepped s event t requests) (hshutdown : event ≠ .shutdown) (hredraw : event ≠ .redraw) :
    t.redraw = s.redraw.notify ∨ (t.redraw = s.redraw ∧ View.of t = View.of s) := by
  cases h with
  | @pollAsked poll next answer now snapshot redraw hpoller hnext =>
      cases redraw with
      | true => exact .inl rfl
      -- An answer without a request was kept by the poll and not written yet.
      | false =>
          rw [Poll.snapshot_of_quiet hnext]
          exact .inr ⟨rfl, rfl⟩
  -- A lookup that begins to ask is not shown any differently.
  | lookupBegun hworker hbegin =>
      rw [Search.begin_waiting hworker]
      exact .inr ⟨rfl, rfl⟩
  | stopped => exact absurd rfl hshutdown
  | delivered => exact absurd rfl hredraw
  | started | pollBegun | pollOver | slid | lookupSubmitted | operated | lookupFound
  | lookupBroken => exact .inl rfl
  | _ => exact .inr ⟨rfl, rfl⟩

/-- An event other than a delivery. -/
theorem upToDate_of_event (h : UpToDate number s v) {event : Event}
    (hevent : (Occurrence.event event).Keeps number) : UpToDate number (s.step event).1 v := by
  have hshutdown : event ≠ .shutdown := by
    rintro rfl
    exact hevent
  have hredraw : event ≠ .redraw := by
    rintro rfl
    exact hevent
  rcases h with ⟨hlistening, hopen, hinStep, hshown⟩
  have hnext := inStep_of_stepped (stepped event) hinStep
  rcases notified_or_same (stepped event) hshutdown hredraw with hnotified | ⟨hsame, hview⟩
  · rcases Redraw.notify_of_open hopen with ⟨callbacks, hopened⟩
    rw [hopened] at hnotified
    refine ⟨?_, ?_, hnext, .inl ?_⟩
    · rw [hnotified]
      exact hlistening
    · rw [hnotified]
      exact hopen
    · rw [hnotified]
  · refine ⟨?_, ?_, hnext, ?_⟩
    · rw [hsame]
      exact hlistening
    · rw [hsame]
      exact hopen
    · rw [hsame, hview]
      exact hshown

theorem upToDate_of_keeps (h : UpToDate number s v) {o : Occurrence} (ho : o.Keeps number) :
    UpToDate number (s.occur o).1 v := by
  cases o with
  | event event => exact upToDate_of_event h ho
  | subscribe =>
      refine ⟨?_, h.opened, h.inStep, h.shown⟩
      change number ∈ (s.redraw.listeners ++ [(s.redraw.next, ())]).map (·.1)
      rw [List.map_append]
      exact List.mem_append_left _ h.listening
  | unsubscribe other =>
      refine ⟨?_, h.opened, h.inStep, h.shown⟩
      change number ∈ (s.redraw.listeners.filter (·.1 ≠ other)).map (·.1)
      rcases List.mem_map.mp h.listening with ⟨listener, hmem, hlistener⟩
      refine List.mem_map.mpr ⟨listener, List.mem_filter.mpr ⟨hmem, ?_⟩, hlistener⟩
      rw [hlistener]
      exact decide_eq_true (Ne.symm ho)

theorem upToDate_after (h : UpToDate number s v) {acts : List Occurrence}
    (hacts : ∀ o ∈ acts, o.Keeps number) : UpToDate number (s.after acts) v := by
  induction acts generalizing s with
  | nil => exact h
  | cons o rest ih =>
      have hone := upToDate_of_keeps h (hacts o List.mem_cons_self)
      exact ih hone fun o' ho' => hacts o' (List.mem_cons_of_mem o ho')

/-- A delivery. If one was to come it calls the listener, and what is still to
    come after it was asked for by the listeners themselves. -/
theorem upToDate_of_delivered (h : UpToDate number s v) {acts : List Occurrence}
    (hacts : ∀ o ∈ acts, o.Keeps number) :
    UpToDate number (s.deliver.2.after acts)
      (if number ∈ s.deliver.1 then .of (s.deliver.2.after acts) else v) := by
  cases hscheduled : s.redraw.scheduled with
  | true =>
      have hdeliver : s.deliver = (s.redraw.listeners.map (·.1),
          { s with redraw := { s.redraw with scheduled := false, callbacks := 0 } }) := by
        unfold deliver
        rw [Redraw.deliver_of_scheduled h.inStep hscheduled,
          if_neg (Bool.eq_false_iff.mp h.opened)]
      have hcalled : number ∈ s.deliver.1 := by
        rw [hdeliver]
        exact h.listening
      have hstart : UpToDate number s.deliver.2 (.of s.deliver.2) := by
        rw [hdeliver]
        exact ⟨h.listening, h.opened, rfl, .inr rfl⟩
      have hend := upToDate_after hstart hacts
      rw [if_pos hcalled]
      exact ⟨hend.listening, hend.opened, hend.inStep, .inr rfl⟩
  | false =>
      have hdeliver : s.deliver = ([], s) := by
        unfold deliver
        rw [Redraw.deliver_of_quiet h.inStep hscheduled]
        rfl
      rw [hdeliver, if_neg List.not_mem_nil]
      exact upToDate_after h hacts

end Step

section Runs

variable {s : Session} {v : View} {number : Nat}

/-- At any time the latest copy is right or a delivery is to come. -/
theorem upToDate_of_watched (h : Watched number s v) : UpToDate number s v := by
  induction h with
  | subscribed before hrunning hnumber =>
      have hclosed := closed_after before
      rw [hrunning] at hclosed
      refine ⟨?_, hclosed, inStep_after before, .inr rfl⟩
      change number ∈ ((initial.after before).redraw.listeners
        ++ [((initial.after before).redraw.next, ())]).map (·.1)
      rw [List.map_append, hnumber]
      exact List.mem_append_right _ (List.mem_singleton_self number)
  | happened _ ho ih => exact upToDate_of_keeps ih ho
  | delivered _ acts hacts ih => exact upToDate_of_delivered ih hacts

/-- No change is missed: when no delivery is to come, what a listener saw last
    is what there is. -/
theorem latest_copy (h : Watched number s v) (hquiet : s.redraw.scheduled = false) :
    v = .of s := by
  rcases (upToDate_of_watched h).shown with hscheduled | hview
  · rw [hquiet] at hscheduled
    exact absurd hscheduled Bool.false_ne_true
  · exact hview

/-- A listener that subscribes before the start sees that the first poll has
    begun. -/
theorem latest_copy_started :
    ∃ s v, Watched 0 s v ∧ s.redraw.scheduled = false ∧ v = .of s ∧
      v.snapshot.status.refreshing = true := by
  have hsubscribed : Watched 0 _ _ := Watched.subscribed [] rfl rfl
  have hstarted := hsubscribed.happened (o := .event .start) trivial
  have hdelivered := hstarted.delivered [] (fun o ho => absurd ho List.not_mem_nil)
  exact ⟨_, _, hdelivered, rfl, latest_copy hdelivered rfl, rfl⟩

end Runs

end Session

end Monitor

end NodeWatch
