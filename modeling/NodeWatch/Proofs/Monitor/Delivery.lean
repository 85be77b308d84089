import NodeWatch.Proofs.Monitor.Events
import Mathlib.Data.List.Nodup

/-!
# When Delivery Stops

Closing redraw requests, or unsubscribing a listener, is meant to be the last
that the listeners hear of them. Between two deliveries that is so. Within a
delivery it is not: who is called was settled when the delivery began, so
those that it has not come to yet are still called, whatever the listeners
before them did.

A listener is arbitrary code, and nothing can be said about what it does when
it is called. So a run does not contain the listeners' code. It is a sequence
of events, and what happens between one call and the next is what the listener
did. All the state that such a run needs besides the requests is the list of
those who wait to be called. It is the whole difference between the two cases:
what is called after a stop is exactly what waits at that time.

A listener may subscribe again after it was unsubscribed, under the number
that it had. That is the only way back.

## Main definitions

* `Act`, `act`: What listeners and others do to redraw requests.
* `Event`, `Run`: Requests with the listeners that wait to be called.
* `Run.after`, `Run.called`: What a sequence of events leaves, and who is called.
* `Numbered`: Every number belongs to one listener.

## Theorems

* `called_of_closed`: Closed requests call those who wait and nobody else.
* `count_called_le`: So do listeners that were unsubscribed.
* `stops_unless_waiting`: Delivery stops for good unless somebody waits.
* `exists_run_of_turn`: A turn in which listeners act is such a run.
-/

namespace NodeWatch

namespace Redraw

variable {α : Type}

/-- What a listener, or anybody else, does to redraw requests. -/
inductive Act (α : Type) where
  | subscribe (listener : α)
  | resubscribe (number : Nat) (listener : α)
  | unsubscribe (number : Nat)
  | notify
  | close

def act (r : Redraw α) : Act α → Redraw α
  | .subscribe listener => r.subscribe listener
  | .resubscribe number listener => r.resubscribe number listener
  | .unsubscribe number => r.unsubscribe number
  | .notify => r.notify
  | .close => r.close

/-- What happens in a run. The acts behind a call are those of the listener
    that is called, or come after the delivery. -/
inductive Event (α : Type) where
  | act (a : Act α)
  /-- The delivery that is scheduled begins. -/
  | turn
  /-- The delivery goes on to its next listener. -/
  | call

/-- Redraw requests, and the listeners that the delivery under way has still
    to call. -/
structure Run (α : Type) where
  redraw : Redraw α
  waiting : List (Nat × α)

namespace Run

/-- Nobody listens and no delivery is under way. -/
def start : Run α := ⟨.empty, []⟩

/-- The effect of an event. No delivery begins before the last one is over. -/
def step (r : Run α) : Event α → Run α
  | .act a => { r with redraw := r.redraw.act a }
  | .turn => if r.waiting.isEmpty then ⟨r.redraw.deliver.2, r.redraw.deliver.1⟩ else r
  | .call => { r with waiting := r.waiting.tail }

/-- The listener that an event calls, if it calls one. -/
def calls (r : Run α) : Event α → List (Nat × α)
  | .call => r.waiting.take 1
  | _ => []

def after (r : Run α) : List (Event α) → Run α
  | [] => r
  | e :: rest => (r.step e).after rest

/-- The listeners that are called in a sequence of events, with their numbers. -/
def called (r : Run α) : List (Event α) → List (Nat × α)
  | [] => []
  | e :: rest => r.calls e ++ (r.step e).called rest

end Run

/-- No listener subscribes again under a number. -/
def NotAgain (n : Nat) (events : List (Event α)) : Prop :=
  ∀ listener, .act (.resubscribe n listener) ∉ events

/-! ### Numbers -/

/-- A number was given to a listener that is not subscribed any more. -/
def Gone (n : Nat) (r : Redraw α) : Prop := n < r.next ∧ n ∉ r.listeners.map Prod.fst

/-- Every number belongs to one listener, and later numbers to nobody. -/
structure Numbered (r : Run α) : Prop where
  listening : (r.redraw.listeners.map Prod.fst).Nodup
  waiting : (r.waiting.map Prod.fst).Nodup
  below : ∀ l ∈ r.redraw.listeners, l.1 < r.redraw.next

/-- What an act leaves of the listeners. -/
inductive Acted (r : Redraw α) : Act α → Redraw α → Prop where
  | added {listener : α} : Acted r (.subscribe listener) { r with
      listeners := r.listeners ++ [(r.next, listener)]
      next := r.next + 1 }
  | returned {n : Nat} {listener : α} (hgone : Gone n r) :
      Acted r (.resubscribe n listener) { r with listeners := r.listeners ++ [(n, listener)] }
  | dropped {n : Nat} :
      Acted r (.unsubscribe n) { r with listeners := r.listeners.filter (·.1 ≠ n) }
  | kept {a : Act α} {scheduled : Bool} {callbacks : Nat} :
      Acted r a { r with scheduled, callbacks }
  | closed : Acted r .close { r with closed := true, listeners := [] }

section Acts

variable {r s : Redraw α} {a : Act α}

theorem acted_of_act (r : Redraw α) (a : Act α) : Acted r a (r.act a) := by
  cases a with
  | subscribe listener => exact Acted.added
  | resubscribe n listener =>
      simp only [act, resubscribe]
      by_cases hgone : n < r.next ∧ n ∉ r.listeners.map (·.1)
      · rw [if_pos hgone]
        exact Acted.returned hgone
      · rw [if_neg hgone]
        exact Acted.kept
  | unsubscribe n => exact Acted.dropped
  | notify =>
      simp only [act, notify]
      split
      · exact Acted.kept
      · exact Acted.kept
  | close => exact Acted.closed

/-- Only who subscribes again comes back. -/
theorem Gone.acted {n : Nat} (hn : Gone n r) (h : Acted r a s)
    (hagain : ∀ listener, a ≠ .resubscribe n listener) : Gone n s := by
  rcases hn with ⟨hlt, hnot⟩
  cases h with
  | added =>
      refine ⟨Nat.lt_succ_of_lt hlt, ?_⟩
      rw [List.map_append, List.mem_append, not_or]
      exact ⟨hnot, fun hmem => absurd (List.mem_singleton.mp hmem) (Nat.ne_of_lt hlt)⟩
  | @returned m listener hgone =>
      have hne : n ≠ m := by
        rintro rfl
        exact hagain listener rfl
      refine ⟨hlt, ?_⟩
      rw [List.map_append, List.mem_append, not_or]
      exact ⟨hnot, fun hmem => hne (List.mem_singleton.mp hmem)⟩
  | dropped =>
      refine ⟨hlt, fun hmem => hnot ?_⟩
      exact (List.filter_sublist.map Prod.fst).subset hmem
  | kept => exact ⟨hlt, hnot⟩
  | closed => exact ⟨hlt, List.not_mem_nil⟩

theorem closed_of_acted (h : Acted r a s) (hclosed : r.closed = true) : s.closed = true := by
  cases h with
  | closed => rfl
  | _ => exact hclosed

theorem gone_of_unsubscribe {n : Nat} (hn : n < r.next) : Gone n (r.act (.unsubscribe n)) := by
  refine ⟨hn, fun hmem => ?_⟩
  rcases List.mem_map.mp hmem with ⟨l, hl, hln⟩
  exact absurd hln (of_decide_eq_true (List.mem_filter.mp hl).2)

theorem Numbered.acted {waiting : List (Nat × α)} (hr : Numbered ⟨r, waiting⟩)
    (h : Acted r a s) : Numbered ⟨s, waiting⟩ := by
  rcases hr with ⟨hlistening, hwaiting, hbelow⟩
  -- A listener that is added brings a number that none of the others has.
  have hadd : ∀ n listener, n ∉ r.listeners.map Prod.fst →
      ((r.listeners ++ [(n, listener)]).map Prod.fst).Nodup := by
    intro n listener hnot
    rw [List.map_append]
    refine List.nodup_append.mpr ⟨hlistening, List.nodup_singleton n, fun m hm k hk => ?_⟩
    have hkn : k = n := List.mem_singleton.mp hk
    rw [hkn]
    rintro rfl
    exact hnot hm
  cases h with
  | added =>
      refine ⟨hadd _ _ fun hmem => ?_, hwaiting, ?_⟩
      · rcases List.mem_map.mp hmem with ⟨l, hl, hln⟩
        exact absurd hln (Nat.ne_of_lt (hbelow l hl))
      · rw [List.forall_mem_append]
        exact ⟨fun l hl => Nat.lt_succ_of_lt (hbelow l hl),
          List.forall_mem_singleton.mpr (Nat.lt_succ_self _)⟩
  | returned hgone =>
      refine ⟨hadd _ _ hgone.2, hwaiting, ?_⟩
      rw [List.forall_mem_append]
      exact ⟨hbelow, List.forall_mem_singleton.mpr hgone.1⟩
  | dropped =>
      exact ⟨hlistening.sublist (List.filter_sublist.map Prod.fst), hwaiting,
        fun l hl => hbelow l (List.mem_filter.mp hl).1⟩
  | kept => exact ⟨hlistening, hwaiting, hbelow⟩
  | closed => exact ⟨List.nodup_nil, hwaiting, fun l hl => absurd hl List.not_mem_nil⟩

end Acts

/-! ### Events -/

section Events

variable {r : Run α}

/-- A delivery calls listeners that are subscribed, and changes none of them. -/
theorem deliver_sublist (r : Redraw α) : r.deliver.1.Sublist r.listeners ∧
    r.deliver.2.listeners = r.listeners ∧ r.deliver.2.next = r.next := by
  unfold deliver
  split
  · exact ⟨List.nil_sublist _, rfl, rfl⟩
  · refine ⟨?_, rfl, rfl⟩
    split
    · exact List.nil_sublist _
    · exact List.Sublist.refl _

theorem step_turn_of_waiting (h : r.waiting ≠ []) : r.step .turn = r := by
  unfold Run.step
  rw [if_neg (mt List.isEmpty_iff.mp h)]

theorem step_turn_of_idle (h : r.waiting = []) :
    r.step .turn = ⟨r.redraw.deliver.2, r.redraw.deliver.1⟩ := by
  unfold Run.step
  rw [if_pos (List.isEmpty_iff.mpr h)]

theorem numbered_step (hr : Numbered r) (e : Event α) : Numbered (r.step e) := by
  cases e with
  | act a => exact hr.acted (acted_of_act r.redraw a)
  | turn =>
      by_cases hidle : r.waiting = []
      · obtain ⟨hsub, hlisteners, hnext⟩ := deliver_sublist r.redraw
        rw [step_turn_of_idle hidle]
        refine ⟨?_, hr.listening.sublist (hsub.map Prod.fst), ?_⟩
        · rw [hlisteners]
          exact hr.listening
        · rw [hlisteners, hnext]
          exact hr.below
      · rw [step_turn_of_waiting hidle]
        exact hr
  | call =>
      exact ⟨hr.listening, hr.waiting.sublist (r.waiting.tail_sublist.map Prod.fst), hr.below⟩

theorem numbered_after (hr : Numbered r) (events : List (Event α)) :
    Numbered (r.after events) := by
  induction events generalizing r with
  | nil => exact hr
  | cons e rest ih => exact ih (numbered_step hr e)

theorem numbered_start : Numbered (Run.start : Run α) :=
  ⟨List.nodup_nil, List.nodup_nil, fun _ hl => absurd hl List.not_mem_nil⟩

/-- A delivery that goes on calls all who wait. -/
theorem called_replicate (r : Run α) :
    r.called (List.replicate r.waiting.length .call) = r.waiting := by
  rcases r with ⟨redraw, waiting⟩
  induction waiting with
  | nil => rfl
  | cons l rest ih => exact congrArg (l :: ·) ih

/-- Closed requests call those who wait, in order, and nobody else. -/
theorem called_of_closed (hclosed : r.redraw.closed = true) (later : List (Event α)) :
    r.called later <+: r.waiting := by
  induction later generalizing r with
  | nil => exact List.nil_prefix
  | cons e rest ih =>
      cases e with
      | act a => exact ih (closed_of_acted (acted_of_act r.redraw a) hclosed)
      | turn =>
          by_cases hidle : r.waiting = []
          -- The delivery that begins has nobody to call.
          · have hrest := ih (r := r.step .turn)
            rw [step_turn_of_idle hidle, deliver_closed, deliver_of_closed hclosed] at hrest
            have hnil := List.prefix_nil.mp (hrest hclosed)
            change (r.step .turn).called rest <+: r.waiting
            rw [step_turn_of_idle hidle, deliver_of_closed hclosed, hnil]
            exact List.nil_prefix
          · change (r.step .turn).called rest <+: r.waiting
            rw [step_turn_of_waiting hidle]
            exact ih hclosed
      | call =>
          have hrest := ih (r := r.step .call) hclosed
          rcases r with ⟨redraw, waiting⟩
          cases waiting with
          | nil => exact hrest
          | cons l rest' => exact List.cons_prefix_cons.mpr ⟨rfl, hrest⟩

/-- Listeners that were unsubscribed are called as often as they wait, unless
    they subscribe again. -/
theorem count_called_le {n : Nat} (hgone : Gone n r.redraw) {later : List (Event α)}
    (hagain : NotAgain n later) :
    ((r.called later).map Prod.fst).count n ≤ (r.waiting.map Prod.fst).count n := by
  induction later generalizing r with
  | nil => exact Nat.zero_le _
  | cons e rest ih =>
      have hrest : NotAgain n rest := fun l hl => hagain l (List.mem_cons_of_mem _ hl)
      cases e with
      | act a =>
          have hstill : Gone n (r.redraw.act a) := by
            refine hgone.acted (acted_of_act r.redraw a) fun l hl => hagain l ?_
            rw [hl]
            exact List.mem_cons_self
          exact ih (r := r.step (.act a)) hstill hrest
      | turn =>
          have hturn : r.called (.turn :: rest) = (r.step .turn).called rest := rfl
          rw [hturn]
          by_cases hidle : r.waiting = []
          -- Nobody calls a listener that is not subscribed.
          · obtain ⟨hsub, hlisteners, hnext⟩ := deliver_sublist r.redraw
            have hnot : n ∉ r.redraw.deliver.1.map Prod.fst := fun hmem =>
              hgone.2 ((hsub.map Prod.fst).subset hmem)
            have hstill : Gone n r.redraw.deliver.2 := by
              refine ⟨?_, ?_⟩
              · rw [hnext]
                exact hgone.1
              · rw [hlisteners]
                exact hgone.2
            have hcount := ih (r := ⟨r.redraw.deliver.2, r.redraw.deliver.1⟩) hstill hrest
            rw [List.count_eq_zero_of_not_mem hnot] at hcount
            rw [step_turn_of_idle hidle]
            exact Nat.le_trans hcount (Nat.zero_le _)
          · rw [step_turn_of_waiting hidle]
            exact ih hgone hrest
      | call =>
          have hcount := ih (r := r.step .call) hgone hrest
          rcases r with ⟨redraw, waiting⟩
          cases waiting with
          | nil => exact hcount
          | cons l rest' =>
              simp only [Run.called, Run.calls, Run.step, List.take_succ_cons, List.take_zero,
                List.tail_cons, List.cons_append, List.nil_append, List.map_cons,
                List.count_cons] at hcount ⊢
              omega

end Events

/-! ### Stopping -/

/-- Delivery stops for good unless somebody waits to be called. Once requests
    are closed, the listeners that are called are those who waited then, in
    their order and until the delivery that was under way is over. Once a
    listener is unsubscribed it is called once at most, and not at all if it
    did not wait; it comes back only by subscribing again. Both hold after any
    run, whatever follows, and nobody who waits is spared for certain. -/
theorem stops_unless_waiting (before : List (Event α)) :
    let r : Run α := Run.start.after before
    (∀ later, (r.step (.act .close)).called later <+: r.waiting) ∧
      ((∀ later, (r.step (.act .close)).called later = []) ↔ r.waiting = []) ∧
      ∀ n < r.redraw.next,
        (∀ later, NotAgain n later →
          (((r.step (.act (.unsubscribe n))).called later).map Prod.fst).count n ≤ 1) ∧
        ((∀ later, NotAgain n later →
            n ∉ ((r.step (.act (.unsubscribe n))).called later).map Prod.fst) ↔
          n ∉ r.waiting.map Prod.fst) := by
  intro r
  have hr : Numbered r := numbered_after numbered_start before
  refine ⟨called_of_closed rfl, ⟨fun h => ?_, fun h later => ?_⟩, fun n hn => ⟨?_, ?_⟩⟩
  -- Who waits is called if the delivery simply goes on.
  · exact (called_replicate (r.step (.act .close))).symm.trans (h _)
  · have hprefix := called_of_closed (r := r.step (.act .close)) rfl later
    exact List.prefix_nil.mp (h ▸ hprefix)
  · intro later hagain
    have hcount := count_called_le (r := r.step (.act (.unsubscribe n)))
      (gone_of_unsubscribe hn) hagain
    exact Nat.le_trans hcount (List.nodup_iff_count_le_one.mp hr.waiting n)
  · constructor
    · intro h hmem
      refine h (List.replicate r.waiting.length .call) ?_ ?_
      · intro listener hl
        exact absurd (List.eq_of_mem_replicate hl) (by simp only [reduceCtorEq,
          not_false_eq_true])
      · rw [show r.waiting.length = (r.step (.act (.unsubscribe n))).waiting.length from rfl,
          called_replicate]
        exact hmem
    · intro hnot later hagain
      have hcount := count_called_le (r := r.step (.act (.unsubscribe n)))
        (gone_of_unsubscribe hn) hagain
      have hzero : (r.waiting.map Prod.fst).count n = 0 := List.count_eq_zero_of_not_mem hnot
      exact List.count_eq_zero.mp (Nat.le_zero.mp (hzero ▸ hcount))

/-- A listener that unsubscribes while it is called is not called again. -/
theorem stops_unless_waiting_itself :
    let before : List (Event Text) := [.act (.subscribe "a"), .act .notify, .turn, .call]
    let r := Run.start.after before
    0 < r.redraw.next ∧ 0 ∉ r.waiting.map Prod.fst ∧
      ∀ later, NotAgain 0 later →
        0 ∉ ((r.step (.act (.unsubscribe 0))).called later).map Prod.fst := by
  intro before r
  have hn : 0 < r.redraw.next := by decide
  have hwaiting : 0 ∉ r.waiting.map Prod.fst := by decide
  exact ⟨hn, hwaiting, ((stops_unless_waiting before).2.2 0 hn).2.mpr hwaiting⟩

/-- A listener that waits is called after the requests were closed, and after
    it was unsubscribed. -/
theorem called_after_stop :
    let before : List (Event Text) :=
      [.act (.subscribe "a"), .act (.subscribe "b"), .act .notify, .turn, .call]
    let r := Run.start.after before
    (r.step (.act .close)).redraw.closed = true ∧
      (r.step (.act .close)).called [.call] = [(1, ("b" : Text))] ∧
      (r.step (.act (.unsubscribe 1))).redraw.listeners = [(0, ("a" : Text))] ∧
      (r.step (.act (.unsubscribe 1))).called [.call] = [(1, ("b" : Text))] := by
  decide

/-! ### Listeners with a script -/

section Scripts

/-- The steps of a listener are acts, which call nobody. -/
theorem exists_acts_of_steps (s : Script) (steps : List Step) (waiting : List (Nat × Listener)) :
    ∃ acts : List (Act Listener),
      (Run.mk s.redraw waiting).after (acts.map .act) = ⟨(s.steps steps).redraw, waiting⟩ ∧
        (Run.mk s.redraw waiting).called (acts.map .act) = [] := by
  induction steps generalizing s with
  | nil => exact ⟨[], rfl, rfl⟩
  | cons step rest ih =>
      rcases ih (s.step step) with ⟨acts, hafter, hcalled⟩
      cases step with
      | subscribe name steps => exact ⟨.subscribe ⟨name, steps⟩ :: acts, hafter, hcalled⟩
      | unsubscribe name =>
          cases hnumber : s.numbers.lookup name with
          -- There is no such subscription, and nothing is done.
          | none =>
              have hstep : s.step (.unsubscribe name) = s := by simp only [Script.step, hnumber]
              rw [hstep] at hafter hcalled
              refine ⟨acts, ?_, hcalled⟩
              rw [hafter, Script.steps, Script.steps, List.foldl_cons, hstep]
          | some number =>
              have hstep : s.step (.unsubscribe name)
                  = { s with redraw := s.redraw.unsubscribe number } := by
                simp only [Script.step, hnumber]
              rw [hstep] at hafter hcalled
              refine ⟨.unsubscribe number :: acts, ?_, hcalled⟩
              rw [Script.steps, List.foldl_cons, hstep]
              exact hafter
      | notify => exact ⟨.notify :: acts, hafter, hcalled⟩
      | close => exact ⟨.close :: acts, hafter, hcalled⟩

theorem after_append (r : Run α) (events later : List (Event α)) :
    r.after (events ++ later) = (r.after events).after later := by
  induction events generalizing r with
  | nil => rfl
  | cons e rest ih => exact ih (r.step e)

theorem called_append (r : Run α) (events later : List (Event α)) :
    r.called (events ++ later) = r.called events ++ (r.after events).called later := by
  induction events generalizing r with
  | nil => rfl
  | cons e rest ih =>
      rw [List.cons_append, Run.called, Run.called, ih, List.append_assoc]
      rfl

/-- A delivery calls its listeners one after the other, each with its steps. -/
theorem exists_run_of_calls (s : Script) (waiting : List (Nat × Listener)) :
    ∃ events, (Run.mk s.redraw waiting).called events = waiting ∧
      (Run.mk s.redraw waiting).after events
        = ⟨(waiting.foldl (fun s c => s.steps c.2.steps) s).redraw, []⟩ := by
  induction waiting generalizing s with
  | nil => exact ⟨[], rfl, rfl⟩
  | cons l rest ih =>
      rcases exists_acts_of_steps s l.2.steps rest with ⟨acts, hacts, hsilent⟩
      rcases ih (s.steps l.2.steps) with ⟨events, hcalled, hafter⟩
      refine ⟨.call :: (acts.map .act ++ events), ?_, ?_⟩
      · change l :: (Run.mk s.redraw rest).called (acts.map .act ++ events) = l :: rest
        rw [called_append, hsilent, hacts, hcalled, List.nil_append]
      · change (Run.mk s.redraw rest).after (acts.map .act ++ events) = _
        rw [after_append, hacts, hafter, List.foldl_cons]

/-- A turn in which listeners act is a run that calls them. -/
theorem exists_run_of_turn (s : Script) :
    ∃ events, ((Run.mk s.redraw []).called events).map (·.2.name) = s.turn.1 ∧
      (Run.mk s.redraw []).after events = ⟨s.turn.2.redraw, []⟩ := by
  rcases exists_run_of_calls { s with redraw := s.redraw.deliver.2 } s.redraw.deliver.1 with
    ⟨events, hcalled, hafter⟩
  exact ⟨.turn :: events, congrArg (List.map (·.2.name)) hcalled, hafter⟩

/-- The first of three listeners drops the second and closes the requests. -/
example :
    let s := Script.empty.steps [.subscribe "a" [.unsubscribe "b", .close], .subscribe "b" [],
      .subscribe "c" [], .notify]
    s.turn.1 = ["a", "b", "c"] ∧ (s.turn.2.steps [.notify]).turn.1 = [] := by
  decide

end Scripts

end Redraw

end NodeWatch
