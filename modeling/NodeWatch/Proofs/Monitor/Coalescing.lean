import NodeWatch.Proofs.Monitor.Delivery
import Mathlib.Data.List.Induction

/-!
# One Delivery for Any Number of Requests

Requests for a redraw are made whenever something has changed, often many in
one turn, and the listeners are to be called once for all of them. Nothing must
be lost by that. A request that a listener makes while it is called may concern
a change that the listeners before it have not seen, so it must not count as
one of those that the delivery under way is for.

A request hands a callback to a later turn and notes in a flag that it did.
One that finds the flag set hands over nothing. So the flag has to be in step
with the callbacks that wait, and it is so after every event, `inStep_after`. It
is cleared when a delivery begins, before anybody is called, and this is the
whole point: from then on requests are for the next delivery. A run of events
has the calls of a delivery and what the listeners do between them, so clearing
the flag any later would make a difference that can be seen.

The order of the calls is that of the subscriptions. One listener is before
another if it has been subscribed since a time when the other one was not.

## Main definitions

* `Run.begins`, `Run.begun`: A delivery begins, and how often one does.
* `Earlier`: One listener was subscribed before another.
* `Extended`: What an event makes of the numbers of the listeners.

## Theorems

* `inStep_after`: The flag is in step with the callbacks.
* `scheduled_of_begun_eq_zero`: Nothing but a delivery answers a request.
* `begun_of_quiet`: Without a request there is no delivery.
* `called_eq_take`: Who is called in a delivery, whatever the listeners do.
* `earlier_listeners`: The listeners are in the order of their subscriptions.
* `delivered_once`: Every request is followed by one delivery.
-/

namespace NodeWatch

namespace Redraw

variable {α : Type}

/-- A listener is called. -/
def Event.isCall : Event α → Bool
  | .call => true
  | _ => false

namespace Run

/-- The numbers of the listeners that are subscribed. -/
def numbers (r : Run α) : List Nat := r.redraw.listeners.map Prod.fst

/-- A delivery begins: a callback runs. -/
def begins (r : Run α) : Event α → Bool
  | .turn => r.waiting.isEmpty && decide (0 < r.redraw.callbacks)
  | _ => false

/-- How many deliveries begin in a sequence of events. -/
def begun (r : Run α) : List (Event α) → Nat
  | [] => 0
  | e :: rest => (r.begins e).toNat + (r.step e).begun rest

end Run

/-- One listener has been subscribed since a time when another one was not. -/
def Earlier (events : List (Event α)) (a b : Nat) : Prop :=
  ∃ early late, events = early ++ late ∧ b ∉ (Run.start.after early).numbers ∧
    ∀ part, part <+: late → a ∈ (Run.start.after (early ++ part)).numbers

/-! ### The flag -/

section Flag

variable {r : Run α}

/-- Only a request schedules a delivery or hands over a callback. -/
theorem act_of_ne {s : Redraw α} {a : Act α} (ha : a ≠ .notify) :
    (s.act a).scheduled = s.scheduled ∧ (s.act a).callbacks = s.callbacks := by
  cases a with
  | notify => exact absurd rfl ha
  | resubscribe number listener =>
      simp only [act, resubscribe]
      split <;> exact ⟨rfl, rfl⟩
  | subscribe | unsubscribe | close => exact ⟨rfl, rfl⟩

theorem InStep.act {s : Redraw α} (h : s.InStep) (a : Act α) : (s.act a).InStep := by
  by_cases ha : a = .notify
  · rw [ha]
    exact h.notify
  · rw [InStep, (act_of_ne ha).1, (act_of_ne ha).2]
    exact h

theorem inStep_step (h : r.redraw.InStep) (e : Event α) : (r.step e).redraw.InStep := by
  cases e with
  | act a => exact h.act a
  | call => exact h
  | turn =>
      by_cases hidle : r.waiting = []
      · rw [step_turn_of_idle hidle]
        exact h.deliver
      · rw [step_turn_of_waiting hidle]
        exact h

/-- The flag is in step with the callbacks after any run. -/
theorem inStep_after (h : r.redraw.InStep) (events : List (Event α)) :
    (r.after events).redraw.InStep := by
  induction events generalizing r with
  | nil => exact h
  | cons e rest ih => exact ih (inStep_step h e)

theorem scheduled_notify (s : Redraw α) (h : s.closed = false) :
    (s.act .notify).scheduled = true := by
  rcases notify_of_open h with ⟨callbacks, hnotify⟩
  simp only [act, hnotify]

/-- No act takes a request back. -/
theorem scheduled_act {s : Redraw α} (h : s.scheduled = true) (a : Act α) :
    (s.act a).scheduled = true := by
  by_cases ha : a = .notify
  · cases hclosed : s.closed with
    | true => simp only [ha, act, notify_of_closed hclosed, h]
    | false =>
        rw [ha]
        exact scheduled_notify s hclosed
  · exact (act_of_ne ha).1.trans h

theorem begins_turn (hr : r.redraw.InStep) (hidle : r.waiting = []) :
    r.begins .turn = r.redraw.scheduled := by
  rw [Run.begins, List.isEmpty_iff.mpr hidle, Bool.true_and, hr]
  cases r.redraw.scheduled <;> rfl

/-- A turn in which a delivery begins leaves nothing scheduled. -/
theorem scheduled_turn (hr : r.redraw.InStep) (hidle : r.waiting = []) :
    (r.step .turn).redraw.scheduled = false := by
  rw [step_turn_of_idle hidle]
  cases hscheduled : r.redraw.scheduled with
  | false =>
      rw [deliver_of_quiet hr hscheduled]
      exact hscheduled
  | true => rw [deliver_of_scheduled hr hscheduled]

/-- A delivery that is scheduled stays so until one begins. -/
theorem scheduled_step (hr : r.redraw.InStep) (h : r.redraw.scheduled = true) {e : Event α}
    (he : r.begins e = false) : (r.step e).redraw.scheduled = true := by
  cases e with
  | act a => exact scheduled_act h a
  | call => exact h
  | turn =>
      by_cases hidle : r.waiting = []
      · exact absurd (((begins_turn hr hidle).trans h).symm.trans he) Bool.noConfusion
      · rw [step_turn_of_waiting hidle]
        exact h

/-- Nothing but a request schedules a delivery. -/
theorem quiet_step (hr : r.redraw.InStep) (h : r.redraw.scheduled = false) {e : Event α}
    (he : e ≠ .act .notify) : (r.step e).redraw.scheduled = false := by
  cases e with
  | act a =>
      have ha : a ≠ .notify := by
        rintro rfl
        exact he rfl
      exact (act_of_ne ha).1.trans h
  | call => exact h
  | turn =>
      by_cases hidle : r.waiting = []
      · exact scheduled_turn hr hidle
      · rw [step_turn_of_waiting hidle]
        exact h

end Flag

/-! ### Requests and deliveries -/

section Deliveries

variable {r : Run α}

theorem begun_append (r : Run α) (events later : List (Event α)) :
    r.begun (events ++ later) = r.begun events + (r.after events).begun later := by
  induction events generalizing r with
  | nil => exact (Nat.zero_add _).symm
  | cons e rest ih =>
      rw [List.cons_append, Run.begun, Run.begun, ih, Nat.add_assoc]
      rfl

/-- Nothing but a delivery answers a request. -/
theorem scheduled_of_begun_eq_zero (hr : r.redraw.InStep) (h : r.redraw.scheduled = true)
    {later : List (Event α)} (hlater : r.begun later = 0) :
    (r.after later).redraw.scheduled = true := by
  induction later generalizing r with
  | nil => exact h
  | cons e rest ih =>
      rw [Run.begun, Nat.add_eq_zero_iff, Bool.toNat_eq_zero] at hlater
      exact ih (inStep_step hr e) (scheduled_step hr h hlater.1) hlater.2

/-- Without a request there is no delivery. -/
theorem begun_of_quiet (hr : r.redraw.InStep) (h : r.redraw.scheduled = false)
    {rest : List (Event α)} (hrest : .act .notify ∉ rest) : r.begun rest = 0 := by
  induction rest generalizing r with
  | nil => rfl
  | cons e rest ih =>
      rw [List.mem_cons, not_or] at hrest
      have hnone : r.begins e = false := by
        cases e with
        | turn =>
            rw [InStep, h] at hr
            rw [Run.begins, hr]
            exact Bool.and_false _
        | act | call => rfl
      rw [Run.begun, hnone, ih (inStep_step hr e) (quiet_step hr h (Ne.symm hrest.1)) hrest.2]
      rfl

/-- Who is called in a delivery, as far as it has come, is settled when it
    begins, whatever the listeners do. -/
theorem called_eq_take (r : Run α) {during : List (Event α)} (h : .turn ∉ during) :
    r.called during = r.waiting.take (during.countP Event.isCall) := by
  induction during generalizing r with
  | nil => rfl
  | cons e rest ih =>
      rw [List.mem_cons, not_or] at h
      have hrest := ih (r.step e) h.2
      cases e with
      | turn => exact absurd rfl h.1
      | act a => exact hrest
      | call =>
          rw [List.countP_cons_of_pos rfl, Run.called, hrest]
          rcases r with ⟨redraw, waiting⟩
          cases waiting with
          | nil => simp only [Run.calls, Run.step, List.take_nil, List.tail_nil, List.append_nil]
          | cons l rest' => rfl

/-- A delivery that begins while open has all listeners to call. -/
theorem waiting_turn (hr : r.redraw.InStep) (hidle : r.waiting = [])
    (hscheduled : r.redraw.scheduled = true) (hopen : r.redraw.closed = false) :
    (r.step .turn).waiting = r.redraw.listeners := by
  rw [step_turn_of_idle hidle, deliver_of_scheduled hr hscheduled,
    if_neg (Bool.eq_false_iff.mp hopen)]

end Deliveries

/-! ### The order of the calls -/

section Order

variable {events : List (Event α)} {a b : Nat}

/-- An earlier listener stays earlier for as long as it is subscribed. -/
theorem Earlier.append (h : Earlier events a b) {e : Event α}
    (ha : a ∈ (Run.start.after (events ++ [e])).numbers) : Earlier (events ++ [e]) a b := by
  rcases h with ⟨early, late, rfl, hb, hlate⟩
  refine ⟨early, late ++ [e], List.append_assoc _ _ _, hb, fun part hpart => ?_⟩
  rcases List.prefix_concat_iff.mp hpart with rfl | hpart
  · rw [← List.append_assoc]
    exact ha
  · exact hlate part hpart

/-- A listener that was not subscribed before comes after those that stay. -/
theorem earlier_of_added {e : Event α} (hb : b ∉ (Run.start.after events).numbers)
    (ha : a ∈ (Run.start.after events).numbers)
    (ha' : a ∈ (Run.start.after (events ++ [e])).numbers) : Earlier (events ++ [e]) a b := by
  refine ⟨events, [e], rfl, hb, fun part hpart => ?_⟩
  rcases List.prefix_cons_iff.mp hpart with rfl | ⟨rest, rfl, hrest⟩
  · rw [List.append_nil]
    exact ha
  · rw [List.prefix_nil.mp hrest]
    exact ha'

/-- What an event makes of the numbers: some stay, in their order, and one that
    was not there may come behind them. -/
def Extended (old new : List Nat) : Prop :=
  ∃ stay, ∃ added : Option Nat, stay.Sublist old ∧ (∀ n ∈ added, n ∉ old) ∧
    new = stay ++ added.toList

theorem extended_of_sublist {old new : List Nat} (h : new.Sublist old) : Extended old new :=
  ⟨new, none, h, fun n hn => absurd hn (Option.not_mem_none n), (List.append_nil _).symm⟩

theorem extended_append {old : List Nat} {n : Nat} (h : n ∉ old) :
    Extended old (old ++ [n]) :=
  ⟨old, some n, List.Sublist.refl _, fun _ hm => Option.mem_some.mp hm ▸ h, rfl⟩

theorem Acted.extended {r s : Redraw α} {a : Act α} (h : Acted r a s)
    (hbelow : ∀ l ∈ r.listeners, l.1 < r.next) :
    Extended (r.listeners.map Prod.fst) (s.listeners.map Prod.fst) := by
  cases h with
  | added =>
      rw [List.map_append]
      refine extended_append fun hmem => ?_
      rcases List.mem_map.mp hmem with ⟨l, hl, hln⟩
      exact absurd hln (Nat.ne_of_lt (hbelow l hl))
  | returned hgone =>
      rw [List.map_append]
      exact extended_append hgone.2
  | dropped => exact extended_of_sublist (List.filter_sublist.map Prod.fst)
  | kept => exact extended_of_sublist (List.Sublist.refl _)
  | closed => exact extended_of_sublist (List.nil_sublist _)

theorem extended_step {r : Run α} (hr : Numbered r) (e : Event α) :
    Extended r.numbers (r.step e).numbers := by
  cases e with
  | act a => exact (acted_of_act r.redraw a).extended hr.below
  | call => exact extended_of_sublist (List.Sublist.refl _)
  | turn =>
      by_cases hidle : r.waiting = []
      · rw [step_turn_of_idle hidle, Run.numbers, Run.numbers, (deliver_sublist r.redraw).2.1]
        exact extended_of_sublist (List.Sublist.refl _)
      · rw [step_turn_of_waiting hidle]
        exact extended_of_sublist (List.Sublist.refl _)

/-- The listeners are in the order of their subscriptions. -/
theorem earlier_listeners (events : List (Event α)) :
    (Run.start.after events).numbers.Pairwise (Earlier events) := by
  induction events using List.reverseRecOn with
  | nil => exact List.Pairwise.nil
  | append_singleton events e ih =>
      obtain ⟨stay, added, hstay, hadded, heq⟩ :=
        extended_step (numbered_after numbered_start events) e
      rw [← show Run.start.after (events ++ [e]) = (Run.start.after events).step e from
        after_append _ _ _] at heq
      have hmem : ∀ a ∈ stay, a ∈ (Run.start.after (events ++ [e])).numbers := by
        intro a ha
        rw [heq]
        exact List.mem_append_left _ ha
      rw [heq]
      -- Those that stay keep their order, and all of them come before one that is added.
      refine List.pairwise_append.mpr ⟨?_, ?_, fun a ha b hb => ?_⟩
      · refine (ih.sublist hstay).imp_of_mem fun ha _ hab => ?_
        exact hab.append (hmem _ ha)
      · cases added with
        | none => exact List.Pairwise.nil
        | some n => exact List.pairwise_singleton _ _
      · exact earlier_of_added (hadded b (Option.mem_toList.mp hb)) (hstay.subset ha) (hmem a ha)

end Order

/-! ### The delivery of a request -/

/-- Every request is followed by one delivery. After any run, what waits to be
    run is one callback if a delivery is scheduled and none otherwise. Let a
    request be made while the requests are open, be it by a listener within a
    delivery, and let no delivery have begun since. Then the next turn that is
    not within a delivery begins one, whatever was done until then, and there
    is no other before the next request. Unless they were closed, it calls
    those who are subscribed when it begins, each of them once, in the order of
    their subscriptions, and whatever they do. -/
theorem delivered_once (before : List (Event α)) :
    let r : Run α := Run.start.after before
    r.redraw.callbacks = r.redraw.scheduled.toNat ∧
      (r.redraw.closed = false → ∀ later, (r.step (.act .notify)).begun later = 0 →
        let s := (r.step (.act .notify)).after later
        s.waiting = [] →
          (∀ rest, .act .notify ∉ rest →
            (r.step (.act .notify)).begun (later ++ .turn :: rest) = 1) ∧
          (s.redraw.closed = false →
            s.numbers.Nodup ∧
              s.numbers.Pairwise (Earlier (before ++ .act .notify :: later)) ∧
              ∀ during, .turn ∉ during →
                (s.step .turn).called during
                  = s.redraw.listeners.take (during.countP Event.isCall))) := by
  intro r
  have hr : r.redraw.InStep := inStep_after inStep_empty before
  refine ⟨hr, fun hopen later hlater => ?_⟩
  intro s hidle
  have hnotified : (r.step (.act .notify)).redraw.InStep := inStep_step hr _
  have hscheduled : s.redraw.scheduled = true :=
    scheduled_of_begun_eq_zero hnotified (scheduled_notify r.redraw hopen) hlater
  have hsr : s.redraw.InStep := inStep_after hnotified later
  have hs : s = Run.start.after (before ++ .act .notify :: later) :=
    (after_append Run.start before (.act .notify :: later)).symm
  refine ⟨fun rest hrest => ?_, fun hstill => ⟨?_, ?_, fun during hduring => ?_⟩⟩
  · have hquiet : (s.step .turn).begun rest = 0 :=
      begun_of_quiet (inStep_step hsr .turn) (scheduled_turn hsr hidle) hrest
    rw [begun_append, hlater, Run.begun, begins_turn hsr hidle, hscheduled, hquiet]
    rfl
  · rw [hs]
    exact (numbered_after numbered_start _).listening
  · rw [hs]
    exact earlier_listeners _
  · rw [called_eq_take _ hduring, waiting_turn hsr hidle hscheduled hstill]

/-- The first of two listeners requests a redraw while it is called. The second
    is still called for the last request, and both are for this one, with a
    third that the second one subscribes. -/
theorem delivered_once_again :
    let before : List (Event Text) :=
      [.act (.subscribe "a"), .act (.subscribe "b"), .act .notify, .turn, .call]
    let later : List (Event Text) := [.turn, .call, .act (.subscribe "c"), .act .notify]
    let rest : List (Event Text) := [.call, .act (.unsubscribe 1), .call, .call]
    let r := Run.start.after before
    let s := (r.step (.act .notify)).after later
    r.redraw.closed = false ∧ (r.step (.act .notify)).begun later = 0 ∧ s.waiting = [] ∧
      s.redraw.closed = false ∧
      (r.step (.act .notify)).begun (later ++ .turn :: rest) = 1 ∧
      (r.step (.act .notify)).called (later ++ .turn :: rest)
        = (1, ("b" : Text)) :: s.redraw.listeners := by
  intro before later rest r s
  have hopen : r.redraw.closed = false := by decide
  have hlater : (r.step (.act .notify)).begun later = 0 := by decide
  have hidle : s.waiting = [] := by decide
  have hstill : s.redraw.closed = false := by decide
  have hrest : .act .notify ∉ rest := by
    simp only [rest, List.mem_cons, List.not_mem_nil, Event.act.injEq, reduceCtorEq, or_self,
      not_false_eq_true]
  have hnoturn : .turn ∉ rest := by
    simp only [rest, List.mem_cons, List.not_mem_nil, reduceCtorEq, or_self, not_false_eq_true]
  obtain ⟨hone, hcalls⟩ := (delivered_once before).2 hopen later hlater hidle
  have hcalled : (s.step .turn).called rest = s.redraw.listeners :=
    ((hcalls hstill).2.2 rest hnoturn).trans (by decide)
  refine ⟨hopen, hlater, hidle, hstill, hone rest hrest, ?_⟩
  rw [called_append]
  exact congrArg (List.cons (1, ("b" : Text))) hcalled

end Redraw

end NodeWatch
