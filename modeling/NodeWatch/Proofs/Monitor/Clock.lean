import NodeWatch.Proofs.Double.Integers
import NodeWatch.Proofs.Monitor.Stopping
import NodeWatch.Simulation.World

/-!
# A Session on a Clock

A session only asks to be woken, and has no clock. Here it is put beside one.
Time passes as it likes, but not past the end of a sleep; the node answers when
it likes, in whatever way; the user, the lookups and the listeners do what they
like in between. `Clocked` notes when each poll was begun, what was asked and
answered in it, and when it was over, as someone notes it who sees the questions
and the answers alone.

A sleep lasts whole milliseconds. What is asked for as its length loses its
fraction, and past the longest sleep that there is it counts as one.

Nothing is said about what makes the clock go. The sessions in virtual time have
one that is made of turns and of sleeps that end in their order, and are a case
of this, `Simulation.World.keeps_time`.

## Main definitions

* `lastsMs`: The whole milliseconds of a sleep.
* `Visit`: A poll as it is seen from outside.
* `Clocked`: A session on a clock, with the notes of its polls.
* `Occasion`, `Clocked.step`, `Clocked.after`: What happens, with time.

## Theorems

* `toInt?_sleepLength`, `lastsMs_bounds`: How long a sleep lasts.
* `session_step`: What an occasion is to the session.
* `started_after`, `running_after`: Whether a session was started or shut down.
-/

namespace NodeWatch

namespace Simulation

/-- A length that a sleep can have is a number between the bounds. -/
theorem value_of_length {ms : Double} (hleast : 1 ≤ ms) (hmost : ms ≤ longestSleep) :
    ms.isFinite = true ∧ 1 ≤ ms.value ∧ ms.value ≤ 2147483647 := by
  have hone : (1 : Double).toInt? = some 1 := by decide +kernel
  have hlongest : longestSleep.toInt? = some 2147483647 := by decide +kernel
  have hfinite : ms.isFinite = true := by
    cases ms with
    | nan => exact absurd hleast (by decide +kernel)
    | infinite negative =>
        cases negative with
        | true => exact absurd hleast (by decide +kernel)
        | false => exact absurd hmost (by decide +kernel)
    | finite => rfl
  have hlow := (Double.le_iff_value (Double.isFinite_of_toInt? hone) hfinite).mp hleast
  have hhigh := (Double.le_iff_value hfinite (Double.isFinite_of_toInt? hlongest)).mp hmost
  rw [Double.value_of_toInt? hone] at hlow
  rw [Double.value_of_toInt? hlongest] at hhigh
  exact ⟨hfinite, by exact_mod_cast hlow, by exact_mod_cast hhigh⟩

/-- The whole milliseconds of a sleep: those of what was asked for, or else one. -/
def lastsMs (ms : Double) : Int := if 1 ≤ ms ∧ ms ≤ longestSleep then ⌊ms.value⌋ else 1

/-- A sleep lasts whole milliseconds. -/
theorem toInt?_sleepLength (ms : Double) : (sleepLength ms).toInt? = some (lastsMs ms) := by
  unfold sleepLength lastsMs
  split
  · next h =>
    rcases value_of_length h.1 h.2 with ⟨hfinite, hone, -⟩
    exact Double.toInt?_trunc hfinite (lt_of_lt_of_le zero_lt_one hone)
  · decide +kernel

/-- A sleep lasts a millisecond at least, and no longer than the longest. -/
theorem lastsMs_bounds (ms : Double) : 1 ≤ lastsMs ms ∧ lastsMs ms ≤ 2147483647 := by
  unfold lastsMs
  split
  · next h =>
    rcases value_of_length h.1 h.2 with ⟨-, hone, hmost⟩
    refine ⟨Int.le_floor.mpr (by exact_mod_cast hone), ?_⟩
    exact_mod_cast (Int.floor_le ms.value).trans hmost
  · exact ⟨le_rfl, by decide⟩

end Simulation

namespace Monitor

open Simulation (sleepLength)
open Session (Occurrence)

/-- A poll as it is seen from outside. -/
structure Visit where
  began : Double
  calls : List Rpc.Call
  answers : List Rpc.Answer
  ended : Option Double

namespace Visit

/-- A poll with its first question. -/
def first (now : Double) (call : Rpc.Call) : Visit := ⟨now, [call], [], none⟩

/-- A poll after an answer, with the question that follows or else its end. -/
def answered (v : Visit) (now : Double) (answer : Rpc.Answer) : Option Rpc.Call → Visit
  | some call => { v with calls := v.calls ++ [call], answers := v.answers ++ [answer] }
  | none => { v with answers := v.answers ++ [answer], ended := some now }

end Visit

/-- A session on a clock, with notes. -/
structure Clocked where
  session : Session
  now : Double
  /-- The end of the sleep of the poller, while it sleeps. -/
  due : Option Double
  /-- The polls that were begun, the latest first. -/
  polls : List Visit
  /-- The reports of tasks that broke down. -/
  reports : List Text

/-- What happens to a session on a clock. -/
inductive Occasion where
  /-- Time passes. -/
  | pass (time : Double)
  /-- The sleep of the poller is over. -/
  | wake
  /-- The poll is given an answer. -/
  | answer (answer : Rpc.Answer)
  /-- Something else happens to the session. -/
  | occurs (o : Occurrence)

/-- An answer to the poll, or the end of the sleep of the poller. -/
def Session.Occurrence.isPoll : Occurrence → Bool
  | .event (.pollAnswer _ _) | .event .pollerWake => true
  | _ => false

/-- The question of a poll among some requests. -/
def question? (requests : List Request) : Option Rpc.Call :=
  requests.findSome? fun
    | .askPoll call => some call
    | _ => none

namespace Clocked

/-- A session before its start. -/
def initial (now : Double) : Clocked := ⟨.initial, now, none, [], []⟩

/-- The end of the sleep of the poller after a request. -/
def dueAfter (refreshMs now : Double) (due : Option Double) : Request → Option Double
  | .sleepPoller => some (now + sleepLength refreshMs)
  | .endSleeps => due.map fun _ => now
  | _ => due

/-- The notes of the polls. An answer is for the poll that waits, and a question
    that is not preceded by one begins a poll. -/
def noted (now : Double) (question : Option Rpc.Call) (polls : List Visit) :
    Occurrence → List Visit
  | .event (.pollAnswer answer _) =>
    match polls with
    | [] => []
    | v :: rest => (if v.ended = none then v.answered now answer question else v) :: rest
  | _ => (question.map (Visit.first now)).toList ++ polls

/-- The reports that an occurrence causes. -/
def reportsOf : Occurrence → List Text
  | .event event => Simulation.World.reportOf event
  | .subscribe | .unsubscribe _ => []

/-- Something happens to the session. -/
def happen (refreshMs : Double) (w : Clocked) (o : Occurrence) : Clocked where
  session := (w.session.occur o).1
  now := w.now
  due := (w.session.occur o).2.foldl (dueAfter refreshMs w.now) w.due
  polls := noted w.now (question? (w.session.occur o).2) w.polls o
  reports := w.reports ++ reportsOf o

/-- One occasion. Time does not go back, and does not pass the end of the sleep
    of the poller. -/
def step (refreshMs : Double) (w : Clocked) : Occasion → Clocked
  | .pass time => if w.now ≤ time ∧ ∀ d ∈ w.due, time ≤ d then { w with now := time } else w
  | .wake =>
    match w.due with
    | none => w
    | some d => { w with now := d, due := none }.happen refreshMs (.event .pollerWake)
  | .answer answer => w.happen refreshMs (.event (.pollAnswer answer w.now))
  | .occurs o => if o.isPoll then w else w.happen refreshMs o

/-- The session and its clock after several occasions. -/
def after (refreshMs : Double) (w : Clocked) (run : List Occasion) : Clocked :=
  run.foldl (step refreshMs) w

end Clocked

section Runs

variable {refreshMs : Double} {s t : Session} {w : Clocked}

theorem happen_eq {o : Occurrence} {requests : List Request}
    (hmoved : w.session.occur o = (t, requests)) :
    w.happen refreshMs o = ⟨t, w.now, requests.foldl (Clocked.dueAfter refreshMs w.now) w.due,
      Clocked.noted w.now (question? requests) w.polls o, w.reports ++ Clocked.reportsOf o⟩ := by
  unfold Clocked.happen
  rw [hmoved]

theorem noted_none {o : Occurrence} (ho : o.isPoll = false) (now : Double) (polls : List Visit) :
    Clocked.noted now none polls o = polls := by
  unfold Clocked.noted
  split
  · exact absurd ho.symm Bool.false_ne_true
  · rfl

theorem noted_answer {v : Visit} {rest : List Visit} (hpolls : w.polls = v :: rest)
    (hopen : v.ended = none) (question : Option Rpc.Call) (answer : Rpc.Answer) :
    Clocked.noted w.now question w.polls (.event (.pollAnswer answer w.now))
      = v.answered w.now answer question :: rest := by
  simp only [Clocked.noted, hpolls, hopen, if_true]

theorem began_noted_answer (now : Double) (question : Option Rpc.Call) (polls : List Visit)
    (answer : Rpc.Answer) (time : Double) :
    (Clocked.noted now question polls (.event (.pollAnswer answer time))).map Visit.began
      = polls.map Visit.began := by
  cases polls with
  | nil => rfl
  | cons v rest =>
      simp only [Clocked.noted, List.map_cons, List.cons.injEq, and_true]
      split
      · cases question <;> rfl
      · rfl

/-- Only a start starts a session. -/
theorem started_occur (o : Occurrence) :
    (s.occur o).1.started = true ↔ s.started = true ∨ o = .event .start := by
  cases o with
  | subscribe | unsubscribe number =>
      exact (or_iff_left fun hc => Occurrence.noConfusion hc).symm
  | event event =>
      by_cases hevent : event = .start
      · subst hevent
        refine ⟨fun _ => .inr rfl, fun _ => ?_⟩
        change (s.step .start).1.started = true
        cases hstarted : s.started with
        | true =>
            rw [Session.step_start_again hstarted]
            exact hstarted
        | false =>
            cases hrunning : s.running with
            | true => rw [Session.step_start_first hstarted hrunning]
            | false => rw [Session.step_start_refused hstarted hrunning]
      · rw [or_iff_left fun hc => hevent (Occurrence.event.inj hc)]
        change (s.step event).1.started = true ↔ _
        have hstepped := Session.stepped (s := s) event
        generalize (s.step event).1 = t, (s.step event).2 = requests at hstepped ⊢
        cases hstepped with
        | started | startRefused => exact absurd rfl hevent
        | _ => exact Iff.rfl

/-- Only a shutdown stops a session. -/
theorem running_occur (o : Occurrence) :
    (s.occur o).1.running = true ↔ s.running = true ∧ o ≠ .event .shutdown := by
  cases o with
  | subscribe | unsubscribe number =>
      exact (and_iff_left fun hc => Occurrence.noConfusion hc).symm
  | event event =>
      by_cases hevent : event = .shutdown
      · subst hevent
        exact ⟨fun hc => absurd hc Bool.false_ne_true, fun hc => absurd rfl hc.2⟩
      · rw [and_iff_left fun hc => hevent (Occurrence.event.inj hc)]
        change (s.step event).1.running = true ↔ _
        have hstepped := Session.stepped (s := s) event
        generalize (s.step event).1 = t, (s.step event).2 = requests at hstepped ⊢
        cases hstepped with
        | stopped => exact absurd rfl hevent
        | _ => exact Iff.rfl

/-- What an occasion is to the session. -/
theorem session_step (refreshMs : Double) (w : Clocked) (occasion : Occasion) :
    (w.step refreshMs occasion).session = w.session ∧
        (∀ o, occasion = .occurs o → o.isPoll = true) ∨
      ∃ o, (w.step refreshMs occasion).session = (w.session.occur o).1 ∧
        (occasion = .occurs o ∨ o.isPoll = true ∧ ∀ o', occasion ≠ .occurs o') := by
  cases occasion with
  | pass time =>
      refine .inl ⟨?_, fun o hc => Occasion.noConfusion hc⟩
      unfold Clocked.step
      simp only
      split <;> rfl
  | wake =>
      unfold Clocked.step
      cases w.due with
      | none => exact .inl ⟨rfl, fun o hc => Occasion.noConfusion hc⟩
      | some d => exact .inr ⟨_, rfl, .inr ⟨rfl, fun o hc => Occasion.noConfusion hc⟩⟩
  | answer answer => exact .inr ⟨_, rfl, .inr ⟨rfl, fun o hc => Occasion.noConfusion hc⟩⟩
  | occurs o =>
      unfold Clocked.step
      simp only
      split
      · next ho => exact .inl ⟨rfl, fun o' ho' => Occasion.occurs.inj ho' ▸ ho⟩
      · exact .inr ⟨o, rfl, .inl rfl⟩

theorem started_step (w : Clocked) (occasion : Occasion) :
    (w.step refreshMs occasion).session.started = true ↔
      w.session.started = true ∨ occasion = .occurs (.event .start) := by
  rcases session_step refreshMs w occasion with ⟨hsession, hpoll⟩ |
    ⟨o, hsession, rfl | ⟨ho, hother⟩⟩
  · rw [hsession, or_iff_left fun hc => absurd (hpoll (.event .start) hc) Bool.false_ne_true]
  · rw [hsession, started_occur, Occasion.occurs.injEq]
  · rw [hsession, started_occur, or_iff_left (hother _), or_iff_left]
    rintro rfl
    exact absurd ho Bool.false_ne_true

theorem running_step (w : Clocked) (occasion : Occasion) :
    (w.step refreshMs occasion).session.running = true ↔
      w.session.running = true ∧ occasion ≠ .occurs (.event .shutdown) := by
  rcases session_step refreshMs w occasion with ⟨hsession, hpoll⟩ |
    ⟨o, hsession, rfl | ⟨ho, hother⟩⟩
  · rw [hsession, and_iff_left fun hc => absurd (hpoll (.event .shutdown) hc) Bool.false_ne_true]
  · rw [hsession, running_occur, ne_eq, ne_eq, Occasion.occurs.injEq]
  · rw [hsession, running_occur, and_iff_left (hother _), and_iff_left]
    rintro rfl
    exact absurd ho Bool.false_ne_true

theorem started_after (run : List Occasion) :
    (w.after refreshMs run).session.started = true ↔
      w.session.started = true ∨ .occurs (.event .start) ∈ run := by
  induction run generalizing w with
  | nil => exact (or_iff_left List.not_mem_nil).symm
  | cons occasion rest ih =>
      refine (ih (w := w.step refreshMs occasion)).trans ?_
      rw [started_step, or_assoc, List.mem_cons, eq_comm (a := occasion)]

theorem running_after (run : List Occasion) :
    (w.after refreshMs run).session.running = true ↔
      w.session.running = true ∧ .occurs (.event .shutdown) ∉ run := by
  induction run generalizing w with
  | nil => exact (and_iff_left List.not_mem_nil).symm
  | cons occasion rest ih =>
      refine (ih (w := w.step refreshMs occasion)).trans ?_
      rw [running_step, and_assoc, List.mem_cons, not_or, ne_comm (a := occasion)]

end Runs

end Monitor

end NodeWatch
