import NodeWatch.Proofs.Monitor.BlockList
import NodeWatch.Proofs.Monitor.Clock

/-!
# The Schedule of the Polls

The polls are one loop: a poll, a sleep, the next poll. Where the loop stands is
told by `Phase`, with what has to be known there. While a poll waits, no sleep
of the poller goes on, and so no other poll can begin. While the poller sleeps,
the last poll is over, and the sleep ends when it should, which is counted from
the end of that poll and not from its beginning. A shutdown ends the sleep at
once but cannot take a question back, so a poll in progress runs to its end
under the same rules, and there the loop ends.

## Main definitions

* `Visit.Proper`: The questions of a poll are those that it should ask.
* `Spaced`: A poll begins when the sleep after the last one is over.
* `Phase`, `Scheduled`: Where the loop of the polls stands.

## Theorems

* `proper_of_tracked`, `proper_of_closed`: The questions of a poll.
* `scheduled_occurs`, `scheduled_answer`, `scheduled_wake`: One occasion.
* `schedule`: A whole run.
-/

namespace NodeWatch

namespace Monitor

open Simulation (sleepLength lastsMs toInt?_sleepLength)
open Session (Occurrence Stepped)

namespace Visit

/-- How many of the core questions were answered before one of them failed. -/
def told (v : Visit) : Nat := ((v.answers.take 4).takeWhile Except.isOk).length

/-- The questions of a poll are those that it should ask. -/
structure Proper (v : Visit) : Prop where
  /-- The core questions are asked in their order, each after the answer to the
      one before it. -/
  core : v.calls.take 4 = Poll.coreCalls.take (v.told + 1)
  /-- Blocks are asked for once the core answers have arrived. -/
  blocks : ∀ call ∈ v.calls.drop 4, v.told = 4 ∧ ∃ height, call = .statsAt height
  /-- One question waits for its answer until the poll is over. -/
  waiting : v.calls.length = v.answers.length + if v.ended = none then 1 else 0
  short : v.answers.length + (if v.ended = none then 1 else 0) ≤ 24

end Visit

/-- A poll begins when the sleep after the last one is over. -/
def Spaced (refreshMs : Double) (newer older : Visit) : Prop :=
  ∃ e, older.ended = some e ∧ newer.began = e + sleepLength refreshMs

/-- Where the loop of the polls stands. -/
inductive Phase (refreshMs : Double) (w : Clocked) : Prop where
  /-- No poll was begun. -/
  | idle (hpoller : w.session.poller = .idle) (hpolls : w.polls = []) (hdue : w.due = none)
      (hquiet : w.session.snapshot.status.refreshing = false)
      (hfresh : w.session.running = true → w.session.started = false)
  /-- A poll waits for an answer, and the poller does not sleep. -/
  | polling {poll : Poll} {v : Visit} {rest : List Visit} {r : Poll.Record}
      (hpoller : w.session.poller = .polling poll) (hpolls : w.polls = v :: rest)
      (hopen : v.ended = none) (hcalls : r.calls = v.calls) (hanswers : r.answers = v.answers)
      (htracked : Poll.Tracked r w.session.snapshot (some poll)) (hdue : w.due = none)
      (hrefreshing : w.session.snapshot.status.refreshing = true)
      (hstarted : w.session.started = true)
  /-- The last poll is over, and the sleep ends when the next one is to begin. -/
  | sleeping {v : Visit} {rest : List Visit} {e : Double}
      (hpoller : w.session.poller = .sleeping) (hpolls : w.polls = v :: rest)
      (hended : v.ended = some e)
      (hdue : w.session.running = true → w.due = some (e + sleepLength refreshMs))
      (hquiet : w.session.snapshot.status.refreshing = false)
      (hstarted : w.session.started = true)
  /-- The last poll is over, and no other one begins. -/
  | ended (hpoller : w.session.poller = .ended)
      (hpolls : ∀ v ∈ w.polls.head?, v.ended ≠ none) (hdue : w.due = none)
      (hquiet : w.session.snapshot.status.refreshing = false)
      (hstarted : w.session.started = true) (hstopped : w.session.running = false)

/-- The schedule is kept. -/
structure Scheduled (refreshMs : Double) (w : Clocked) : Prop where
  phase : Phase refreshMs w
  spaced : w.polls.IsChain (Spaced refreshMs)
  proper : ∀ v ∈ w.polls, v.Proper
  reports : ∀ r ∈ w.reports, ∃ message, r = report Session.lookupTask message

/-! ### The questions of a poll -/

section Questions

open Poll (Closed Stage Tracked Tracking coreCalls blockCalls given)

variable {r : Poll.Record} {s : Snapshot} {v : Visit}

theorem takeWhile_isOk_map (vs : List Json.Value) (rest : List Rpc.Answer) :
    (vs.map Except.ok ++ rest).takeWhile Except.isOk
      = vs.map Except.ok ++ rest.takeWhile Except.isOk := by
  refine List.takeWhile_append_of_pos fun answer hanswer => ?_
  rcases List.mem_map.mp hanswer with ⟨value, -, rfl⟩
  rfl

/-- A poll that has not got four core answers, or will not get them. -/
theorem proper_core {vs : List Json.Value} {last : List Rpc.Answer} (hfew : vs.length < 4)
    (hanswers : v.answers = vs.map .ok ++ last)
    (hcalls : v.calls = coreCalls.take (vs.length + 1))
    (hlast : last = [] ∧ v.ended = none ∨ (∃ e, last = [.error e]) ∧ v.ended ≠ none) :
    v.Proper := by
  have hlength : v.calls.length = vs.length + 1 := by
    rw [hcalls, List.length_take]
    exact Nat.min_eq_left hfew
  have hone : last.length + (if v.ended = none then 1 else 0) = 1 := by
    rcases hlast with ⟨rfl, hopen⟩ | ⟨⟨e, rfl⟩, hended⟩
    · rw [if_pos hopen]
      rfl
    · rw [if_neg hended]
      rfl
  have hcount : v.answers.length + (if v.ended = none then 1 else 0) = vs.length + 1 := by
    rw [hanswers, List.length_append, List.length_map]
    omega
  have htold : v.told = vs.length := by
    have hall : v.answers.take 4 = vs.map .ok ++ last := by
      rw [List.take_of_length_le (by omega), hanswers]
    have hstop : last.takeWhile Except.isOk = [] := by
      rcases hlast with ⟨rfl, -⟩ | ⟨⟨e, rfl⟩, -⟩ <;> rfl
    rw [Visit.told, hall, takeWhile_isOk_map, hstop, List.append_nil, List.length_map]
  refine ⟨?_, fun call hcall => ?_, hlength.trans hcount.symm, by omega⟩
  · rw [List.take_of_length_le (by omega), htold, hcalls]
  · rw [List.drop_eq_nil_of_le (by omega)] at hcall
    exact absurd hcall List.not_mem_nil

/-- A poll whose core answers all arrived, while it asks for blocks and after. -/
theorem proper_blocks {answers : CoreAnswers} {more : List Rpc.Answer} {tip : Double} {count : Nat}
    (hanswers : v.answers = given answers ++ more)
    (hcalls : v.calls = coreCalls ++ blockCalls tip count)
    (hcount : count = more.length + if v.ended = none then 1 else 0) (hroom : count ≤ maxBlocks) :
    v.Proper := by
  have hmost : maxBlocks = 20 := rfl
  have hgiven : (given answers).length = 4 := rfl
  have hcore : coreCalls.length = 4 := rfl
  have hblocks : (blockCalls tip count).length = count := by
    rw [blockCalls, List.length_map, List.length_range]
  have htold : v.told = 4 := by
    rw [Visit.told, hanswers, List.take_left' hgiven]
    rfl
  have hlength : v.answers.length = 4 + more.length := by
    rw [hanswers, List.length_append, hgiven]
  refine ⟨?_, fun call hcall => ⟨htold, ?_⟩, ?_, by omega⟩
  · rw [hcalls, List.take_left' hcore, htold]
    rfl
  · rw [hcalls, List.drop_left' hcore] at hcall
    rcases List.mem_map.mp hcall with ⟨i, -, rfl⟩
    exact ⟨_, rfl⟩
  · rw [hcalls, List.length_append, hcore, hblocks]
    omega

/-- The questions of a poll that waits for an answer. -/
theorem proper_of_tracked {poll : Poll} (hcalls : r.calls = v.calls)
    (hanswers : r.answers = v.answers) (hopen : v.ended = none)
    (h : Tracked r s (some poll)) : v.Proper := by
  rcases poll with ⟨listTip, stage⟩
  have h : Tracking r s stage := h.2
  cases h with
  | @core _ vs hgiven ha hc =>
      have hall : v.answers = vs.map .ok ++ [] := by
        rw [← hanswers, ha, List.append_nil]
      exact proper_core (Poll.given?_length_lt hgiven) hall (hcalls.symm.trans hc)
        (.inl ⟨rfl, hopen⟩)
  | @blocks answers vs ha hc hmoves hroom =>
      refine proper_blocks (hanswers.symm.trans ha) (hcalls.symm.trans hc) ?_
        (hroom vs.length (Nat.lt_succ_self _)).1
      rw [if_pos hopen, List.length_map]

/-- The questions of a poll that is over. -/
theorem proper_of_closed (hcalls : r.calls = v.calls) (hanswers : r.answers = v.answers)
    (hended : v.ended ≠ none) (h : Closed r s) : v.Proper := by
  cases h with
  | failed hfew ha hc =>
      exact proper_core hfew (hanswers.symm.trans ha) (hcalls.symm.trans hc)
        (.inr ⟨⟨_, rfl⟩, hended⟩)
  | @stayed answers ha hc =>
      have hall : v.answers = given answers ++ [] := by
        rw [← hanswers, ha, List.append_nil]
      have hasked : v.calls = coreCalls ++ blockCalls answers.tip 0 := by
        rw [← hcalls, hc]
        rfl
      refine proper_blocks hall hasked ?_ (Nat.zero_le _)
      rw [if_neg hended]
      rfl
  | @listed answers vs last ha hc hmoves hroom =>
      refine proper_blocks (hanswers.symm.trans ha) (hcalls.symm.trans hc) ?_ ?_
      · rw [if_neg hended, List.length_append, List.length_map]
        rfl
      -- Every block that was asked for had a place in the list.
      · by_contra hmany
        have hlast := (hroom (vs.length + last.length - 1) (by omega)).1
        omega

end Questions

/-! ### One occasion -/

section Step

variable {refreshMs : Double} {s t : Session} {w : Clocked}

/-- Two sessions that are the same to the poller, and no request that concerns
    it. -/
structure Session.Beside (s t : Session) (requests : List Request) : Prop where
  poller : t.poller = s.poller
  started : t.started = s.started
  running : t.running = s.running
  refreshing : t.snapshot.status.refreshing = s.snapshot.status.refreshing
  blocks : Poll.SameBlocks t.snapshot s.snapshot
  question : question? requests = none
  due : ∀ ms now due, requests.foldl (Clocked.dueAfter ms now) due = due

theorem Session.Beside.refl (s : Session) : s.Beside s [] :=
  ⟨rfl, rfl, rfl, rfl, .refl _, rfl, fun _ _ _ => rfl⟩

theorem Poll.SameBlocks.trans {a b c : Snapshot} (hab : Poll.SameBlocks a b)
    (hbc : Poll.SameBlocks b c) : Poll.SameBlocks a c :=
  ⟨hab.blocks.trans hbc.blocks, hab.tip.trans hbc.tip, hab.previous.trans hbc.previous⟩

theorem beside_of_advanceSlide {before after : Snapshot} (h : before.advanceSlide = some after) :
    Poll.SameBlocks after before := by
  unfold Snapshot.advanceSlide at h
  by_cases hactive : before.slide.active = true
  · rw [if_pos hactive] at h
    rw [← Option.some.inj h]
    exact ⟨rfl, rfl, rfl⟩
  · rw [if_neg hactive] at h
    exact absurd h (by simp only [reduceCtorEq, not_false_eq_true])

/-- What happens besides the polls: the session is started or shut down, or the
    poller does not notice. -/
theorem beside_of_stepped {event : Event} {requests : List Request}
    (h : Stepped s event t requests) (hpoll : (Occurrence.event event).isPoll = false) :
    s.Beside t requests ∨
    (s.running = true ∧ s.started = false ∧ event = .start ∧
      t = { (s.setRefreshing true).notify with
            poller := .polling ⟨s.snapshot.blocksTip, .chain⟩
            animator := .sleeping
            started := true } ∧ requests = [.askPoll .chainInfo, .sleepAnimator]) ∨
    (s.running = false ∧ s.started = false ∧ event = .start ∧
      t = { s with started := true } ∧ requests = []) ∨
    (event = .shutdown ∧ t = s.shutdown.1 ∧ requests = [.endSleeps]) := by
  cases h with
  | started hrunning hfresh => exact .inr (.inl ⟨hrunning, hfresh, rfl, rfl, rfl⟩)
  | startRefused hrunning hfresh => exact .inr (.inr (.inl ⟨hrunning, hfresh, rfl, rfl, rfl⟩))
  | stopped => exact .inr (.inr (.inr ⟨rfl, rfl, rfl⟩))
  | pollBegun | pollerEnded | pollAsked | pollOver => exact absurd hpoll.symm Bool.false_ne_true
  | slid _ _ hslide =>
      refine .inl ⟨rfl, rfl, rfl, ?_, beside_of_advanceSlide hslide, rfl, fun _ _ _ => rfl⟩
      exact congrArg Status.refreshing (Session.status_of_advanceSlide hslide)
  | _ => exact .inl ⟨rfl, rfl, rfl, rfl, ⟨rfl, rfl, rfl⟩, rfl, fun _ _ _ => rfl⟩

/-- An answer does not touch the note that a poll is under way. -/
theorem refreshing_next (poll : Poll) (s : Snapshot) (now : Double) (answer : Rpc.Answer) :
    (poll.next s now answer).snapshot.status.refreshing = s.status.refreshing := by
  have hblock : ∀ (u : Snapshot) redraw tip fetched,
      (poll.nextBlock u redraw tip fetched).snapshot.status.refreshing = u.status.refreshing := by
    intro u redraw tip fetched
    rcases Poll.nextBlock_cases (s := u) poll redraw tip fetched with ⟨-, h⟩ | h
    · rw [h]
    · rw [h]
      rfl
  unfold Poll.next
  simp only
  split
  · rfl
  · rfl
  · rfl
  · unfold Poll.commit
    simp only
    split
    · rfl
    · exact hblock _ _ _ _
  · exact hblock _ _ _ _
  · rfl
  · rfl

/-- Reports are about lookups only. -/
theorem reports_append {reports : List Text}
    (h : ∀ r ∈ reports, ∃ message, r = report Session.lookupTask message) (o : Occurrence) :
    ∀ r ∈ reports ++ Clocked.reportsOf o, ∃ message, r = report Session.lookupTask message := by
  intro r hr
  rcases List.mem_append.mp hr with hr | hr
  · exact h r hr
  · cases o with
    | event event =>
        cases event with
        | lookupCrash message => exact ⟨message, List.mem_singleton.mp hr⟩
        | _ => exact absurd hr List.not_mem_nil
    | subscribe | unsubscribe number => exact absurd hr List.not_mem_nil

theorem tracked_same {poll : Poll} {r : Poll.Record} {a b : Snapshot}
    (h : Poll.Tracked r a (some poll)) (hsame : Poll.SameBlocks b a) :
    Poll.Tracked r b (some poll) := by
  rcases poll with ⟨listTip, stage⟩
  rcases h with ⟨hlist, h⟩
  refine ⟨hlist, ?_⟩
  cases h with
  | core hgiven ha hc hs => exact .core hgiven ha hc (hsame.trans hs)
  | blocks ha hc hmoves hroom hs => exact .blocks ha hc hmoves hroom (hsame.trans hs)

/-- What the poller does not notice leaves the loop where it stands. -/
theorem phase_beside {requests : List Request} (h : Phase refreshMs w)
    (hb : w.session.Beside t requests) (now : Double) (reports : List Text) :
    Phase refreshMs ⟨t, now, w.due, w.polls, reports⟩ := by
  cases h with
  | idle hpoller hpolls hdue hquiet hfresh =>
      exact .idle (hb.poller.trans hpoller) hpolls hdue (hb.refreshing.trans hquiet)
        fun hrunning => hb.started.trans (hfresh (hb.running.symm.trans hrunning))
  | @polling poll v rest r hpoller hpolls hopen hcalls hanswers htracked hdue hrefreshing
      hstarted =>
      exact .polling (hb.poller.trans hpoller) hpolls hopen hcalls hanswers
        (tracked_same htracked hb.blocks) hdue (hb.refreshing.trans hrefreshing)
        (hb.started.trans hstarted)
  | sleeping hpoller hpolls hended hdue hquiet hstarted =>
      exact .sleeping (hb.poller.trans hpoller) hpolls hended
        (fun hrunning => hdue (hb.running.symm.trans hrunning)) (hb.refreshing.trans hquiet)
        (hb.started.trans hstarted)
  | ended hpoller hpolls hdue hquiet hstarted hstopped =>
      exact .ended (hb.poller.trans hpoller) hpolls hdue (hb.refreshing.trans hquiet)
        (hb.started.trans hstarted) (hb.running.trans hstopped)

/-- A poll that just began waits for the answer to its first question. -/
theorem phase_begun {b : Snapshot} (hpoller : t.poller = .polling (Poll.begin b))
    (hsame : Poll.SameBlocks t.snapshot b) (hrefreshing : t.snapshot.status.refreshing = true)
    (hstarted : t.started = true) (now : Double) (polls : List Visit) (reports : List Text) :
    Phase refreshMs ⟨t, now, none, .first now .chainInfo :: polls, reports⟩ ∧
      (Visit.first now .chainInfo).Proper := by
  have htracked : Poll.Tracked (.begun b) t.snapshot (some (Poll.begin b)) :=
    ⟨rfl, .core rfl rfl rfl hsame⟩
  exact ⟨.polling (v := .first now .chainInfo) hpoller rfl rfl rfl rfl htracked rfl hrefreshing
    hstarted, proper_of_tracked rfl rfl rfl htracked⟩

/-- A start that comes after a shutdown begins nothing. -/
theorem phase_refused (h : Phase refreshMs w) (hstopped : w.session.running = false)
    (reports : List Text) :
    Phase refreshMs ⟨{ w.session with started := true }, w.now, w.due, w.polls, reports⟩ := by
  cases h with
  | idle hpoller hpolls hdue hquiet =>
      exact .idle hpoller hpolls hdue hquiet fun hc =>
        absurd (hstopped.symm.trans hc) Bool.false_ne_true
  | polling hpoller hpolls hopen hcalls hanswers htracked hdue hrefreshing =>
      exact .polling hpoller hpolls hopen hcalls hanswers htracked hdue hrefreshing rfl
  | sleeping hpoller hpolls hended hdue hquiet =>
      exact .sleeping hpoller hpolls hended hdue hquiet rfl
  | ended hpoller hpolls hdue hquiet _ hrunning =>
      exact .ended hpoller hpolls hdue hquiet rfl hrunning

/-- A shutdown leaves a poll alone, and ends a sleep at once. -/
theorem phase_stopped (h : Phase refreshMs w) (reports : List Text) :
    Phase refreshMs
      ⟨w.session.shutdown.1, w.now, w.due.map fun _ => w.now, w.polls, reports⟩ := by
  have hnone (hdue : w.due = none) : w.due.map (fun _ => w.now) = none := by
    rw [hdue, Option.map_none]
  have stopped {P : Prop} (hc : false = true) : P := absurd hc Bool.false_ne_true
  cases h with
  | idle hpoller hpolls hdue hquiet =>
      exact .idle hpoller hpolls (hnone hdue) hquiet stopped
  | polling hpoller hpolls hopen hcalls hanswers htracked hdue hrefreshing hstarted =>
      exact .polling hpoller hpolls hopen hcalls hanswers htracked (hnone hdue) hrefreshing
        hstarted
  | sleeping hpoller hpolls hended hdue hquiet hstarted =>
      exact .sleeping hpoller hpolls hended stopped hquiet hstarted
  | ended hpoller hpolls hdue hquiet hstarted =>
      exact .ended hpoller hpolls (hnone hdue) hquiet hstarted rfl

/-- The first start begins the first poll, since no session has begun one that
    was not started before. -/
theorem scheduled_started (h : Scheduled refreshMs w) (hfresh : w.session.started = false)
    (hrunning : w.session.running = true) :
    Scheduled refreshMs (w.happen refreshMs (.event .start)) := by
  rw [happen_eq (o := .event .start) (Session.step_start_first hfresh hrunning)]
  have fresh {P : Prop} (hc : w.session.started = true) : P :=
    absurd (hfresh.symm.trans hc) Bool.false_ne_true
  cases h.phase with
  | idle _ hpolls hdue =>
      let t : Session :=
        { (w.session.setRefreshing true).notify with
          poller := .polling ⟨w.session.snapshot.blocksTip, .chain⟩
          animator := .sleeping
          started := true }
      have hbegun : Phase refreshMs
          ⟨t, w.now, none, .first w.now .chainInfo :: w.polls, w.reports ++ []⟩ ∧ _ :=
        phase_begun (t := t) (b := w.session.snapshot) rfl ⟨rfl, rfl, rfl⟩ rfl rfl _ _ _
      rcases hbegun with ⟨hphase, hproper⟩
      rw [← hdue] at hphase
      refine ⟨hphase, ?_, ?_, reports_append h.reports (.event .start)⟩
      · change (Visit.first w.now .chainInfo :: w.polls).IsChain _
        rw [hpolls]
        exact .singleton _
      · exact List.forall_mem_cons.mpr ⟨hproper, h.proper⟩
  | polling _ _ _ _ _ _ _ _ hc | sleeping _ _ _ _ _ hc | ended _ _ _ _ hc => exact fresh hc

/-- Whatever happens besides the polls, the schedule is kept. -/
theorem scheduled_occurs (h : Scheduled refreshMs w) {o : Occurrence} (ho : o.isPoll = false) :
    Scheduled refreshMs (w.happen refreshMs o) := by
  have hbeside {t requests} (hmoved : w.session.occur o = (t, requests))
      (hb : w.session.Beside t requests) : Scheduled refreshMs (w.happen refreshMs o) := by
    rw [happen_eq hmoved, hb.question, hb.due, noted_none ho]
    exact ⟨phase_beside h.phase hb _ _, h.spaced, h.proper, reports_append h.reports o⟩
  cases o with
  | subscribe | unsubscribe number =>
      exact hbeside rfl ⟨rfl, rfl, rfl, rfl, ⟨rfl, rfl, rfl⟩, rfl, fun _ _ _ => rfl⟩
  | event event =>
      generalize hstep : w.session.step event = moved
      rcases moved with ⟨t, requests⟩
      have hstepped := Session.stepped (s := w.session) event
      rw [hstep] at hstepped
      have hreports := reports_append h.reports (.event event)
      rcases beside_of_stepped hstepped ho with hb | ⟨hrunning, hfresh, rfl, -⟩ |
        ⟨hstopped, -, rfl, rfl, rfl⟩ | ⟨rfl, rfl, rfl⟩
      · exact hbeside hstep hb
      · exact scheduled_started h hfresh hrunning
      · rw [happen_eq (o := .event .start) hstep]
        exact ⟨phase_refused h.phase hstopped _, h.spaced, h.proper, hreports⟩
      · rw [happen_eq (o := .event .shutdown) hstep]
        exact ⟨phase_stopped h.phase _, h.spaced, h.proper, hreports⟩

/-- An answer that no poll waits for changes nothing. -/
theorem happen_answer_idle (hpoller : ∀ poll, w.session.poller ≠ .polling poll)
    (hpolls : ∀ v ∈ w.polls.head?, v.ended ≠ none) (answer : Rpc.Answer) :
    w.happen refreshMs (.event (.pollAnswer answer w.now)) = w := by
  have hnoted : Clocked.noted w.now none w.polls (.event (.pollAnswer answer w.now)) = w.polls := by
    cases hlist : w.polls with
    | nil => rfl
    | cons v rest =>
        rw [hlist] at hpolls
        exact congrArg (· :: rest) (if_neg (hpolls v rfl))
  rw [happen_eq (o := .event (.pollAnswer answer w.now))
    (Session.step_pollAnswer_idle hpoller answer w.now)]
  refine (congrArg₂ (Clocked.mk w.session w.now w.due) hnoted (List.append_nil _)).trans ?_
  rfl

/-- The time of the beginning is all that matters of the latest poll. -/
theorem spaced_head {v v' : Visit} {rest : List Visit} (hbegan : v'.began = v.began)
    (h : (v :: rest).IsChain (Spaced refreshMs)) : (v' :: rest).IsChain (Spaced refreshMs) := by
  cases rest with
  | nil => exact .singleton v'
  | cons u rest =>
      rw [List.isChain_cons_cons] at h ⊢
      rcases h with ⟨⟨e, hended, hnext⟩, hrest⟩
      exact ⟨⟨e, hended, hbegan.trans hnext⟩, hrest⟩

/-- An answer leads to the next question of the poll or ends it. -/
theorem scheduled_answer (h : Scheduled refreshMs w) (answer : Rpc.Answer) :
    Scheduled refreshMs (w.happen refreshMs (.event (.pollAnswer answer w.now))) := by
  have hreports := reports_append h.reports (.event (.pollAnswer answer w.now))
  have idle (hpoller : ∀ poll, w.session.poller ≠ .polling poll)
      (hpolls : ∀ v ∈ w.polls.head?, v.ended ≠ none) :
      Scheduled refreshMs (w.happen refreshMs (.event (.pollAnswer answer w.now))) := by
    rw [happen_answer_idle hpoller hpolls]
    exact h
  cases h.phase with
  | @polling poll v rest r hpoller hpolls hopen hcalls hanswers htracked hdue hrefreshing
      hstarted =>
      have hled := Poll.led_next htracked w.now answer
      have hkept := refreshing_next poll w.session.snapshot w.now answer
      have hspaced := h.spaced
      have hproper := h.proper
      rw [hpolls] at hspaced hproper
      have hrest : ∀ u ∈ rest, u.Proper := (List.forall_mem_cons.mp hproper).2
      generalize hnext : poll.next w.session.snapshot w.now answer = effect at hled hkept
      rcases effect with ⟨snapshot, redraw, move⟩
      cases move with
      | ask next =>
          have hstep := Session.step_pollAnswer_ask hpoller hnext
          rw [happen_eq (o := .event (.pollAnswer answer w.now)) hstep,
            noted_answer hpolls hopen]
          let v' := v.answered w.now answer (some next.stage.call)
          have hcalls' : (r.answered answer w.now (.ask next)).calls = v'.calls :=
            congrArg (· ++ [next.stage.call]) hcalls
          have hanswers' : (r.answered answer w.now (.ask next)).answers = v'.answers :=
            congrArg (· ++ [answer]) hanswers
          refine ⟨.polling (v := v') rfl rfl hopen hcalls' hanswers' hled hdue
              (hkept.trans hrefreshing) hstarted, spaced_head (v := v) rfl hspaced, ?_, hreports⟩
          exact List.forall_mem_cons.mpr ⟨proper_of_tracked hcalls' hanswers' hopen hled, hrest⟩
      | done outcome =>
          have hstep := Session.step_pollAnswer_done hpoller hnext
          rw [happen_eq (o := .event (.pollAnswer answer w.now)) hstep,
            noted_answer hpolls hopen]
          have hquestion : question? (if w.session.running then [.sleepPoller] else []) = none := by
            split <;> rfl
          rw [hquestion]
          let v' := v.answered w.now answer none
          have hanswers' : (r.answered answer w.now (.done outcome)).answers = v'.answers :=
            congrArg (· ++ [answer]) hanswers
          have hproper' : v'.Proper := proper_of_closed (r := r.answered answer w.now (.done outcome))
            hcalls hanswers' (Option.some_ne_none w.now) hled
          refine ⟨?_, spaced_head (v := v) rfl hspaced,
            List.forall_mem_cons.mpr ⟨hproper', hrest⟩, hreports⟩
          let due := List.foldl (Clocked.dueAfter refreshMs w.now) w.due
          by_cases hrunning : w.session.running = true
          · exact .sleeping (v := v') (e := w.now) (if_pos hrunning) rfl rfl
              (fun _ => congrArg due (if_pos hrunning)) rfl hstarted
          · refine .ended (if_neg hrunning) (fun u hu => ?_)
              ((congrArg due (if_neg hrunning)).trans hdue) rfl hstarted
              (Bool.eq_false_iff.mpr hrunning)
            rw [← Option.mem_some_iff.mp hu]
            exact Option.some_ne_none w.now
  | idle hpoller hpolls =>
      refine idle (fun poll hc => ?_) (by rw [hpolls]; exact fun v hv => absurd hv (by simp))
      exact Poller.noConfusion (hpoller.symm.trans hc)
  | sleeping hpoller hpolls hended =>
      refine idle (fun poll hc => Poller.noConfusion (hpoller.symm.trans hc)) fun v hv => ?_
      rw [hpolls] at hv
      rw [← Option.mem_some_iff.mp hv, hended]
      exact Option.some_ne_none _
  | ended hpoller hpolls =>
      exact idle (fun poll hc => Poller.noConfusion (hpoller.symm.trans hc)) hpolls

/-- When the sleep of the poller is over, the next poll begins. -/
theorem scheduled_wake (h : Scheduled refreshMs w) {d : Double} (hdue : w.due = some d) :
    Scheduled refreshMs
      ({ w with now := d, due := none }.happen refreshMs (.event .pollerWake)) := by
  have awake {P : Prop} (hc : w.due = none) : P :=
    absurd (hc.symm.trans hdue) (Option.some_ne_none d).symm
  have hreports := reports_append h.reports (.event .pollerWake)
  cases h.phase with
  | idle _ _ hc | polling _ _ _ _ _ _ hc | ended _ _ hc => exact awake hc
  | @sleeping v rest e hpoller hpolls hended hnext hquiet hstarted =>
      have hwake : w.session.step .pollerWake
          = if w.session.running then w.session.beginPoll
            else ({ w.session with poller := .ended }.leave .poller, []) := by
        unfold Session.step Session.pollerWake
        simp only [hpoller]
      by_cases hrunning : w.session.running = true
      · rw [if_pos hrunning] at hwake
        rw [happen_eq (o := .event .pollerWake) (w := { w with now := d, due := none }) hwake]
        have hd : d = e + sleepLength refreshMs :=
          Option.some.inj (hdue.symm.trans (hnext hrunning))
        let t : Session :=
          { (w.session.setRefreshing true).notify with
            poller := .polling ⟨w.session.snapshot.blocksTip, .chain⟩ }
        have hbegun : Phase refreshMs
            ⟨t, d, none, .first d .chainInfo :: w.polls, w.reports ++ []⟩ ∧ _ :=
          phase_begun (t := t) (b := w.session.snapshot) rfl ⟨rfl, rfl, rfl⟩ rfl hstarted _ _ _
        rcases hbegun with ⟨hphase, hproper⟩
        refine ⟨hphase, ?_, List.forall_mem_cons.mpr ⟨hproper, h.proper⟩, hreports⟩
        have hspaced := h.spaced
        change (Visit.first d .chainInfo :: w.polls).IsChain _
        rw [hpolls] at hspaced ⊢
        exact List.isChain_cons_cons.mpr ⟨⟨e, hended, hd⟩, hspaced⟩
      · rw [if_neg hrunning] at hwake
        rw [happen_eq (o := .event .pollerWake) (w := { w with now := d, due := none }) hwake]
        refine ⟨.ended rfl (fun u hu => ?_) rfl hquiet hstarted (Bool.eq_false_iff.mpr hrunning),
          h.spaced, h.proper, hreports⟩
        change u ∈ w.polls.head? at hu
        rw [hpolls] at hu
        rw [← Option.mem_some_iff.mp hu, hended]
        exact Option.some_ne_none e

/-- Whatever happens, the schedule is kept. -/
theorem scheduled_step (h : Scheduled refreshMs w) (occasion : Occasion) :
    Scheduled refreshMs (w.step refreshMs occasion) := by
  cases occasion with
  | pass time =>
      unfold Clocked.step
      simp only
      split
      · exact ⟨phase_beside h.phase (.refl _) time _, h.spaced, h.proper, h.reports⟩
      · exact h
  | wake =>
      unfold Clocked.step
      cases hdue : w.due with
      | none => exact h
      | some d => exact scheduled_wake h hdue
  | answer answer => exact scheduled_answer h answer
  | occurs o =>
      unfold Clocked.step
      simp only
      split
      · exact h
      · next ho => exact scheduled_occurs h (Bool.eq_false_iff.mpr ho)

/-- A poll waits for an answer exactly while the note says so. -/
theorem refreshing_iff (h : Phase refreshMs w) :
    w.session.snapshot.status.refreshing = true ↔ ∃ v ∈ w.polls.head?, v.ended = none := by
  have quiet (hquiet : w.session.snapshot.status.refreshing = false)
      (hover : ∀ v ∈ w.polls.head?, v.ended ≠ none) :
      w.session.snapshot.status.refreshing = true ↔ ∃ v ∈ w.polls.head?, v.ended = none := by
    refine ⟨fun hc => absurd (hquiet.symm.trans hc) Bool.false_ne_true, ?_⟩
    rintro ⟨v, hv, hopen⟩
    exact absurd hopen (hover v hv)
  cases h with
  | idle hpoller hpolls hdue hquiet =>
      refine quiet hquiet fun v hv => ?_
      rw [hpolls] at hv
      exact absurd hv (Option.not_mem_none v)
  | @polling poll v rest r hpoller hpolls hopen hcalls hanswers htracked hdue hrefreshing =>
      refine ⟨fun _ => ⟨v, ?_, hopen⟩, fun _ => hrefreshing⟩
      rw [hpolls]
      rfl
  | sleeping hpoller hpolls hended hdue hquiet =>
      refine quiet hquiet fun v hv => ?_
      rw [hpolls] at hv
      rw [← Option.mem_some_iff.mp hv, hended]
      exact Option.some_ne_none _
  | ended hpoller hpolls hdue hquiet => exact quiet hquiet hpolls

/-- When a poll is over and the session runs, it is known when the next one
    begins, and it does. -/
theorem next_begins (h : Phase refreshMs w) (hrunning : w.session.running = true) {v : Visit}
    {e : Double} (hv : v ∈ w.polls.head?) (hended : v.ended = some e) :
    w.due = some (e + sleepLength refreshMs) ∧
      (w.step refreshMs .wake).polls
        = .first (e + sleepLength refreshMs) .chainInfo :: w.polls := by
  cases h with
  | idle hpoller hpolls =>
      rw [hpolls] at hv
      exact absurd hv (Option.not_mem_none v)
  | polling hpoller hpolls hopen =>
      rw [hpolls] at hv
      rw [← Option.mem_some_iff.mp hv, hopen] at hended
      exact absurd hended.symm (Option.some_ne_none e)
  | ended _ _ _ _ _ hstopped => exact absurd (hstopped.symm.trans hrunning) Bool.false_ne_true
  | @sleeping v' rest e' hpoller hpolls hended' hdue =>
      rw [hpolls] at hv
      rw [← Option.mem_some_iff.mp hv, hended'] at hended
      obtain rfl : e' = e := Option.some.inj hended
      have hnext := hdue hrunning
      refine ⟨hnext, ?_⟩
      have hwake : w.session.step .pollerWake = w.session.beginPoll := by
        unfold Session.step Session.pollerWake
        simp only [hpoller, hrunning, if_true]
      unfold Clocked.step
      simp only [hnext]
      rw [happen_eq (o := .event .pollerWake)
        (w := { w with now := e' + sleepLength refreshMs, due := none }) hwake]
      rfl

end Step

/-! ### Runs -/

section Runs

variable {refreshMs : Double} {s : Session} {w : Clocked}

theorem scheduled_after (h : Scheduled refreshMs w) (run : List Occasion) :
    Scheduled refreshMs (w.after refreshMs run) := by
  induction run generalizing w with
  | nil => exact h
  | cons occasion rest ih => exact ih (scheduled_step h occasion)

theorem scheduled_initial (now : Double) : Scheduled refreshMs (.initial now) where
  phase := .idle rfl rfl rfl rfl fun _ => rfl
  spaced := .nil
  proper _ hv := absurd hv List.not_mem_nil
  reports _ hr := absurd hr List.not_mem_nil

/-- No poll is under way before the start. -/
theorem polls_of_fresh (h : Phase refreshMs w) (hfresh : w.session.started = false) :
    w.polls = [] := by
  cases h with
  | idle _ hpolls => exact hpolls
  | polling _ _ _ _ _ _ _ _ hc | sleeping _ _ _ _ _ hc | ended _ _ _ _ hc =>
      exact absurd (hfresh.symm.trans hc) Bool.false_ne_true

/-- The first start begins a poll at once. -/
theorem start_first (h : Phase refreshMs w) (hfresh : w.session.started = false)
    (hrunning : w.session.running = true) :
    (w.step refreshMs (.occurs (.event .start))).polls = [.first w.now .chainInfo] := by
  change (w.happen refreshMs (.event .start)).polls = _
  rw [happen_eq (o := .event .start) (Session.step_start_first hfresh hrunning),
    polls_of_fresh h hfresh]
  rfl

/-- Another start changes nothing. -/
theorem start_again (hstarted : w.session.started = true) :
    w.step refreshMs (.occurs (.event .start)) = w := by
  change w.happen refreshMs (.event .start) = w
  rw [happen_eq (o := .event .start) (Session.step_start_again hstarted)]
  exact congrArg (Clocked.mk w.session w.now w.due w.polls) (List.append_nil _)

/-- After a shutdown no poll begins. -/
theorem began_step (hstopped : w.session.running = false) (occasion : Occasion) :
    (w.step refreshMs occasion).polls.map Visit.began = w.polls.map Visit.began := by
  cases occasion with
  | pass time =>
      unfold Clocked.step
      simp only
      split <;> rfl
  | wake =>
      unfold Clocked.step
      cases w.due with
      | none => rfl
      | some d =>
          have hquiet : (w.session.occur (.event .pollerWake)).2 = [] := by
            change w.session.pollerWake.2 = []
            unfold Session.pollerWake
            split
            · rw [if_neg (Bool.eq_false_iff.mp hstopped)]
            · rfl
          simp only [Clocked.happen, hquiet]
          rfl
  | answer answer => exact began_noted_answer _ _ _ _ w.now
  | occurs o =>
      unfold Clocked.step
      simp only
      split
      · rfl
      · next ho =>
          have ho := Bool.eq_false_iff.mpr ho
          have hquiet : question? (w.session.occur o).2 = none := by
            cases o with
            | subscribe | unsubscribe number => rfl
            | event event =>
                change question? (w.session.step event).2 = none
                have hstepped := Session.stepped (s := w.session) event
                rcases beside_of_stepped hstepped ho with hb | ⟨hrunning, -⟩ |
                  ⟨-, -, -, -, hrequests⟩ | ⟨-, -, hrequests⟩
                · exact hb.question
                · exact absurd (hstopped.symm.trans hrunning) Bool.false_ne_true
                · rw [hrequests]
                  rfl
                · rw [hrequests]
                  rfl
          simp only [Clocked.happen, hquiet, noted_none ho]

theorem began_after (hstopped : w.session.running = false) (run : List Occasion) :
    (w.after refreshMs run).polls.map Visit.began = w.polls.map Visit.began := by
  induction run generalizing w with
  | nil => rfl
  | cons occasion rest ih =>
      have hstays : (w.step refreshMs occasion).session.running = false :=
        Bool.eq_false_iff.mpr fun hc =>
          absurd (hstopped.symm.trans ((running_step w occasion).mp hc).1) Bool.false_ne_true
      exact (ih hstays).trans (began_step hstopped occasion)

/-- A poll that is given answers runs to its end. -/
theorem quiet_of_answers (h : Scheduled refreshMs w) (answers : List Rpc.Answer)
    (hmany : ∀ v ∈ w.polls.head?, v.ended = none → 24 ≤ v.answers.length + answers.length) :
    (w.after refreshMs (answers.map .answer)).session.snapshot.status.refreshing = false := by
  induction answers generalizing w with
  | nil =>
      refine Bool.eq_false_iff.mpr fun hc => ?_
      rcases (refreshing_iff h.phase).mp hc with ⟨v, hv, hopen⟩
      have hshort := (h.proper v (List.mem_of_mem_head? hv)).short
      have hlong := hmany v hv hopen
      rw [if_pos hopen] at hshort
      rw [List.length_nil] at hlong
      omega
  | cons answer rest ih =>
      refine ih (scheduled_step h (.answer answer)) fun v' hv' hopen' => ?_
      change v' ∈ (Clocked.noted w.now _ w.polls (.event (.pollAnswer answer w.now))).head? at hv'
      cases hpolls : w.polls with
      | nil =>
          rw [hpolls] at hv'
          exact absurd hv' (Option.not_mem_none v')
      | cons v others =>
          rw [hpolls] at hv' hmany
          have hlong := hmany v rfl
          rw [List.length_cons] at hlong
          have hv' := Option.mem_some_iff.mp hv'
          -- The poll waits still, so it has been given one answer more.
          by_cases hopen : v.ended = none
          · rw [if_pos hopen] at hv'
            have hlength : v'.answers.length = v.answers.length + 1 := by
              rw [← hv']
              unfold Visit.answered
              split <;> exact List.length_append
            have hlong := hlong hopen
            omega
          · rw [if_neg hopen] at hv'
            exact absurd (hv' ▸ hopen') hopen

end Runs

/-- A whole run. The first poll begins with the start of the session, and another
    start changes nothing. Each further poll begins when the sleep after the one
    before it is over, and begins then in a session that runs; so no two are
    under way together. The questions of each are those that it should ask. The
    status says that a poll is under way exactly while one waits for an answer.
    After a shutdown none begins, and one that is under way goes on until it has
    its answers. The poller reports nothing. The sleep lasts what was asked for,
    without the fraction, and times that are not too late are exact. -/
theorem schedule (refreshMs start : Double) (run : List Occasion) :
    let w := (Clocked.initial start).after refreshMs run
    (.occurs (.event .start) ∉ run → w.polls = [] ∧ (.occurs (.event .shutdown) ∉ run →
      (w.step refreshMs (.occurs (.event .start))).polls = [.first w.now .chainInfo])) ∧
    (.occurs (.event .start) ∈ run → w.step refreshMs (.occurs (.event .start)) = w) ∧
    w.polls.IsChain (Spaced refreshMs) ∧
    (∀ v ∈ w.polls, v.Proper) ∧
    (w.session.snapshot.status.refreshing = true ↔ ∃ v ∈ w.polls.head?, v.ended = none) ∧
    (.occurs (.event .shutdown) ∉ run → ∀ v ∈ w.polls.head?, ∀ e, v.ended = some e →
      w.due = some (e + sleepLength refreshMs) ∧ (w.step refreshMs .wake).polls
        = .first (e + sleepLength refreshMs) .chainInfo :: w.polls) ∧
    (.occurs (.event .shutdown) ∈ run → ∀ later,
      (w.after refreshMs later).polls.map Visit.began = w.polls.map Visit.began) ∧
    (∀ answers : List Rpc.Answer, 24 ≤ answers.length →
      (w.after refreshMs (answers.map .answer)).session.snapshot.status.refreshing = false) ∧
    (∀ r ∈ w.reports, ∃ message, r = report Session.lookupTask message) ∧
    (sleepLength refreshMs).toInt? = some (lastsMs refreshMs) ∧
    ∀ e a, e.toInt? = some a → (a + lastsMs refreshMs).natAbs < twoPow 53 →
      (e + sleepLength refreshMs).toInt? = some (a + lastsMs refreshMs) := by
  intro w
  have hscheduled : Scheduled refreshMs w := scheduled_after (scheduled_initial start) run
  have hstarted : w.session.started = true ↔ .occurs (.event .start) ∈ run :=
    (started_after run).trans (or_iff_right Bool.false_ne_true)
  have hrunning : w.session.running = true ↔ .occurs (.event .shutdown) ∉ run :=
    (running_after run).trans (and_iff_right rfl)
  refine ⟨fun hfresh => ?_, fun hagain => start_again (hstarted.mpr hagain), hscheduled.spaced,
    hscheduled.proper, refreshing_iff hscheduled.phase, fun hgoing v hv e hended => ?_,
    fun hstopped later => ?_, fun answers hmany => ?_, hscheduled.reports,
    toInt?_sleepLength refreshMs, fun e a he hsmall => ?_⟩
  · have hfresh := Bool.eq_false_iff.mpr (mt hstarted.mp hfresh)
    exact ⟨polls_of_fresh hscheduled.phase hfresh,
      fun hgoing => start_first hscheduled.phase hfresh (hrunning.mpr hgoing)⟩
  · exact next_begins hscheduled.phase (hrunning.mpr hgoing) hv hended
  · exact began_after (Bool.eq_false_iff.mpr fun hc => hrunning.mp hc hstopped) later
  · exact quiet_of_answers hscheduled answers fun v _ _ => Nat.le_add_left_of_le hmany
  · exact Double.toInt?_add he (toInt?_sleepLength refreshMs) hsmall

/-- The first poll fails at once, and a second begins. The shutdown does not end
    that one, but none begins after it. -/
theorem schedule_sample :
    let failed : Rpc.Answer := .error .unauthorized
    let run : List Occasion := [.occurs (.event .start), .answer failed]
    let w := (Clocked.initial 7).after 1000 run
    let t := (Clocked.initial 7).after 1000 (run ++ [.wake, .occurs (.event .shutdown)])
    ((Clocked.initial 7).step 1000 (.occurs (.event .start))).polls = [.first 7 .chainInfo] ∧
      w.step 1000 (.occurs (.event .start)) = w ∧
      w.due = some (7 + sleepLength 1000) ∧
      (w.step 1000 .wake).polls = .first (7 + sleepLength 1000) .chainInfo :: w.polls ∧
      (7 + sleepLength 1000).toInt? = some 1007 ∧
      t.session.snapshot.status.refreshing = true ∧
      (t.after 1000 ((List.replicate 24 failed).map .answer)).session.snapshot.status.refreshing
        = false ∧
      ∀ later, (t.after 1000 later).polls.map Visit.began = t.polls.map Visit.began := by
  intro failed run w t
  have hgoing : .occurs (.event .shutdown) ∉ run := by
    simp only [run, failed, List.mem_cons, Occasion.occurs.injEq, Occurrence.event.injEq,
      reduceCtorEq, List.not_mem_nil, or_self, not_false_eq_true]
  have hstopped : .occurs (.event .shutdown) ∈ run ++ [.wake, .occurs (.event .shutdown)] :=
    List.mem_append_right run (List.mem_cons_of_mem _ List.mem_cons_self)
  have hopen : ∃ v ∈ t.polls.head?, v.ended = none :=
    ⟨.first (7 + sleepLength 1000) .chainInfo, rfl, rfl⟩
  have hlasts : lastsMs 1000 = 1000 := by
    have hvalue : (1000 : Double).toInt? = some 1000 := by decide +kernel
    rw [lastsMs, if_pos (by decide +kernel), Double.value_of_toInt? hvalue, Int.floor_intCast]
  have hfirst := (schedule 1000 7 []).1 List.not_mem_nil
  rcases schedule 1000 7 run with ⟨-, hagain, -, -, -, hnext, -, -, -, -, hexact⟩
  rcases hnext hgoing ⟨7, [.chainInfo], [failed], some 7⟩ rfl 7 rfl with ⟨hdue, hwake⟩
  have hexact := hexact 7 7 (by decide +kernel)
  rw [hlasts] at hexact
  rcases schedule 1000 7 (run ++ [.wake, .occurs (.event .shutdown)]) with
    ⟨-, -, -, -, hrefreshing, -, hquiet, hends, -⟩
  have ht : (Clocked.initial 7).after 1000 (run ++ [.wake, .occurs (.event .shutdown)]) = t := rfl
  rw [ht] at hends
  exact ⟨hfirst.2 List.not_mem_nil, hagain List.mem_cons_self, hdue, hwake, hexact (by decide),
    hrefreshing.mpr hopen, hends _ le_rfl, hquiet hstopped⟩

/-- A sleep that should last a millisecond and a half lasts one. -/
theorem schedule_drops_fraction :
    ¬ ∀ (refreshMs start : Double) (run : List Occasion),
      1 ≤ refreshMs → refreshMs < 2147483648 →
      ((Clocked.initial start).after refreshMs run).polls.IsChain fun newer older =>
        ∃ e, older.ended = some e ∧ newer.began = e + refreshMs := by
  intro h
  let run : List Occasion :=
    [.occurs (.event .start), .answer (.error .unauthorized), .wake]
  have hchain := h 1.5 0 run (by decide +kernel) (by decide +kernel)
  have hpolls : ((Clocked.initial 0).after 1.5 run).polls
      = [.first (0 + sleepLength 1.5) .chainInfo,
          ⟨0, [.chainInfo], [.error .unauthorized], some 0⟩] := rfl
  rw [hpolls, List.isChain_cons_cons] at hchain
  rcases hchain with ⟨⟨e, hended, hbegan⟩, -⟩
  rw [← Option.some.inj hended] at hbegan
  exact absurd hbegan (by decide +kernel)

end Monitor

end NodeWatch
