import NodeWatch.Monitor.Poll
import NodeWatch.Proofs.Monitor.Figures

/-!
# A Run of Polls

The node is polled again and again, and every question of a poll may be
answered by anything or not at all. `Run` is such a run, one answer at a time,
with a record of every poll of it. What the snapshot shows at any point of the
run is read off the records.

The core figures of a snapshot belong together: they are what the latest poll
told whose four core answers all arrived, also while a later poll goes on or
after it failed. The reason is that a poll leaves the snapshot alone until it
has all four, and then writes them at once. `InProgress` and `Finished` say
what is known of a poll at every point of it, and one answer leads from the
first to one of the two.

## Main definitions

* `Poll.Record`: What happened in a poll.
* `Poll.coreCalls`: The questions that come first in every poll.
* `Poll.coreAnswers?`, `Poll.coreFailure?`: What became of them.
* `Poll.latest?`: The core answers that a run of polls was given last.
* `Poll.Run`: A run of polls, one answer at a time.
* `Poll.Committed`: What the core answers of a poll leave in the snapshot.
* `Poll.InProgress`, `Poll.Finished`: What is known of a poll.

## Theorems

* `known_next`: What an answer does to a poll in progress.
* `recorded_of_run`, `told_of_recorded`: What is known at every point of a run, and what the
  snapshot shows there.
* `run_snapshot`: The snapshot at any point of a run.
-/

namespace NodeWatch

namespace Monitor

namespace Poll

/-- What happened in a poll: the snapshot that it began with, what it asked
    and was answered so far and when, and how it ended. -/
structure Record where
  before : Snapshot
  calls : List Rpc.Call
  answers : List Rpc.Answer
  /-- When the answers arrived, in milliseconds. -/
  times : List Double
  outcome : Option Outcome

/-- The four core answers of a poll, if all of them arrived. -/
def coreAnswers? : List Rpc.Answer → Option CoreAnswers
  | .ok chain :: .ok network :: .ok mempool :: .ok peers :: _ =>
    some ⟨chain, network, mempool, peers⟩
  | _ => none

/-- The failure that an answer is. -/
def failure? : Rpc.Answer → Option Rpc.Error
  | .ok _ => none
  | .error e => some e

/-- The failure among the core answers of a poll. -/
def coreFailure? (answers : List Rpc.Answer) : Option Rpc.Error :=
  (answers.take 4).findSome? failure?

/-- The core answers of the latest poll that was given all four, if there was
    one; the latest poll comes first. -/
def latest? (log : List Record) : Option CoreAnswers :=
  log.findSome? fun r => coreAnswers? r.answers

/-- The record of a poll that just began. -/
def Record.begun (s : Snapshot) : Record := ⟨s, [(Poll.begin s).stage.call], [], [], none⟩

/-- The record of a poll after an answer, and after what it led to. -/
def Record.answered (r : Record) (answer : Rpc.Answer) (now : Double) : Move → Record
  | .ask poll =>
    { r with
      calls := r.calls ++ [poll.stage.call]
      answers := r.answers ++ [answer]
      times := r.times ++ [now] }
  | .done outcome =>
    { r with
      answers := r.answers ++ [answer]
      times := r.times ++ [now]
      outcome := some outcome }

/-- The poll that goes on after a move. -/
def Move.poll? : Move → Option Poll
  | .ask poll => some poll
  | .done _ => none

/-- A run of polls: the snapshot, the poll in progress, and the records of all
    polls so far, the latest first. Any answer may come at any time. -/
inductive Run : Snapshot → Option Poll → List Record → Prop where
  | start : Run .initial none []
  | begin {s : Snapshot} {log : List Record} (h : Run s none log) :
      Run s (some (Poll.begin s)) (.begun s :: log)
  | answer {s : Snapshot} {poll : Poll} {r : Record} {log : List Record}
      (h : Run s (some poll) (r :: log)) (now : Double) (answer : Rpc.Answer) :
      Run (poll.next s now answer).snapshot (poll.next s now answer).move.poll?
        (r.answered answer now (poll.next s now answer).move :: log)

/-- The questions that come first in every poll. -/
def coreCalls : List Rpc.Call := [.chainInfo, .networkInfo, .mempoolInfo, .peerInfo]

/-- The core answers that a stage has been given, while it waits for more. -/
def Stage.given? : Stage → Option (List Json.Value)
  | .chain => some []
  | .network c => some [c]
  | .mempool c n => some [c, n]
  | .peers c n m => some [c, n, m]
  | .blocks .. => none

/-- What the core answers of a poll leave in the snapshot: what they tell, and
    the note that they arrived and when the last of them did. -/
structure Committed (r : Record) (s : Snapshot) (answers : CoreAnswers) : Prop where
  asked : r.calls.take 4 = coreCalls
  arrived : coreAnswers? r.answers = some answers
  told : s.core.Told (some answers)
  connected : s.status.connected = true
  lastError : s.status.lastError = none
  lastUpdate : s.status.lastUpdate = r.times[3]?

/-- What is known of a poll in progress. -/
inductive InProgress (r : Record) (s : Snapshot) : Stage → Prop where
  /-- As long as core answers are missing nothing has been written. -/
  | core {stage : Stage} {given : List Json.Value} (hgiven : stage.given? = some given)
      (hanswers : r.answers = given.map .ok) (htimes : r.times.length = given.length)
      (hcalls : r.calls = coreCalls.take (given.length + 1)) (hs : s = r.before) :
      InProgress r s stage
  /-- The figures stand while blocks are listed. -/
  | blocks {fetched : List RecentBlock} {answers : CoreAnswers} (h : Committed r s answers)
      (hlength : r.answers.length = 4 + fetched.length) (htimes : 4 ≤ r.times.length)
      (hroom : fetched.length < maxBlocks) : InProgress r s (.blocks answers.tip fetched)

/-- What is known of a poll that is over. One that failed leaves the snapshot
    that it began with, but for the note of the failure and of when it arrived. -/
inductive Finished (r : Record) (s : Snapshot) : Prop where
  | failed {e : Rpc.Error} (hanswers : coreFailure? r.answers = some e)
      (hlength : r.answers.length ≤ 4) (hcalls : r.calls <+: coreCalls)
      (houtcome : r.outcome = some (.failed e.message))
      (hs : s = { r.before with status := { r.before.status with
        connected := false, lastError := some e.message, lastUpdate := r.times.getLast? } }) :
      Finished r s
  | polled {answers : CoreAnswers} {blocks : Option Nat} (h : Committed r s answers)
      (hlength : r.answers.length ≤ 4 + maxBlocks)
      (houtcome : r.outcome = some (.polled answers.tip blocks)) : Finished r s

/-- What is known of the last poll of a run, in progress or over. -/
def Known (r : Record) (s : Snapshot) : Option Poll → Prop
  | some poll => InProgress r s poll.stage
  | none => Finished r s

/-! ### One answer -/

section Answer

variable {r : Record} {s : Snapshot}

/-- Once four core answers arrived, what comes after them does not matter. -/
theorem coreAnswers?_append {given : List Rpc.Answer} {answers : CoreAnswers}
    (h : coreAnswers? given = some answers) (answer : Rpc.Answer) :
    coreAnswers? (given ++ [answer]) = some answers := by
  unfold coreAnswers? at h
  split at h
  · exact h
  · exact absurd h (by simp only [reduceCtorEq, not_false_eq_true])

/-- A list of blocks changes neither the core figures nor the status. -/
theorem nextBlock_cases (poll : Poll) (redraw : Bool) (tip : Double)
    (fetched : List RecentBlock) :
    (fetched.length < maxBlocks ∧ poll.nextBlock s redraw tip fetched
        = ⟨s, redraw, .ask { poll with stage := .blocks tip fetched }⟩) ∨
      poll.nextBlock s redraw tip fetched
        = ⟨s.withBlocks fetched tip, redraw, .done (.polled tip (some fetched.length))⟩ := by
  unfold nextBlock
  split
  · next h => exact .inl ⟨h.1, rfl⟩
  · exact .inr rfl

theorem before_answered (r : Record) (answer : Rpc.Answer) (now : Double) (move : Move) :
    (r.answered answer now move).before = r.before := by
  cases move <;> rfl

theorem times_answered (r : Record) (answer : Rpc.Answer) (now : Double) (move : Move) :
    (r.answered answer now move).times = r.times ++ [now] := by
  cases move <;> rfl

theorem answers_answered (r : Record) (answer : Rpc.Answer) (now : Double) (move : Move) :
    (r.answered answer now move).answers = r.answers ++ [answer] := by
  cases move <;> rfl

/-- Once the core questions were asked, they stay the first ones. -/
theorem asked_answered (h : r.calls.take 4 = coreCalls) (answer : Rpc.Answer) (now : Double)
    (move : Move) : (r.answered answer now move).calls.take 4 = coreCalls := by
  cases move with
  | ask poll =>
      have hlength : min 4 r.calls.length = 4 :=
        List.length_take.symm.trans (congrArg List.length h)
      exact (List.take_append_of_le_length (by omega)).trans h
  | done outcome => exact h

/-- What the core answers left stands whatever comes after them. -/
theorem Committed.answered {answers : CoreAnswers} (h : Committed r s answers)
    (htimes : 4 ≤ r.times.length) (answer : Rpc.Answer) (now : Double) (move : Move) :
    Committed (r.answered answer now move) s answers where
  asked := asked_answered h.asked answer now move
  arrived := by
    rw [answers_answered]
    exact coreAnswers?_append h.arrived answer
  told := h.told
  connected := h.connected
  lastError := h.lastError
  lastUpdate := by
    rw [times_answered, List.getElem?_append_left htimes]
    exact h.lastUpdate

/-- A list of blocks changes nothing that the core answers left. -/
theorem Committed.withBlocks {answers : CoreAnswers} (h : Committed r s answers)
    (blocks : List RecentBlock) (tip : Double) :
    Committed r (s.withBlocks blocks tip) answers :=
  ⟨h.asked, h.arrived, h.told, h.connected, h.lastError, h.lastUpdate⟩

/-- The next block of a list is asked for, or the list and the poll end. -/
theorem known_nextBlock (poll : Poll) (redraw : Bool) {answers : CoreAnswers} (answer : Rpc.Answer)
    (now : Double) {fetched : List RecentBlock}
    (h : ∀ move, Committed (r.answered answer now move) s answers)
    (hlength : (r.answers ++ [answer]).length = 4 + fetched.length)
    (htimes : 4 ≤ (r.times ++ [now]).length) (hfetched : fetched.length ≤ maxBlocks) :
    Known (r.answered answer now (poll.nextBlock s redraw answers.tip fetched).move)
      (poll.nextBlock s redraw answers.tip fetched).snapshot
      (poll.nextBlock s redraw answers.tip fetched).move.poll? := by
  rcases nextBlock_cases (s := s) poll redraw answers.tip fetched with ⟨hroom, hmove⟩ | hmove
  · rw [hmove]
    exact InProgress.blocks (h _) hlength htimes hroom
  · rw [hmove]
    refine Finished.polled ((h _).withBlocks ..) ?_ rfl
    change (r.answers ++ [answer]).length ≤ 4 + maxBlocks
    omega

/-- The core answers are written at once. -/
theorem known_commit (poll : Poll) (now : Double) {answers : CoreAnswers} (answer : Rpc.Answer)
    (hcalls : r.calls = coreCalls) (hanswers : coreAnswers? (r.answers ++ [answer]) = some answers)
    (hlength : (r.answers ++ [answer]).length = 4) (htimes : r.times.length = 3) :
    Known (r.answered answer now (poll.commit s answers now).move)
      (poll.commit s answers now).snapshot (poll.commit s answers now).move.poll? := by
  have hcommitted : ∀ move,
      Committed (r.answered answer now move) (s.withCore answers now) answers := by
    intro move
    refine ⟨asked_answered (congrArg (List.take 4) hcalls) answer now move, ?_,
      Core.told_of_withCore s answers now, rfl, rfl, ?_⟩
    · rw [answers_answered]
      exact hanswers
    · rw [times_answered, List.getElem?_append_right (Nat.le_of_eq htimes), htimes]
      rfl
  unfold commit
  by_cases hstay : (answers.tip.equals poll.listTip || decide (answers.tip ≤ 0)) = true
  · simp only [hstay, if_true]
    refine Finished.polled (hcommitted _) ?_ rfl
    change (r.answers ++ [answer]).length ≤ 4 + maxBlocks
    omega
  · simp only [hstay]
    refine known_nextBlock poll true answer now hcommitted hlength ?_ (Nat.zero_le _)
    rw [List.length_append, List.length_singleton]
    omega

theorem given?_length_lt {stage : Stage} {given : List Json.Value}
    (h : stage.given? = some given) : given.length < 4 := by
  cases stage <;> cases h <;> simp only [List.length_cons, List.length_nil] <;> omega

/-- A core answer that fails ends the poll and is all that it leaves. -/
theorem next_failed {poll : Poll} {given : List Json.Value} (h : poll.stage.given? = some given)
    (now : Double) (e : Rpc.Error) :
    poll.next s now (.error e)
      = ⟨s.withFailure e.message now, false, .done (.failed e.message)⟩ := by
  rcases poll with ⟨listTip, stage⟩
  cases stage with
  | blocks tip fetched => exact absurd h (by simp only [Stage.given?, reduceCtorEq,
      not_false_eq_true])
  | _ => rfl

theorem findSome?_failure?_map (vs : List Json.Value) :
    (vs.map Except.ok).findSome? failure? = none := by
  induction vs with
  | nil => rfl
  | cons v vs ih => exact ih

theorem coreFailure?_map (vs : List Json.Value) : coreFailure? (vs.map .ok) = none := by
  unfold coreFailure?
  rw [← List.map_take]
  exact findSome?_failure?_map _

theorem coreFailure?_append (given : List Json.Value) (e : Rpc.Error) (h : given.length < 4) :
    coreFailure? (given.map .ok ++ [.error e]) = some e := by
  unfold coreFailure?
  rw [List.take_of_length_le, List.findSome?_append, findSome?_failure?_map]
  · rfl
  · rw [List.length_append, List.length_map, List.length_singleton]
    omega

/-- A core answer that arrives is kept until there are four, and the next core
    question follows it. -/
theorem known_asked {v : Json.Value} {now listTip : Double} {stage : Stage}
    {given : List Json.Value} (hkept : stage.given? = some (given ++ [v]))
    (hnext : coreCalls[given.length + 1]? = some stage.call) (hanswers : r.answers = given.map .ok)
    (htimes : r.times.length = given.length)
    (hcalls : r.calls = coreCalls.take (given.length + 1)) (hs : s = r.before) :
    Known (r.answered (.ok v) now (.ask ⟨listTip, stage⟩)) s (some ⟨listTip, stage⟩) := by
  refine InProgress.core hkept ?_ ?_ ?_ hs
  · change r.answers ++ [.ok v] = _
    rw [hanswers, List.map_append, List.map_singleton]
  · change (r.times ++ [now]).length = _
    rw [List.length_append, List.length_append, htimes, List.length_singleton,
      List.length_singleton]
  · change r.calls ++ [stage.call] = _
    rw [hcalls, List.length_append, List.length_singleton,
      List.take_add_one (i := given.length + 1), hnext, Option.toList_some]

/-- What an answer does to a poll in progress. -/
theorem known_next {poll : Poll} (h : InProgress r s poll.stage) (now : Double)
    (answer : Rpc.Answer) :
    Known (r.answered answer now (poll.next s now answer).move) (poll.next s now answer).snapshot
      (poll.next s now answer).move.poll? := by
  rcases poll with ⟨listTip, stage⟩
  cases h with
  | @core _ given hgiven hanswers htimes hcalls hs =>
      cases answer with
      -- Whichever core answer failed, the poll ends and nothing else changes.
      | error e =>
          have hfew := given?_length_lt hgiven
          rw [next_failed hgiven]
          refine Finished.failed ?_ ?_ (hcalls ▸ List.take_prefix _ _) rfl ?_
          · change coreFailure? (r.answers ++ [.error e]) = some e
            rw [hanswers]
            exact coreFailure?_append _ e hfew
          · change (r.answers ++ [Except.error e]).length ≤ 4
            rw [hanswers, List.length_append, List.length_map, List.length_singleton]
            omega
          · rw [times_answered, List.getLast?_concat]
            exact congrArg (·.withFailure e.message now) hs
      | ok v =>
          cases stage with
          | chain =>
              cases hgiven
              exact known_asked rfl rfl hanswers htimes hcalls hs
          | network chain =>
              cases hgiven
              exact known_asked rfl rfl hanswers htimes hcalls hs
          | mempool chain network =>
              cases hgiven
              exact known_asked rfl rfl hanswers htimes hcalls hs
          -- The fourth answer is the one that the figures are written with.
          | peers chain network mempool =>
              cases hgiven
              refine known_commit _ now _ hcalls ?_ ?_ htimes
              · rw [hanswers]
                rfl
              · rw [hanswers]
                rfl
          | blocks tip fetched => exact absurd hgiven (by simp only [Stage.given?, reduceCtorEq,
              not_false_eq_true])
  | @blocks fetched answers hcommitted hlength htimes hroom =>
      have hlater := hcommitted.answered htimes answer now
      cases answer with
      | ok v =>
          refine known_nextBlock _ false _ now hlater ?_ ?_ ?_
          · simp only [List.length_append, List.length_singleton]
            omega
          · rw [List.length_append]
            omega
          · rw [List.length_append, List.length_singleton]
            omega
      | error e =>
          refine Finished.polled ((hlater _).withBlocks ..) ?_ rfl
          change (r.answers ++ [Except.error e]).length ≤ 4 + maxBlocks
          rw [List.length_append, List.length_singleton]
          omega

theorem redraw_nextBlock (poll : Poll) (redraw : Bool) (tip : Double)
    (fetched : List RecentBlock) : (poll.nextBlock s redraw tip fetched).redraw = redraw := by
  rcases nextBlock_cases (s := s) poll redraw tip fetched with ⟨-, h⟩ | h
  · rw [h]
  · rw [h]

/-- The core figures are never written without a request for a redraw. -/
theorem redraw_commit (poll : Poll) (answers : CoreAnswers) (now : Double) :
    (poll.commit s answers now).redraw = true := by
  unfold commit
  by_cases hstay : (answers.tip.equals poll.listTip || decide (answers.tip ≤ 0)) = true
  · simp only [hstay, if_true]
  · simp only [hstay]
    exact redraw_nextBlock poll true answers.tip []

/-- A poll that goes on without asking for a redraw has written nothing. -/
theorem snapshot_of_quiet {poll next : Poll} {now : Double} {answer : Rpc.Answer} {t : Snapshot}
    (h : poll.next s now answer = ⟨t, false, .ask next⟩) : t = s := by
  have hsnapshot := congrArg Effect.snapshot h
  have hredraw := congrArg Effect.redraw h
  have hmove := congrArg Effect.move h
  rcases poll with ⟨listTip, stage⟩
  cases answer with
  | ok v =>
      cases stage with
      | peers chain network mempool =>
          exact absurd (hredraw.symm.trans (redraw_commit _ _ now)) Bool.false_ne_true
      | blocks tip fetched =>
          -- The list of blocks is not written before it ends.
          rcases nextBlock_cases (s := s) ⟨listTip, .blocks tip fetched⟩ false tip
            (fetched ++ [RecentBlock.ofJson v]) with ⟨-, hblock⟩ | hblock
          · exact hsnapshot.symm.trans (congrArg Effect.snapshot hblock)
          · exact absurd (hmove.symm.trans (congrArg Effect.move hblock))
              (by simp only [reduceCtorEq, not_false_eq_true])
      | _ => exact hsnapshot.symm
  | error e =>
      cases stage <;> exact absurd hmove (by simp only [Poll.next, finish, reduceCtorEq,
        not_false_eq_true])

end Answer

/-! ### Runs -/

section Runs

variable {s : Snapshot} {poll : Option Poll} {log : List Record}

/-- What is known at every point of a run: before its last poll the snapshot
    showed what was told last, and what became of it since is known. -/
def Recorded (s : Snapshot) (poll : Option Poll) : List Record → Prop
  | [] => s = .initial ∧ poll = none
  | r :: rest => r.before.core.Told (latest? rest) ∧ Known r s poll

theorem length_of_coreAnswers? {given : List Rpc.Answer} {answers : CoreAnswers}
    (h : coreAnswers? given = some answers) : 4 ≤ given.length := by
  unfold coreAnswers? at h
  split at h
  · simp only [List.length_cons]
    omega
  · exact absurd h (by simp only [reduceCtorEq, not_false_eq_true])

/-- A poll whose core answers all arrived has no failure among them. -/
theorem coreFailure?_eq_none {given : List Rpc.Answer} {answers : CoreAnswers}
    (h : coreAnswers? given = some answers) : coreFailure? given = none := by
  unfold coreAnswers? at h
  split at h
  · rfl
  · exact absurd h (by simp only [reduceCtorEq, not_false_eq_true])

/-- The snapshot shows the figures that were told last. -/
theorem told_of_recorded (h : Recorded s poll log) : s.core.Told (latest? log) := by
  cases log with
  | nil =>
      rw [h.1]
      exact .initial
  | cons r rest =>
      rcases h with ⟨hbefore, hknown⟩
      -- Either the last poll has told its figures, or it has changed none.
      have hpending : coreAnswers? r.answers = none → s.core = r.before.core →
          s.core.Told (latest? (r :: rest)) := by
        intro hnone hs
        rw [hs, latest?, List.findSome?_cons, hnone]
        exact hbefore
      have htold : ∀ answers, Committed r s answers → s.core.Told (latest? (r :: rest)) := by
        intro answers hcommitted
        rw [latest?, List.findSome?_cons, hcommitted.arrived]
        exact hcommitted.told
      have hnone : (∀ answers, coreAnswers? r.answers ≠ some answers) →
          coreAnswers? r.answers = none := Option.eq_none_iff_forall_ne_some.mpr
      rcases poll with _ | ⟨listTip, stage⟩
      · cases hknown with
        | failed hfailure _ _ _ hs =>
            refine hpending (hnone fun answers hc => ?_) (by rw [hs]; rfl)
            rw [coreFailure?_eq_none hc] at hfailure
            exact absurd hfailure (by simp only [reduceCtorEq, not_false_eq_true])
        | polled hcommitted => exact htold _ hcommitted
      · cases hknown with
        | core hgiven hanswers _ _ hs =>
            refine hpending (hnone fun answers hc => ?_) (by rw [hs])
            have hfew := given?_length_lt hgiven
            have hmany := length_of_coreAnswers? hc
            rw [hanswers, List.length_map] at hmany
            omega
        | blocks hcommitted => exact htold _ hcommitted

theorem recorded_of_run (h : Run s poll log) : Recorded s poll log := by
  induction h with
  | start => exact ⟨rfl, rfl⟩
  | @begin s log _ ih =>
      exact ⟨told_of_recorded ih, InProgress.core rfl rfl rfl rfl rfl⟩
  | answer _ now answer ih =>
      refine ⟨?_, known_next ih.2 now answer⟩
      rw [before_answered]
      exact ih.1

/-- A poll is over as soon as it has an outcome. -/
theorem outcome_of_run {r : Record} (h : Run s poll (r :: log)) :
    poll = none ↔ r.outcome.isSome = true := by
  generalize hl : r :: log = records at h
  induction h generalizing r log with
  | start => exact absurd hl (List.cons_ne_nil r log)
  | begin h _ =>
      cases hl
      exact ⟨fun hc => absurd hc (Option.some_ne_none _), fun hc => absurd hc Bool.false_ne_true⟩
  | @answer s poll r log h now answer ih =>
      cases hl
      have hopen := ih rfl
      cases (poll.next s now answer).move with
      | ask poll' =>
          change some poll' = none ↔ r.outcome.isSome = true
          rw [← hopen]
          exact ⟨fun hc => absurd hc (Option.some_ne_none _),
            fun hc => absurd hc (Option.some_ne_none _)⟩
      | done outcome => exact ⟨fun _ => rfl, fun _ => rfl⟩

/-- Every question but the one that waits has its answer. -/
theorem calls_of_run {r : Record} (h : Run s poll (r :: log)) :
    r.calls.length = r.answers.length + poll.toList.length := by
  generalize hl : r :: log = records at h
  induction h generalizing r log with
  | start => exact absurd hl (List.cons_ne_nil r log)
  | begin h _ =>
      cases hl
      rfl
  | @answer s poll r log h now answer ih =>
      cases hl
      have hopen : r.calls.length = r.answers.length + 1 := ih rfl
      cases (poll.next s now answer).move with
      | ask next =>
          change (r.calls ++ [next.stage.call]).length = (r.answers ++ [answer]).length + 1
          rw [List.length_append, List.length_append, hopen]
          rfl
      | done outcome =>
          change r.calls.length = (r.answers ++ [answer]).length
          rw [List.length_append, hopen]
          rfl

/-- A poll begins with the core questions. -/
theorem asked_of_known {r : Record} (h : Known r s poll) : r.calls.take 4 <+: coreCalls := by
  rcases poll with _ | ⟨listTip, stage⟩
  · cases h with
    | failed _ _ hcalls => exact (List.take_prefix 4 r.calls).trans hcalls
    | polled hcommitted => exact hcommitted.asked ▸ List.prefix_refl coreCalls
  · cases h with
    | core _ _ _ hcalls =>
        exact (List.take_prefix 4 r.calls).trans (hcalls ▸ List.take_prefix _ coreCalls)
    | blocks hcommitted => exact hcommitted.asked ▸ List.prefix_refl coreCalls

/-- The rate goes with the difficulty that is shown, at the start as well. -/
theorem hashRate_of_told {answers : Option CoreAnswers} (h : s.core.Told answers) :
    s.hashRate = s.chain.difficulty * 4294967296 / 600 := by
  generalize hc : s.core = c at h
  cases h with
  | initial =>
      have hzero : (0 : Double) = 0 * 4294967296 / 600 := by decide +kernel
      cases s
      cases hc
      exact hzero
  | answers _ _ _ hrate _ =>
      subst hc
      exact hrate

/-- A poll asks twenty-four questions at most, and none after the last answer. -/
theorem length_of_known {r : Record} (h : Known r s poll) :
    r.answers.length ≤ 4 + maxBlocks ∧ (r.answers.length = 4 + maxBlocks → poll = none) := by
  rcases poll with _ | ⟨listTip, stage⟩
  · cases h with
    | failed _ hlength => exact ⟨by omega, fun _ => rfl⟩
    | polled _ hlength => exact ⟨hlength, fun _ => rfl⟩
  · cases h with
    | core hgiven hanswers =>
        have hfew := given?_length_lt hgiven
        rw [hanswers, List.length_map]
        exact ⟨by omega, fun _ => by omega⟩
    | blocks _ hlength _ hroom => exact ⟨by omega, fun _ => by omega⟩

/-- A poll that failed at a core answer asked for nothing but core answers and
    left the snapshot that it began with, but for the note of the failure. -/
theorem failed_of_known {r : Record} (h : Known r s poll) {e : Rpc.Error}
    (he : coreFailure? r.answers = some e) :
    r.outcome = some (.failed e.message) ∧
      s = { r.before with status := { r.before.status with
        connected := false, lastError := some e.message, lastUpdate := r.times.getLast? } } ∧
      ∀ call ∈ r.calls, call.method ≠ "getblockstats" := by
  have htold : ∀ answers, ¬ Committed r s answers := by
    intro answers hc
    rw [coreFailure?_eq_none hc.arrived] at he
    exact absurd he (by simp only [reduceCtorEq, not_false_eq_true])
  rcases poll with _ | ⟨listTip, stage⟩
  · cases h with
    | failed hfailure _ hcalls houtcome hs =>
        rw [he, Option.some.injEq] at hfailure
        subst hfailure
        have hcore : ∀ call ∈ coreCalls, call.method ≠ "getblockstats" := by decide
        exact ⟨houtcome, hs, fun call hc => hcore call (hcalls.subset hc)⟩
    | polled hcommitted => exact absurd hcommitted (htold _)
  · cases h with
    | core _ hanswers =>
        rw [hanswers, coreFailure?_map] at he
        exact absurd he (by simp only [reduceCtorEq, not_false_eq_true])
    | blocks hcommitted => exact absurd hcommitted (htold _)

/-- A poll whose core answers all arrived has noted that. -/
theorem committed_of_known {r : Record} (h : Known r s poll) {answers : CoreAnswers}
    (ha : coreAnswers? r.answers = some answers) : Committed r s answers := by
  rcases poll with _ | ⟨listTip, stage⟩
  · cases h with
    | failed hfailure =>
        rw [coreFailure?_eq_none ha] at hfailure
        exact absurd hfailure (by simp only [reduceCtorEq, not_false_eq_true])
    | polled hcommitted =>
        obtain rfl := Option.some.inj (ha.symm.trans hcommitted.arrived)
        exact hcommitted
  · cases h with
    | core hgiven hanswers =>
        have hfew := given?_length_lt hgiven
        have hmany := length_of_coreAnswers? ha
        rw [hanswers, List.length_map] at hmany
        omega
    | blocks hcommitted =>
        obtain rfl := Option.some.inj (ha.symm.trans hcommitted.arrived)
        exact hcommitted

/-- As long as neither all core answers nor a failure arrived, a poll has
    changed nothing. -/
theorem untouched_of_known {r : Record} (h : Known r s poll)
    (ha : coreAnswers? r.answers = none) (he : coreFailure? r.answers = none) :
    s = r.before := by
  rcases poll with _ | ⟨listTip, stage⟩
  · cases h with
    | failed hfailure => exact nomatch he.symm.trans hfailure
    | polled hcommitted => exact nomatch ha.symm.trans hcommitted.arrived
  · cases h with
    | core _ _ _ _ hs => exact hs
    | blocks hcommitted => exact nomatch ha.symm.trans hcommitted.arrived

/-- The snapshot at any point of a run of polls. Its core figures are those
    that the latest poll was told whose core answers all arrived, or those that
    stand at the start, and the rate goes with them. The last poll, if there was
    one, began with the core questions, one after the other, and every question
    but the one that waits has its answer. It is over after twenty-four answers at
    most and has an outcome then. Until its core answers have all arrived or one
    of them failed, it has changed nothing. If one failed, it never asked for a
    block and left the snapshot that it began with, but for the note of the
    failure; if all arrived, the note of an earlier failure is gone. -/
theorem run_snapshot (h : Run s poll log) :
    s.core.Told (latest? log) ∧ s.hashRate = s.chain.difficulty * 4294967296 / 600 ∧
      ∀ r rest, log = r :: rest →
        (r.calls.take 4).map Rpc.Call.method <+:
          ["getblockchaininfo", "getnetworkinfo", "getmempoolinfo", "getpeerinfo"] ∧
        r.calls.length = r.answers.length + poll.toList.length ∧
        r.answers.length ≤ 4 + maxBlocks ∧
        (r.answers.length = 4 + maxBlocks → poll = none) ∧
        (poll = none ↔ r.outcome.isSome = true) ∧
        (coreAnswers? r.answers = none → coreFailure? r.answers = none → s = r.before) ∧
        (∀ e, coreFailure? r.answers = some e →
          r.outcome = some (.failed e.message) ∧
          s = { r.before with status := { r.before.status with
            connected := false, lastError := some e.message, lastUpdate := r.times.getLast? } } ∧
          ∀ call ∈ r.calls, call.method ≠ "getblockstats") ∧
        ∀ answers, coreAnswers? r.answers = some answers →
          s.status.connected = true ∧ s.status.lastError = none ∧
          s.status.lastUpdate = r.times[3]? := by
  have hrecorded := recorded_of_run h
  have htold := told_of_recorded hrecorded
  refine ⟨htold, hashRate_of_told htold, ?_⟩
  rintro r rest rfl
  have hknown := hrecorded.2
  have hlength := length_of_known hknown
  refine ⟨(asked_of_known hknown).map _, calls_of_run h, hlength.1, hlength.2, outcome_of_run h,
    untouched_of_known hknown,
    fun e he => failed_of_known hknown he, fun answers ha => ?_⟩
  have hcommitted := committed_of_known hknown ha
  exact ⟨hcommitted.connected, hcommitted.lastError, hcommitted.lastUpdate⟩

/-- A poll that is given all core answers and goes on to the first block. -/
theorem run_told (h : Run s none log) (answers : CoreAnswers) (now : Double)
    (hmoves : (answers.tip.equals s.blocksTip || decide (answers.tip ≤ 0)) = false)
    (hroom : 0 ≤ answers.tip - Double.ofNat 0) :
    Run (s.withCore answers now) (some ⟨s.blocksTip, .blocks answers.tip []⟩)
      (⟨s, [.chainInfo, .networkInfo, .mempoolInfo, .peerInfo, .statsAt (answers.tip -
          Double.ofNat 0)],
        [.ok answers.chain, .ok answers.network, .ok answers.mempool, .ok answers.peers],
        [now, now, now, now], none⟩ :: log) := by
  have hcommit : Poll.next ⟨s.blocksTip, .peers answers.chain answers.network answers.mempool⟩ s
      now (.ok answers.peers)
        = ⟨s.withCore answers now, true, .ask ⟨s.blocksTip, .blocks answers.tip []⟩⟩ := by
    change commit _ s answers now = _
    simp only [commit, hmoves, Bool.false_eq_true, if_false]
    exact if_pos ⟨by decide, hroom⟩
  have asking : Run s (some ⟨s.blocksTip, .peers answers.chain answers.network answers.mempool⟩) _ :=
    ((h.begin.answer now (.ok answers.chain)).answer now (.ok answers.network)).answer now
      (.ok answers.mempool)
  have told := asking.answer now (.ok answers.peers)
  rw [hcommit] at told
  exact told

/-- Core answers of a node with one connection. -/
def sampleTold : CoreAnswers where
  chain := .object [("chain", .string "main"), ("blocks", .int 3), ("headers", .int 5),
    ("difficulty", .int 600), ("pruned", .bool true)]
  network := .object [("connections", .int 1), ("subversion", .string "/Satoshi/"),
    ("networkactive", .bool false)]
  mempool := .object [("size", .int 2), ("maxmempool", .string "300"), ("total_fee", .float 0.5)]
  peers := .array [.object [("id", .int 7), ("inbound", .bool true), ("pingtime", .float 0.25)]]

/-- The core figures that are told. What the node leaves out or tells in another
    way than as a number keeps its fallback. -/
def sampleCore : Core where
  chain := ⟨"main", 3, 5, 600, 0, true, false, ""⟩
  network := ⟨1, 0, 0, "/Satoshi/", 0, false, 0⟩
  mempool := ⟨2, 0, 0, 300000000, 0, 0.5⟩
  hashRate := 4294967296
  peers := [⟨7, "", "", "", true, 0, 0, some 250, 0, 0⟩]

/-- A poll that is told the core figures and then that there is no block, and one
    of a node that is gone after its first answer. The second leaves what the
    first one told and notes the failure. -/
theorem run_snapshot_failed :
    ∃ s r log, Run s none (r :: log) ∧ latest? (r :: log) = some sampleTold ∧
      coreFailure? r.answers = some (.other "gone") ∧ sampleCore.Told (some sampleTold) ∧
      s.core = sampleCore ∧ s.status = ⟨false, some "gone", some 3, false⟩ := by
  have told := run_told Run.start sampleTold 1 (by decide +kernel) (by decide +kernel)
  have h := ((told.answer 2 (.error (.other "none"))).begin.answer 2 (.ok sampleTold.chain)).answer
    3 (.error (.other "gone"))
  have hcore : (Snapshot.initial.withCore sampleTold 1).core = sampleCore := by decide +kernel
  have htold := (run_snapshot h).1
  exact ⟨_, _, _, h, rfl, rfl, hcore ▸ htold, hcore, rfl⟩

end Runs

end Poll

end Monitor

end NodeWatch
