import NodeWatch.Proofs.Double.Integers
import NodeWatch.Proofs.Monitor.Polls

/-!
# The List of Recent Blocks

Which blocks a poll asks for, and what the list is after any run of polls.

A poll asks for blocks when its four core answers have arrived and tell of a tip
that the list was not fetched for. It goes down from that tip, a block at a
time, until the list is full, the first block of the chain was asked for or an
answer fails. Whatever came until then is the new list.

The tip is a double and so are the heights asked for. They are integers as long
as the tip is a safe one, which is what makes the list one without gaps.

## Main definitions

* `Poll.Room`: There is a place in the list, and a block for it.
* `Poll.Tracking`, `Poll.Closed`: What is known of the questions of a poll.
* `Poll.Record.Honest`: The node tells of blocks that it was asked for.
* `Descending`: Blocks without a gap, from the newest on.

## Theorems

* `led_next`: What an answer does to the questions of a poll.
* `listing_of_run`: What is known of the questions of the last poll of a run.
* `consecutive_of_tracked`: A poll leaves no gap in the lists.
* `run_blocks`: The list of blocks at any point of a run.
-/

namespace NodeWatch

namespace Monitor

open Rpc (Call)

namespace Poll

/-- The questions for a number of blocks, from a tip downwards. -/
def blockCalls (tip : Double) (count : Nat) : List Call :=
  (List.range count).map fun i => .statsAt (tip - Double.ofNat i)

/-- The four answers that make up the core of a snapshot, as they arrive. -/
def given (answers : CoreAnswers) : List Rpc.Answer :=
  [answers.chain, answers.network, answers.mempool, answers.peers].map .ok

/-- There is a place at a depth of the list, and a block for it. -/
def Room (tip : Double) (depth : Nat) : Prop :=
  depth < maxBlocks ∧ 0 ≤ tip - Double.ofNat depth

instance (tip : Double) (depth : Nat) : Decidable (Room tip depth) :=
  inferInstanceAs (Decidable (_ ∧ _))

/-- The tip of a poll is one that the list was not fetched for. -/
def Moves (r : Record) (answers : CoreAnswers) : Prop :=
  (answers.tip.equals r.before.blocksTip || decide (answers.tip ≤ 0)) = false

/-- Two snapshots have the same list of blocks, and the same list before it. -/
structure SameBlocks (s t : Snapshot) : Prop where
  blocks : s.blocks = t.blocks
  tip : s.blocksTip = t.blocksTip
  previous : s.slide.previous = t.slide.previous

/-- What is known of the questions of a poll that waits for an answer. -/
inductive Tracking (r : Record) (s : Snapshot) : Stage → Prop where
  /-- A core answer is waited for. -/
  | core {stage : Stage} {vs : List Json.Value} (hgiven : stage.given? = some vs)
      (hanswers : r.answers = vs.map .ok) (hcalls : r.calls = coreCalls.take (vs.length + 1))
      (hs : SameBlocks s r.before) : Tracking r s stage
  /-- A block is waited for, and all that were asked for before it arrived. -/
  | blocks {answers : CoreAnswers} {vs : List Json.Value}
      (hanswers : r.answers = given answers ++ vs.map .ok)
      (hcalls : r.calls = coreCalls ++ blockCalls answers.tip (vs.length + 1))
      (hmoves : Moves r answers) (hroom : ∀ i < vs.length + 1, Room answers.tip i)
      (hs : SameBlocks s r.before) : Tracking r s (.blocks answers.tip (vs.map .ofJson))

/-- What is known of the questions of a poll that is over. -/
inductive Closed (r : Record) (s : Snapshot) : Prop where
  /-- A core answer failed. -/
  | failed {vs : List Json.Value} {e : Rpc.Error} (hfew : vs.length < 4)
      (hanswers : r.answers = vs.map .ok ++ [.error e])
      (hcalls : r.calls = coreCalls.take (vs.length + 1)) (hs : SameBlocks s r.before) : Closed r s
  /-- The list was fetched for this tip. -/
  | stayed {answers : CoreAnswers} (hanswers : r.answers = given answers)
      (hcalls : r.calls = coreCalls) (hstays : ¬ Moves r answers) (hs : SameBlocks s r.before) :
      Closed r s
  /-- The list is a new one. The last answer failed, or there is no room left. -/
  | listed {answers : CoreAnswers} {vs : List Json.Value} (last : List Rpc.Answer)
      (hanswers : r.answers = given answers ++ (vs.map .ok ++ last))
      (hcalls : r.calls = coreCalls ++ blockCalls answers.tip (vs.length + last.length))
      (hmoves : Moves r answers) (hroom : ∀ i < vs.length + last.length, Room answers.tip i)
      (hlast : last = [] ∧ ¬ Room answers.tip vs.length ∨ ∃ e, last = [.error e])
      (hblocks : s.blocks = vs.map .ofJson) (htip : s.blocksTip = answers.tip)
      (hprevious : s.slide.previous = r.before.slide.previous ∨
        s.slide.previous = r.before.blocks) : Closed r s

/-- What is known of the questions of the last poll of a run. -/
def Tracked (r : Record) (s : Snapshot) : Option Poll → Prop
  | some poll => poll.listTip = r.before.blocksTip ∧ Tracking r s poll.stage
  | none => Closed r s

/-! ### One answer -/

section Answer

variable {r : Record} {s : Snapshot} {answer : Rpc.Answer} {now : Double}

theorem SameBlocks.refl (s : Snapshot) : SameBlocks s s := ⟨rfl, rfl, rfl⟩

theorem SameBlocks.withBlocks (h : SameBlocks s r.before) (blocks : List RecentBlock)
    (tip : Double) :
    (s.withBlocks blocks tip).slide.previous = r.before.slide.previous ∨
      (s.withBlocks blocks tip).slide.previous = r.before.blocks := by
  unfold Snapshot.withBlocks
  simp only
  split
  · exact .inl h.previous
  · exact .inr h.blocks

theorem blockCalls_succ (tip : Double) (n : Nat) :
    blockCalls tip (n + 1) = blockCalls tip n ++ [.statsAt (tip - Double.ofNat n)] := by
  rw [blockCalls, List.range_succ, List.map_append, List.map_singleton]
  rfl

/-- What is known of the questions of a poll holds after an answer as well. -/
def Led (r : Record) (answer : Rpc.Answer) (now : Double) (effect : Effect) : Prop :=
  Tracked (r.answered answer now effect.move) effect.snapshot effect.move.poll?

/-- The next block of a list is asked for, or the list ends for lack of room. -/
theorem led_nextBlock {poll : Poll} (hlist : poll.listTip = r.before.blocksTip) (redraw : Bool)
    {answers : CoreAnswers} (vs : List Json.Value)
    (hanswers : r.answers ++ [answer] = given answers ++ vs.map .ok)
    (hcalls : r.calls = coreCalls ++ blockCalls answers.tip vs.length)
    (hmoves : Moves r answers) (hroom : ∀ i < vs.length, Room answers.tip i)
    (hs : SameBlocks s r.before) :
    Led r answer now (poll.nextBlock s redraw answers.tip (vs.map .ofJson)) := by
  rw [nextBlock, List.length_map]
  split
  · next hnext =>
    refine ⟨hlist, Tracking.blocks hanswers ?_ hmoves (fun i hi => ?_) hs⟩
    · change r.calls ++ [.statsAt (answers.tip - Double.ofNat (vs.map RecentBlock.ofJson).length)]
        = _
      rw [List.length_map, hcalls, blockCalls_succ, List.append_assoc]
    · rcases Nat.lt_succ_iff_lt_or_eq.mp hi with hi | rfl
      · exact hroom i hi
      · exact hnext
  · next hnext =>
    refine Closed.listed [] ?_ hcalls hmoves hroom (.inl ⟨rfl, hnext⟩) rfl rfl
      (hs.withBlocks _ _)
    rw [List.append_nil]
    exact hanswers

/-- The core answers lead to the first block, or the poll ends. -/
theorem led_commit {poll : Poll} (hlist : poll.listTip = r.before.blocksTip)
    {answers : CoreAnswers} (now : Double) (hanswers : r.answers ++ [answer] = given answers)
    (hcalls : r.calls = coreCalls) (hs : SameBlocks s r.before) :
    Led r answer now (poll.commit s answers now) := by
  have hs' : SameBlocks (s.withCore answers now) r.before := ⟨hs.blocks, hs.tip, hs.previous⟩
  simp only [commit, hlist]
  split
  · next hstays =>
    refine Closed.stayed hanswers hcalls (fun hmoves => ?_) hs'
    exact Bool.false_ne_true (hmoves.symm.trans hstays)
  · next hmoves =>
    refine led_nextBlock hlist true [] ?_ hcalls ?_ (fun i hi => ?_) hs'
    · rw [List.map_nil, List.append_nil]
      exact hanswers
    · exact Bool.eq_false_iff.mpr hmoves
    · exact absurd hi (Nat.not_lt_zero i)

theorem led_ask {poll : Poll} (hlist : poll.listTip = r.before.blocksTip)
    {vs : List Json.Value} (hgiven : poll.stage.given? = some vs)
    (hanswers : r.answers ++ [answer] = vs.map .ok)
    (hcalls : r.calls ++ [poll.stage.call] = coreCalls.take (vs.length + 1))
    (hs : SameBlocks s r.before) : Led r answer now ⟨s, false, .ask poll⟩ :=
  ⟨hlist, Tracking.core hgiven hanswers hcalls hs⟩

theorem led_next {poll : Poll} (h : Tracked r s (some poll)) (now : Double)
    (answer : Rpc.Answer) : Led r answer now (poll.next s now answer) := by
  rcases poll with ⟨listTip, stage⟩
  rcases h with ⟨hlist, h⟩
  cases h with
  | @core _ vs hgiven hanswers hcalls hs =>
      cases answer with
      | error e =>
          rw [next_failed hgiven]
          refine Closed.failed (e := e) (given?_length_lt hgiven) ?_ hcalls
            ⟨hs.blocks, hs.tip, hs.previous⟩
          exact congrArg (· ++ [.error e]) hanswers
      | ok v =>
          have hmore : r.answers ++ [.ok v] = (vs ++ [v]).map .ok := by
            rw [hanswers, List.map_append, List.map_singleton]
          -- How many answers there were is known as soon as the stage is.
          cases stage with
          | chain =>
              cases hgiven
              exact led_ask hlist rfl hmore (by rw [hcalls]; rfl) hs
          | network chain =>
              cases hgiven
              exact led_ask hlist rfl hmore (by rw [hcalls]; rfl) hs
          | mempool chain network =>
              cases hgiven
              exact led_ask hlist rfl hmore (by rw [hcalls]; rfl) hs
          | peers chain network mempool =>
              cases hgiven
              exact led_commit hlist now hmore hcalls hs
          | blocks tip fetched =>
              exact absurd hgiven (by simp only [Stage.given?, reduceCtorEq, not_false_eq_true])
  | @blocks answers vs hanswers hcalls hmoves hroom hs =>
      cases answer with
      | ok v =>
          have hfetched : vs.map RecentBlock.ofJson ++ [RecentBlock.ofJson v]
              = (vs ++ [v]).map RecentBlock.ofJson := by
            rw [List.map_append, List.map_singleton]
          have hlength : (vs ++ [v]).length = vs.length + 1 := List.length_append
          change Led r _ now (nextBlock _ s false answers.tip
            (vs.map RecentBlock.ofJson ++ [RecentBlock.ofJson v]))
          rw [hfetched]
          refine led_nextBlock hlist false (vs ++ [v]) ?_ ?_ hmoves ?_ hs
          · rw [hanswers, List.map_append, List.append_assoc]
            rfl
          · rw [hlength]
            exact hcalls
          · rw [hlength]
            exact hroom
      -- The block that was asked for last is missing, and the list ends before it.
      | error e =>
          refine Closed.listed [.error e] ?_ hcalls hmoves hroom (.inr ⟨e, rfl⟩) rfl rfl
            (hs.withBlocks _ _)
          change r.answers ++ [Except.error e] = _
          rw [hanswers, List.append_assoc]

end Answer

/-! ### Integers -/

section Integers

variable {tip : Double} {n : Int} (htip : tip.toInt? = some n) (hsafe : n.natAbs < twoPow 53)
  (hpos : 0 < n)

include htip hsafe hpos

theorem toInt?_depth {i : Nat} (hi : i < maxBlocks) :
    (tip - Double.ofNat i).toInt? = some (n - i) := by
  have hfew : maxBlocks = 20 := rfl
  have hbound : twoPow 53 = 9007199254740992 := rfl
  refine Double.toInt?_sub htip (Double.toInt?_ofNat (by omega)) ?_
  omega

theorem room_iff {i : Nat} : Room tip i ↔ i < maxBlocks ∧ (i : Int) ≤ n := by
  refine and_congr_right fun hi => ?_
  rw [Double.le_iff Double.toInt?_zero (toInt?_depth htip hsafe hpos hi)]
  omega

/-- There is no room for more blocks than the list has places, nor for more
    than there are down to the first. -/
theorem count_le {count : Nat} (hroom : ∀ i < count, Room tip i) :
    count ≤ maxBlocks ∧ (count : Int) ≤ n + 1 := by
  constructor
  · by_contra hc
    exact absurd (hroom maxBlocks (by omega)).1 (Nat.lt_irrefl _)
  · by_contra hc
    have hdeep := (room_iff htip hsafe hpos).mp (hroom (count - 1) (by omega))
    omega

theorem send_depth {i : Nat} (hi : i < maxBlocks) :
    (Call.statsAt (tip - Double.ofNat i)).send
      = .ok ⟨"getblockstats", [.int (Int64.ofInt (n - i)),
        .array (Rpc.blockFields.map .string)]⟩ := by
  -- A height that a double holds exactly fits an integer of 64 bits.
  have hrange : Json.inRange (n - i) = true := by
    have hfew : maxBlocks = 20 := rfl
    have hbound : twoPow 53 = 9007199254740992 := rfl
    have hmin : Int64.minValue.toInt = -9223372036854775808 := by decide
    have hmax : Int64.maxValue.toInt = 9223372036854775807 := by decide
    rw [Json.inRange, Bool.and_eq_true, decide_eq_true_eq, decide_eq_true_eq, hmin, hmax]
    omega
  have hint : Json.intOfDouble? (tip - Double.ofNat i) = .ok (.int (Int64.ofInt (n - i))) := by
    rw [Json.intOfDouble?, toInt?_depth htip hsafe hpos hi]
    simp only [Json.int?, hrange, if_true]
  simp only [Call.send, Call.statsAt, Call.params, hint]
  rfl

end Integers

/-! ### Runs -/

/-- The node tells of safe tips, and of the blocks that it was asked for. -/
structure Record.Honest (r : Record) : Prop where
  tip : ∀ answers, coreAnswers? r.answers = some answers → answers.tip.isSafeInteger = true
  height : ∀ (i : Nat) height fields v, r.calls[i]? = some (.blockStats height fields) →
    r.answers[i]? = some (.ok v) →
    ∃ x, (v.field "height").asNumber? = some x ∧ x.equals height = true

/-- The blocks that answers tell of. -/
def blocksOf (answers : List Rpc.Answer) : List RecentBlock :=
  answers.filterMap fun answer => answer.toOption.map RecentBlock.ofJson

end Poll

/-- Blocks without a gap, from a height downwards. There are no more of them
    than the list has places, nor than there are blocks down to the first. -/
structure Descending (blocks : List RecentBlock) (top : Int) : Prop where
  heights : blocks.map (·.height.toInt?)
    = (List.range blocks.length).map fun i : Nat => some (top - i)
  places : blocks.length ≤ maxBlocks
  depth : (blocks.length : Int) ≤ top + 1

/-- The list of blocks has no gap and begins at its tip, and the list before it
    has none either. -/
structure Snapshot.Consecutive (s : Snapshot) : Prop where
  blocks : ∃ top, s.blocksTip.toInt? = some top ∧ Descending s.blocks top
  previous : ∃ top, Descending s.slide.previous top

namespace Poll

section Runs

variable {r : Record} {s : Snapshot} {poll : Option Poll} {log : List Record}

theorem consecutive_initial : Snapshot.initial.Consecutive where
  blocks := ⟨-1, by decide +kernel, rfl, by decide, by decide⟩
  previous := ⟨-1, rfl, by decide, by decide⟩

theorem SameBlocks.consecutive {t : Snapshot} (h : SameBlocks s t) (ht : t.Consecutive) :
    s.Consecutive where
  blocks := by
    rw [h.blocks, h.tip]
    exact ht.blocks
  previous := by
    rw [h.previous]
    exact ht.previous

theorem coreAnswers?_given (answers : CoreAnswers) (more : List Rpc.Answer) :
    coreAnswers? (given answers ++ more) = some answers := rfl

theorem exists_tip (h : r.Honest) {answers : CoreAnswers}
    (hanswers : coreAnswers? r.answers = some answers) :
    ∃ n, answers.tip.toInt? = some n ∧ n.natAbs < twoPow 53 := by
  have hsafe := h.tip answers hanswers
  rw [Double.isSafeInteger] at hsafe
  cases hn : answers.tip.toInt? with
  | none =>
      rw [hn] at hsafe
      exact absurd hsafe Bool.false_ne_true
  | some n =>
      rw [hn] at hsafe
      exact ⟨n, rfl, of_decide_eq_true hsafe⟩

/-- A tip that is new to the list is above the first block. -/
theorem moves_iff {answers : CoreAnswers} {n : Int} (hn : answers.tip.toInt? = some n) :
    Moves r answers ↔ 0 < answers.tip ∧ answers.tip.equals r.before.blocksTip = false := by
  rw [Moves, Bool.or_eq_false_iff, decide_eq_false_iff_not, Double.le_iff hn Double.toInt?_zero,
    Double.lt_iff Double.toInt?_zero hn, not_le, and_comm]

theorem Moves.pos {answers : CoreAnswers} (h : Moves r answers) {n : Int}
    (hn : answers.tip.toInt? = some n) : 0 < n :=
  (Double.lt_iff Double.toInt?_zero hn).mp ((moves_iff hn).mp h).1

/-- The blocks of a new list have the heights that were asked for. -/
theorem descending_of_listed (h : r.Honest) {answers : CoreAnswers} {vs : List Json.Value}
    {last : List Rpc.Answer} {n : Int}
    (hanswers : r.answers = given answers ++ (vs.map .ok ++ last))
    (hcalls : r.calls = coreCalls ++ blockCalls answers.tip (vs.length + last.length))
    (hn : answers.tip.toInt? = some n) (hsafe : n.natAbs < twoPow 53) (hpos : 0 < n)
    (hroom : ∀ i < vs.length + last.length, Room answers.tip i) :
    Descending (vs.map .ofJson) n where
  heights := by
    refine List.ext_getElem? fun i => ?_
    -- The four core questions and their answers come before those for blocks.
    by_cases hi : i < vs.length
    · have hcall : r.calls[4 + i]? = some (.statsAt (answers.tip - Double.ofNat i)) := by
        rw [hcalls, List.getElem?_append_right (Nat.le_add_right 4 i)]
        change (blockCalls answers.tip _)[4 + i - 4]? = _
        rw [Nat.add_sub_cancel_left, blockCalls, List.getElem?_map,
          List.getElem?_range (by omega), Option.map_some]
      have hanswer : r.answers[4 + i]? = some (.ok vs[i]) := by
        rw [hanswers, List.getElem?_append_right (Nat.le_add_right 4 i)]
        change (vs.map Except.ok ++ last)[4 + i - 4]? = _
        rw [Nat.add_sub_cancel_left, List.getElem?_append_left (by rw [List.length_map]; exact hi),
          List.getElem?_map, List.getElem?_eq_getElem hi, Option.map_some]
      rcases h.height _ _ _ _ hcall hanswer with ⟨x, hx, hequal⟩
      have hheight : (RecentBlock.ofJson vs[i]).height = x := by
        change ((vs[i].field "height").asNumber?).getD 0 = x
        rw [hx, Option.getD_some]
      have hdepth := toInt?_depth hn hsafe hpos (hroom i (by omega)).1
      simp only [List.getElem?_map, List.getElem?_eq_getElem hi, Option.map_some, List.length_map,
        List.getElem?_range hi, hheight, Double.toInt?_of_equals hequal hdepth]
    · have hrange : (List.range vs.length).length ≤ i := by
        rw [List.length_range]
        omega
      simp only [List.getElem?_map, List.length_map, List.getElem?_eq_none (Nat.le_of_not_lt hi),
        List.getElem?_eq_none hrange, Option.map_none]
  places := by
    have hcount := count_le hn hsafe hpos hroom
    rw [List.length_map]
    omega
  depth := by
    have hcount := count_le hn hsafe hpos hroom
    rw [List.length_map]
    omega

theorem consecutive_of_tracked (h : Tracked r s poll) (hhonest : r.Honest)
    (hbefore : r.before.Consecutive) : s.Consecutive := by
  rcases poll with _ | ⟨listTip, stage⟩
  · cases h with
    | failed _ _ _ hs => exact hs.consecutive hbefore
    | stayed _ _ _ hs => exact hs.consecutive hbefore
    | @listed answers vs last hanswers hcalls hmoves hroom hlast hblocks htip hprevious =>
        rcases exists_tip hhonest (hanswers ▸ coreAnswers?_given answers _) with ⟨n, hn, hsafe⟩
        have hpos := hmoves.pos hn
        refine ⟨⟨n, ?_, ?_⟩, ?_⟩
        · rw [htip]
          exact hn
        · rw [hblocks]
          exact descending_of_listed hhonest hanswers hcalls hn hsafe hpos hroom
        -- The list before is the one that was there, or the one before that.
        · rcases hprevious with hprevious | hprevious <;> rw [hprevious]
          · exact hbefore.previous
          · rcases hbefore.blocks with ⟨top, -, hdescending⟩
            exact ⟨top, hdescending⟩
  · cases h.2 with
    | core _ _ _ hs => exact hs.consecutive hbefore
    | blocks _ _ _ _ hs => exact hs.consecutive hbefore

/-- What is known at every point of a run of its last poll. -/
def Listing (s : Snapshot) (poll : Option Poll) : List Record → Prop
  | [] => s = .initial ∧ poll = none
  | r :: _ => r.before.Consecutive ∧ Tracked r s poll

theorem consecutive_of_listing (h : Listing s poll log) (hhonest : ∀ r ∈ log, r.Honest) :
    s.Consecutive := by
  cases log with
  | nil =>
      rw [h.1]
      exact consecutive_initial
  | cons r rest => exact consecutive_of_tracked h.2 (hhonest r List.mem_cons_self) h.1

theorem listing_of_run (h : Run s poll log) (hhonest : ∀ r ∈ log.tail, r.Honest) :
    Listing s poll log := by
  induction h with
  | start => exact ⟨rfl, rfl⟩
  -- A poll begins with the lists that the one before it left behind.
  | @begin s log _ ih =>
      have hold := ih fun r hr => hhonest r (List.mem_of_mem_tail hr)
      exact ⟨consecutive_of_listing hold hhonest, rfl,
        Tracking.core rfl rfl rfl (SameBlocks.refl s)⟩
  | answer _ now answer ih =>
      refine ⟨?_, led_next (ih hhonest).2 now answer⟩
      rw [before_answered]
      exact (ih hhonest).1

theorem notMem_coreCalls (k : Nat) (height : Double) (fields : List Text) :
    .blockStats height fields ∉ coreCalls.take k := by
  intro hc
  have hmem := List.mem_of_mem_take hc
  simp only [coreCalls, List.mem_cons, List.not_mem_nil, or_false, reduceCtorEq] at hmem

/-- A failure stands behind all that arrived. -/
theorem index_of_error {vs : List Json.Value} {last : List Rpc.Answer} {i : Nat} {e : Rpc.Error}
    (h : (vs.map Except.ok ++ last)[i]? = some (.error e)) :
    vs.length ≤ i ∧ i < vs.length + last.length := by
  have hlength := (List.getElem?_eq_some_iff.mp h).1
  rw [List.length_append, List.length_map] at hlength
  refine ⟨?_, hlength⟩
  by_contra hi
  rw [List.getElem?_append_left (by rw [List.length_map]; omega), List.getElem?_map] at h
  rcases Option.map_eq_some_iff.mp h with ⟨v, -, hv⟩
  exact absurd hv (by simp only [reduceCtorEq, not_false_eq_true])

theorem given_append (answers : CoreAnswers) (vs : List Json.Value) (last : List Rpc.Answer) :
    given answers ++ (vs.map .ok ++ last)
      = (answers.chain :: answers.network :: answers.mempool :: answers.peers :: vs).map .ok
        ++ last := rfl

theorem length_blockCalls (tip : Double) (count : Nat) :
    (coreCalls ++ blockCalls tip count).length = 4 + count := by
  rw [List.length_append, blockCalls, List.length_map, List.length_range]
  rfl

/-- The last question of a poll is the one that failed, if one did. -/
theorem length_of_error (h : Tracked r s poll) {i : Nat} {e : Rpc.Error}
    (he : r.answers[i]? = some (.error e)) : r.calls.length = i + 1 ∧ poll = none := by
  -- Something failed, which leaves the polls that end with a failure.
  have hnone : ∀ vs : List Json.Value, r.answers ≠ vs.map .ok := by
    intro vs hc
    rw [hc, ← List.append_nil (vs.map Except.ok)] at he
    rcases index_of_error he with ⟨hlow, hhigh⟩
    exact absurd (lt_of_le_of_lt hlow hhigh) (Nat.lt_irrefl _)
  rcases poll with _ | ⟨listTip, stage⟩
  · refine ⟨?_, rfl⟩
    cases h with
    | @failed vs _ hfew hanswers hcalls _ =>
        rw [hanswers] at he
        have hindex := index_of_error he
        have hfour : coreCalls.length = 4 := rfl
        rw [List.length_singleton] at hindex
        rw [hcalls, List.length_take]
        omega
    | stayed hanswers => exact absurd hanswers (hnone _)
    | @listed answers vs last hanswers hcalls _ _ hlast =>
        rw [hanswers, given_append] at he
        have hindex := index_of_error he
        rw [hcalls, length_blockCalls]
        rcases hlast with ⟨rfl, -⟩ | ⟨e, rfl⟩
        · simp only [List.length_cons, List.length_nil] at hindex
          omega
        · simp only [List.length_cons, List.length_nil] at hindex ⊢
          omega
  · cases h.2 with
    | core _ hanswers => exact absurd hanswers (hnone _)
    | @blocks answers vs hanswers =>
        have hmore := given_append answers vs []
        rw [List.append_nil, List.append_nil] at hmore
        exact absurd (hanswers.trans hmore) (hnone _)

theorem sent_of_calls {tip : Double} {n : Int} (hn : tip.toInt? = some n)
    (hsafe : n.natAbs < twoPow 53) (hpos : 0 < n) {count : Nat}
    (hcalls : r.calls = coreCalls ++ blockCalls tip count) (hroom : ∀ i < count, Room tip i) :
    r.calls.take 4 = coreCalls ∧
    (r.calls.drop 4).map Call.send = (List.range count).map fun i : Nat =>
      .ok ⟨"getblockstats", [.int (Int64.ofInt (n - i)),
        .array (Rpc.blockFields.map .string)]⟩ := by
  rw [hcalls]
  refine ⟨rfl, ?_⟩
  change (blockCalls tip count).map Call.send = _
  rw [blockCalls, List.map_map]
  refine List.map_congr_left fun i hi => ?_
  exact send_depth hn hsafe hpos (hroom i (List.mem_range.mp hi)).1

theorem blocksOf_append (vs : List Json.Value) {last : List Rpc.Answer}
    (hlast : last = [] ∨ ∃ e, last = [.error e]) :
    blocksOf (vs.map .ok ++ last) = vs.map .ofJson := by
  have harrived : blocksOf (vs.map .ok) = vs.map .ofJson := by
    rw [blocksOf, List.filterMap_map]
    exact congrFun List.filterMap_eq_map vs
  rw [blocksOf, List.filterMap_append, ← blocksOf, harrived]
  rcases hlast with rfl | ⟨e, rfl⟩
  · exact List.append_nil _
  · exact List.append_nil _

/-- Whether a poll asked for blocks, and what came of it. -/
inductive Asked (r : Record) (s : Snapshot) (poll : Option Poll) : Prop where
  | none (hs : SameBlocks s r.before)
      (hcalls : ∀ height fields, .blockStats height fields ∉ r.calls)
      (hstays : ∀ answers, coreAnswers? r.answers = some answers → ¬ Moves r answers) :
      Asked r s poll
  | blocks {answers : CoreAnswers} {n : Int} {count : Nat}
      (hanswers : coreAnswers? r.answers = some answers) (hmoves : Moves r answers)
      (hn : answers.tip.toInt? = some n) (hsafe : n.natAbs < twoPow 53)
      (hcalls : r.calls = coreCalls ++ blockCalls answers.tip count) (hcount : 0 < count)
      (hroom : ∀ i < count, Room answers.tip i)
      (hopen : poll ≠ Option.none → SameBlocks s r.before)
      (hover : poll = Option.none → s.blocksTip = answers.tip ∧
        s.blocks = blocksOf (r.answers.drop 4) ∧
        (count = maxBlocks ∨ (count : Int) = n + 1 ∨
          ∃ e, r.answers.getLast? = some (.error e))) : Asked r s poll

theorem room_zero {tip : Double} {n : Int} (hn : tip.toInt? = some n)
    (hsafe : n.natAbs < twoPow 53) (hpos : 0 < n) : Room tip 0 :=
  (room_iff hn hsafe hpos).mpr ⟨by decide, by omega⟩

/-- As long as fewer than four answers arrived there are no core answers. -/
theorem coreAnswers?_few {vs : List Json.Value} {last : List Rpc.Answer} (hfew : vs.length < 4)
    (hlast : last = [] ∨ ∃ e, last = [.error e]) (answers : CoreAnswers) :
    coreAnswers? (vs.map .ok ++ last) ≠ some answers := by
  intro hc
  rcases hlast with rfl | ⟨e, rfl⟩
  · have hmany := length_of_coreAnswers? hc
    rw [List.append_nil, List.length_map] at hmany
    omega
  · have hfailure := coreFailure?_append vs e hfew
    rw [coreFailure?_eq_none hc] at hfailure
    exact absurd hfailure (by simp only [reduceCtorEq, not_false_eq_true])

theorem asked_of_listed (hhonest : r.Honest) {answers : CoreAnswers} {vs : List Json.Value}
    {last : List Rpc.Answer} (hanswers : r.answers = given answers ++ (vs.map .ok ++ last))
    (hcalls : r.calls = coreCalls ++ blockCalls answers.tip (vs.length + last.length))
    (hmoves : Moves r answers) (hroom : ∀ i < vs.length + last.length, Room answers.tip i)
    (hlast : last = [] ∧ ¬ Room answers.tip vs.length ∨ ∃ e, last = [.error e])
    (hblocks : s.blocks = vs.map .ofJson) (htip : s.blocksTip = answers.tip) :
    Asked r s none := by
  have htold : coreAnswers? r.answers = some answers := hanswers ▸ coreAnswers?_given answers _
  rcases exists_tip hhonest htold with ⟨n, hn, hsafe⟩
  have hpos := hmoves.pos hn
  refine Asked.blocks htold hmoves hn hsafe hcalls ?_ hroom (absurd rfl) fun _ => ⟨htip, ?_, ?_⟩
  -- A tip above the first block leaves room for one question at least.
  · by_contra hc
    rcases hlast with ⟨-, hnone⟩ | ⟨e, rfl⟩
    · rw [show vs.length = 0 by omega] at hnone
      exact hnone (room_zero hn hsafe hpos)
    · rw [List.length_singleton] at hc
      omega
  · rw [hblocks, hanswers]
    exact (blocksOf_append vs (hlast.imp_left And.left)).symm
  · rcases hlast with ⟨rfl, hnone⟩ | ⟨e, rfl⟩
    · rw [room_iff hn hsafe hpos, not_and_or] at hnone
      have hcount := count_le hn hsafe hpos hroom
      rw [List.length_nil, Nat.add_zero] at hcount ⊢
      omega
    · refine .inr (.inr ⟨e, ?_⟩)
      rw [hanswers, ← List.append_assoc]
      exact List.getLast?_concat

theorem asked_of_tracked (h : Tracked r s poll) (hhonest : r.Honest) : Asked r s poll := by
  rcases poll with _ | ⟨listTip, stage⟩
  · cases h with
    | failed hfew hanswers hcalls hs =>
        refine Asked.none hs (fun height fields => ?_) fun answers hc => ?_
        · rw [hcalls]
          exact notMem_coreCalls _ height fields
        · exact absurd (hanswers ▸ hc) (coreAnswers?_few hfew (.inr ⟨_, rfl⟩) answers)
    | @stayed answers hanswers hcalls hstays hs =>
        refine Asked.none hs (fun height fields => ?_) fun other hother => ?_
        · rw [hcalls]
          exact notMem_coreCalls 4 height fields
        · rw [hanswers] at hother
          rw [← Option.some.inj hother]
          exact hstays
    | listed last hanswers hcalls hmoves hroom hlast hblocks htip =>
        exact asked_of_listed hhonest hanswers hcalls hmoves hroom hlast hblocks htip
  · cases h.2 with
    | core hgiven hanswers hcalls hs =>
        refine Asked.none hs (fun height fields => ?_) fun answers hc => ?_
        · rw [hcalls]
          exact notMem_coreCalls _ height fields
        · rw [hanswers, ← List.append_nil (List.map _ _)] at hc
          exact absurd hc (coreAnswers?_few (given?_length_lt hgiven) (.inl rfl) answers)
    | @blocks answers vs hanswers hcalls hmoves hroom hs =>
        have htold : coreAnswers? r.answers = some answers :=
          hanswers ▸ coreAnswers?_given answers _
        rcases exists_tip hhonest htold with ⟨n, hn, hsafe⟩
        exact Asked.blocks htold hmoves hn hsafe hcalls (Nat.succ_pos _) hroom (fun _ => hs)
          (absurd · (Option.some_ne_none _))

/-- The list of blocks at any point of a run of polls. It has no gap, nor has
    the one before it. The last poll asked for blocks exactly if its core answers
    told of a tip above the first block that the list was not fetched for, and
    then from that tip downwards. A failure was its last question. The list is
    the one that it began with as long as it is not over, or if it asked for no
    blocks; otherwise the list is what was told, and it ends for lack of room or
    with a failure. -/
theorem run_blocks (h : Run s poll log) (hhonest : ∀ r ∈ log, r.Honest) :
    s.Consecutive ∧ ∀ r rest, log = r :: rest →
      ((∃ height fields, .blockStats height fields ∈ r.calls) ↔
        ∃ answers, coreAnswers? r.answers = some answers ∧ 0 < answers.tip ∧
          answers.tip.equals r.before.blocksTip = false) ∧
      (∀ answers, coreAnswers? r.answers = some answers → 0 < answers.tip →
        answers.tip.equals r.before.blocksTip = false →
        ∃ n count, answers.tip.toInt? = some n ∧ r.calls.take 4 = coreCalls ∧
          (r.calls.drop 4).map Call.send = ((List.range count).map fun i : Nat =>
            .ok ⟨"getblockstats", [.int (Int64.ofInt (n - i)),
              .array (Rpc.blockFields.map .string)]⟩) ∧
          count ≤ maxBlocks ∧ (count : Int) ≤ n + 1 ∧
          (poll = none → s.blocksTip = answers.tip ∧ s.blocks = blocksOf (r.answers.drop 4) ∧
            (count = maxBlocks ∨ (count : Int) = n + 1 ∨
              ∃ e, r.answers.getLast? = some (.error e)))) ∧
      (∀ (i : Nat) e, r.answers[i]? = some (.error e) → r.calls.length = i + 1 ∧ poll = none) ∧
      ((poll ≠ none ∨ ∀ height fields, .blockStats height fields ∉ r.calls) →
        s.blocks = r.before.blocks ∧ s.blocksTip = r.before.blocksTip) := by
  have hlisting := listing_of_run h fun r hr => hhonest r (List.mem_of_mem_tail hr)
  refine ⟨consecutive_of_listing hlisting hhonest, ?_⟩
  rintro r rest rfl
  have herror := fun (i : Nat) e he => length_of_error (i := i) (e := e) hlisting.2 he
  cases asked_of_tracked hlisting.2 (hhonest r List.mem_cons_self) with
  | none hs hcalls hstays =>
      have hnot : ∀ answers, coreAnswers? r.answers = some answers → 0 < answers.tip →
          answers.tip.equals r.before.blocksTip = false → False := by
        intro answers hanswers hpos hmoved
        rcases exists_tip (hhonest r List.mem_cons_self) hanswers with ⟨n, hn, -⟩
        exact hstays answers hanswers ((moves_iff hn).mpr ⟨hpos, hmoved⟩)
      refine ⟨⟨?_, ?_⟩, ?_, herror, fun _ => ⟨hs.blocks, hs.tip⟩⟩
      · rintro ⟨height, fields, hc⟩
        exact absurd hc (hcalls height fields)
      · rintro ⟨answers, hanswers, hpos, hmoved⟩
        exact (hnot answers hanswers hpos hmoved).elim
      · exact fun answers hanswers hpos hmoved => (hnot answers hanswers hpos hmoved).elim
  | @blocks answers n count hanswers hmoves hn hsafe hcalls hcount hroom hopen hover =>
      have hpos := hmoves.pos hn
      have hasks : .statsAt (answers.tip - Double.ofNat 0) ∈ r.calls := by
        rw [hcalls]
        exact List.mem_append_right _ (List.mem_map_of_mem (List.mem_range.mpr hcount))
      refine ⟨⟨fun _ => ⟨answers, hanswers, (moves_iff hn).mp hmoves⟩, fun _ => ⟨_, _, hasks⟩⟩, ?_,
        herror, ?_⟩
      · intro other hother _ _
        rw [hanswers, Option.some.injEq] at hother
        subst hother
        have hsent := sent_of_calls hn hsafe hpos hcalls hroom
        have hbounds := count_le hn hsafe hpos hroom
        exact ⟨n, count, hn, hsent.1, hsent.2, hbounds.1, hbounds.2, hover⟩
      · rintro (hgoes | hnone)
        · exact ⟨(hopen hgoes).blocks, (hopen hgoes).tip⟩
        · exact absurd hasks (hnone _ _)

/-- The record of a poll that is told of one block, and then that the next one
    is missing. -/
def oneBlock (s : Snapshot) (answers : CoreAnswers) (v : Json.Value) (e : Rpc.Error)
    (now : Double) : Record where
  before := s
  calls := coreCalls ++ [(Stage.blocks answers.tip []).call] ++
    [(Stage.blocks answers.tip [.ofJson v]).call]
  answers := given answers ++ [.ok v] ++ [.error e]
  times := List.replicate 6 now
  outcome := some (.polled answers.tip (some 1))

section OneBlock

variable {answers : CoreAnswers} {v : Json.Value} {e : Rpc.Error}

theorem run_oneBlock (h : Run s none log) (answers : CoreAnswers) (v : Json.Value) (e : Rpc.Error)
    (now : Double)
    (hmoves : (answers.tip.equals s.blocksTip || decide (answers.tip ≤ 0)) = false)
    (hfirst : Room answers.tip 0) (hsecond : Room answers.tip 1) :
    Run ((s.withCore answers now).withBlocks [.ofJson v] answers.tip) none
      (oneBlock s answers v e now :: log) := by
  have hblock : Poll.next ⟨s.blocksTip, .blocks answers.tip []⟩ (s.withCore answers now) now (.ok v)
      = ⟨s.withCore answers now, false, .ask ⟨s.blocksTip, .blocks answers.tip [.ofJson v]⟩⟩ :=
    if_pos hsecond
  have told := run_told h answers now hmoves hfirst.2
  have shown := told.answer now (.ok v)
  rw [hblock] at shown
  exact shown.answer now (.error e)

theorem honest_oneBlock (s : Snapshot) (e : Rpc.Error) (now : Double)
    (hsafe : answers.tip.isSafeInteger = true) {x : Double}
    (hx : (v.field "height").asNumber? = some x)
    (hequal : x.equals (answers.tip - Double.ofNat 0) = true) :
    (oneBlock s answers v e now).Honest where
  tip := fun _ hother => Option.some.inj hother ▸ hsafe
  height := by
    intro i height fields w hcall hanswer
    rcases i with _ | _ | _ | _ | _ | _ | i
    · exact absurd (Option.some.inj hcall) (by simp only [reduceCtorEq, not_false_eq_true])
    · exact absurd (Option.some.inj hcall) (by simp only [reduceCtorEq, not_false_eq_true])
    · exact absurd (Option.some.inj hcall) (by simp only [reduceCtorEq, not_false_eq_true])
    · exact absurd (Option.some.inj hcall) (by simp only [reduceCtorEq, not_false_eq_true])
    · have hasked : (Stage.blocks answers.tip []).call = .blockStats height fields :=
        Option.some.inj hcall
      have htold : v = w := Except.ok.inj (Option.some.inj hanswer)
      rw [← (Call.blockStats.inj hasked).1, ← htold]
      exact ⟨x, hx, hequal⟩
    · exact absurd (Option.some.inj hanswer) (by simp only [reduceCtorEq, not_false_eq_true])
    · exact absurd hanswer (Option.some_ne_none _).symm

end OneBlock

/-- Core answers that tell of a tip. -/
def sampleAnswers (tip : Int64) : CoreAnswers :=
  ⟨.object [("blocks", .int tip)], .null, .null, .null⟩

/-- A block at a height. -/
def sampleBlock (height : Int64) : Json.Value := .object [("height", .int height)]

/-- Two polls, at one tip and at the next. Both are told of the block at the tip
    and no other, and the list of the first one makes way for that of the second. -/
theorem run_blocks_sample :
    ∃ s log, Run s none log ∧ (∀ r ∈ log, r.Honest) ∧ s.Consecutive ∧
      s.blocks = [.ofJson (sampleBlock 2)] ∧ s.slide.previous = [.ofJson (sampleBlock 1)] := by
  have first := run_oneBlock Run.start (sampleAnswers 1) (sampleBlock 1) (.other "gone") 1
    (by decide +kernel) (by decide +kernel) (by decide +kernel)
  have second := run_oneBlock first (sampleAnswers 2) (sampleBlock 2) (.other "gone") 2
    (by decide +kernel) (by decide +kernel) (by decide +kernel)
  have hfirst : ∀ s, (oneBlock s (sampleAnswers 1) (sampleBlock 1) (.other "gone") 1).Honest :=
    fun s => honest_oneBlock s _ _ (by decide +kernel) rfl (by decide +kernel)
  have hsecond : ∀ s, (oneBlock s (sampleAnswers 2) (sampleBlock 2) (.other "gone") 2).Honest :=
    fun s => honest_oneBlock s _ _ (by decide +kernel) rfl (by decide +kernel)
  have hboth := run_blocks second <|
    List.forall_mem_cons.mpr ⟨hsecond _, List.forall_mem_singleton.mpr (hfirst _)⟩
  exact ⟨_, _, second,
    List.forall_mem_cons.mpr ⟨hsecond _, List.forall_mem_singleton.mpr (hfirst _)⟩, hboth.1,
    rfl, rfl⟩

end Runs

end Poll

end Monitor

end NodeWatch
