import NodeWatch.Proofs.Simulation.Sleeping

/-!
# Punctual Worlds

A world in virtual time lets jobs take turns, ends sleeps one by one and moves
its clock by itself, with bounds on the number of steps that were computed
beforehand. None of this is seen from outside: whatever is done to a world, its
session is one on a clock of its own, `keeps_time`. What is known of every such
session is therefore known of the session of a world, whatever its nodes answer.

The bounds matter here. If a job were left when the world has settled, or a
sleep when time has passed, then the poller would wake up late. No job is left
because the questions that are left pay for all turns. No sleep is left because
at any millisecond at most two end, and what they lead to ends later.

## Main definitions

* `World.Runs`: A world that runs beside a clock.
* `World.Deed`, `World.deeds`: What is done to a world from outside.

## Theorems

* `runs_settle`: What happens while no time passes.
* `runs_wake`: The sleep that ends first.
* `runs_fire`, `runs_advance`: Time passes.
* `keeps_time`: Any run of a world.
-/

namespace NodeWatch

namespace Simulation

open Monitor (Session Event Clocked Scheduled)

namespace World

/-- A world that runs beside a clock. -/
structure Runs (ms : Double) (w : World) (c : Clocked) (a : Int) : Prop where
  agrees : w.Agrees ms c
  scheduled : Scheduled ms c
  timely : w.Timely a
  balanced : w.Balanced

section Passing

variable {w : World} {c : Clocked} {ms : Double} {a : Int}

/-- While no time passes, the sleeps that are added are over later. -/
theorem runs_settle (h : w.Runs ms c a) (ha : Early a) :
    ∃ run, w.settle.Runs ms (c.after ms run) a ∧
      ∀ s ∈ w.settle.sleeps, s ∈ w.sleeps ∨ a < s.time := by
  have hdrain : (w.drain w.work).Timely a ∧ (w.drain w.work).Balanced ∧
      ∀ s ∈ (w.drain w.work).sleeps, s ∈ w.sleeps ∨ a < s.time := by
    refine drain_invariant (P := fun u => u.Timely a ∧ u.Balanced ∧
      ∀ s ∈ u.sleeps, s ∈ w.sleeps ∨ a < s.time) ?_ _ ⟨h.timely, h.balanced, fun s => .inl⟩
    rintro u turns job rest hjobs ⟨htimely, hbalanced, hsleeps⟩
    rcases timely_turn htimely ha with ⟨hnext, hmore⟩
    exact ⟨hnext, balanced_turn hbalanced hjobs, fun s hs => (hmore s hs).elim (hsleeps s) .inr⟩
  rcases hdrain with ⟨htimely, hbalanced, hsleeps⟩
  rcases agrees_settle h.agrees h.scheduled with ⟨run, hagrees⟩
  exact ⟨run, ⟨hagrees, Monitor.scheduled_after h.scheduled run,
    ⟨htimely.now, htimely.sleeps, htimely.numbers, htimely.below⟩,
    ⟨hbalanced.animator, hbalanced.unstarted⟩⟩, hsleeps⟩

/-- The clock has no other sleep than the world has. -/
theorem exists_sleep (h : w.Agrees ms c) (hjobs : w.jobs = []) {d : Double} (hd : d ∈ c.due) :
    ∃ s ∈ w.sleeps, s.due = d := by
  have hmem : d ∈ w.pending .poller := by
    rw [← h.due]
    exact Option.mem_toList.mpr hd
  rw [pending_idle hjobs] at hmem
  rcases List.mem_map.mp hmem with ⟨s, hs, rfl⟩
  exact ⟨s, List.mem_of_mem_filter hs, rfl⟩

/-- Time can pass on the clock as long as no sleep of the world is over. -/
theorem pass_eq (h : w.Runs ms c a) (hjobs : w.jobs = []) {d : Double} {k : Int}
    (hd : d.toInt? = some k) (hle : a ≤ k) (hall : ∀ s ∈ w.sleeps, k ≤ s.time) :
    c.step ms (.pass d) = { c with now := d } := by
  refine if_pos ⟨?_, fun x hx => ?_⟩
  · rw [h.agrees.now]
    exact (Double.le_iff h.timely.now hd).mpr hle
  · rcases exists_sleep h.agrees hjobs hx with ⟨s, hs, rfl⟩
    exact (Double.le_iff hd (h.timely.sleeps s hs).1).mpr (hall s hs)

/-- The sleep that is over first ends, and time passes until then. -/
theorem runs_wake (h : w.Runs ms c a) (hjobs : w.jobs = []) {s : Sleep Job} (hs : s ∈ w.sleeps)
    (hfirst : ∀ u ∈ w.sleeps, s.time ≤ u.time) (hearly : Early s.time) :
    ∃ run, (w.wake s).Runs ms (c.after ms run) s.time ∧
      ∀ u ∈ (w.wake s).sleeps, u ∈ w.sleeps.filter (fun u => u.number ≠ s.number) ∨
        s.time < u.time := by
  rcases h.timely.sleeps s hs with ⟨hwhole, hlater, -⟩
  have hover := pending_over hjobs h.timely.numbers hs
  let u : World := { w with
    now := s.due
    sleeps := w.sleeps.filter fun u => u.number ≠ s.number }.enqueue wakeTurns s.job
  have hsub : u.sleeps.Sublist w.sleeps := List.filter_sublist
  have hpass := pass_eq h hjobs hwhole hlater hfirst
  have hdue : c.due.toList = u.pending .poller := by
    have hperm := hover .poller
    rw [← h.agrees.due] at hperm
    cases hc : c.due with
    | none =>
        rw [hc] at hperm
        exact (List.nil_perm.mp hperm).symm
    | some d =>
        rw [hc] at hperm
        exact List.singleton_perm.mp hperm
  have hu : u.Runs ms { c with now := s.due } s.time := by
    refine ⟨⟨h.agrees.refreshMs, h.agrees.session, rfl, hdue, h.agrees.reports, h.agrees.held⟩,
      hpass ▸ Monitor.scheduled_step h.scheduled _, ⟨hwhole, fun v hv => ?_, ?_, fun v hv => ?_⟩,
      ⟨(hover .animator).length_eq.symm.trans h.balanced.animator, h.balanced.unstarted⟩⟩
    · have hv := hsub.mem hv
      exact ⟨(h.timely.sleeps v hv).1, hfirst v hv, (h.timely.sleeps v hv).2.2⟩
    · exact (hsub.map _).nodup h.timely.numbers
    · exact h.timely.below v (hsub.mem hv)
  rcases runs_settle hu hearly with ⟨run, hrun, hsleeps⟩
  refine ⟨.pass s.due :: run, ?_, hsleeps⟩
  change World.Runs ms _ ((c.step ms (.pass s.due)).after ms run) _
  rw [hpass]
  exact hrun

/-- There are two sleeps at a time at most. -/
theorem length_sleeps_le (h : w.Runs ms c a) (hjobs : w.jobs = []) : w.sleeps.length ≤ 2 := by
  have hpoller : (w.sleeps.filter fun s => s.job.sleeper? = some .poller).length ≤ 1 := by
    have hdue := congrArg List.length h.agrees.due
    rw [pending_idle hjobs, List.length_map] at hdue
    rw [← hdue]
    cases c.due with
    | none => exact Nat.zero_le 1
    | some d => exact Nat.le_refl 1
  have hanimator : (w.sleeps.filter fun s => s.job.sleeper? = some .animator).length ≤ 1 := by
    have hone := h.balanced.animator
    rw [pending_idle hjobs, List.length_map] at hone
    rw [hone]
    split
    · exact Nat.le_refl 1
    · exact Nat.zero_le 1
  rw [length_eq_sleepers fun s hs => (h.timely.sleeps s hs).2.2]
  omega

/-- One sleep less ends at the time at hand when the first one is over. -/
theorem count_wake {s : Sleep Job} (hs : s ∈ w.sleeps)
    (hnumbers : (w.sleeps.map (·.number)).Nodup) {sleeps : List (Sleep Job)}
    (hnodup : (sleeps.map (·.number)).Nodup)
    (hall : ∀ u ∈ sleeps, u ∈ w.sleeps.filter (fun u => u.number ≠ s.number) ∨ s.time < u.time) :
    (sleeps.countP fun u => u.time = s.time) + 1 ≤ w.sleeps.countP fun u => u.time = s.time := by
  have hsubset : sleeps.filter (fun u => u.time = s.time)
      ⊆ (w.sleeps.filter fun u => u.number ≠ s.number).filter fun u => u.time = s.time := by
    intro u hu
    rcases List.mem_filter.mp hu with ⟨hmem, htime⟩
    have hsame := of_decide_eq_true htime
    refine List.mem_filter.mpr ⟨(hall u hmem).resolve_right fun hc => ?_, htime⟩
    exact absurd hsame hc.ne'
  have hfew := (List.subperm_of_subset (hnodup.of_map.filter _) hsubset).length_le
  have hone : (s :: w.sleeps.filter fun u => u.number ≠ s.number).countP
        (fun u => decide (u.time = s.time))
      = ((w.sleeps.filter fun u => u.number ≠ s.number).countP fun u => u.time = s.time) + 1 :=
    List.countP_cons_of_pos (decide_eq_true rfl)
  rw [(perm_number hs hnumbers).countP_eq, hone, List.countP_eq_length_filter,
    List.countP_eq_length_filter]
  exact Nat.succ_le_succ hfew

/-- The sleeps that end by a given time end one after the other. At any time two
    end at most, and others are over later; so there are no more of them than
    expected. -/
theorem runs_fire {stop : Double} {z : Int} (hstop : stop.toInt? = some z) (hz : Early z)
    (fuel : Nat) (h : w.Runs ms c a) (ha : Early a) (hjobs : w.jobs = []) (hle : a ≤ z)
    (hfuel : 2 * (z - a).toNat + w.sleeps.countP (fun s => s.time = a) ≤ fuel) :
    ∃ run b, (w.fire stop fuel).Runs ms (c.after ms run) b ∧ (w.fire stop fuel).jobs = [] ∧
      b ≤ z ∧ ∀ s ∈ (w.fire stop fuel).sleeps, z < s.time := by
  induction fuel generalizing w c a with
  | zero =>
      refine ⟨[], a, h, hjobs, hle, fun s hs => ?_⟩
      have hlater := (h.timely.sleeps s hs).2.1
      have hnone := List.countP_eq_zero.mp (Nat.eq_zero_of_add_eq_zero_left
        (Nat.le_zero.mp hfuel)) s hs
      have hother : s.time ≠ a := fun hc => hnone (decide_eq_true hc)
      omega
  | succ fuel ih =>
      by_cases hsome : w.sleeps = []
      · have hfire : w.fire stop (fuel + 1) = w := by
          rw [fire, hsome]
          rfl
        rw [hfire]
        exact ⟨[], a, h, hjobs, hle, fun s hs => absurd (hsome ▸ hs) List.not_mem_nil⟩
      · rcases exists_first (fun s hs => (h.timely.sleeps s hs).1) hsome with
          ⟨g, hg, hmem, hfirst⟩
        rcases h.timely.sleeps g hmem with ⟨hwhole, hlater, -⟩
        have hdue := Double.le_iff hwhole hstop
        by_cases htime : g.time ≤ z
        · have hfire : w.fire stop (fuel + 1) = (w.wake g).fire stop fuel := by
            rw [fire, hg]
            exact if_pos (hdue.mpr htime)
          have hearly : Early g.time :=
            ⟨ha.1.trans hlater, lt_of_le_of_lt (Int.add_le_add_right htime _) hz.2⟩
          rcases runs_wake h hjobs hmem hfirst hearly with ⟨run, hrun, hsleeps⟩
          have hcount := count_wake hmem h.timely.numbers hrun.timely.numbers hsleeps
          have htwo := length_sleeps_le h hjobs
          have hmost := w.sleeps.countP_le_length (p := fun u => decide (u.time = g.time))
          have hnext : 2 * (z - g.time).toNat
              + (w.wake g).sleeps.countP (fun s => s.time = g.time) ≤ fuel := by
            rcases hlater.eq_or_lt with rfl | hless
            · omega
            · omega
          rcases ih hrun hearly (jobs_settle _) htime hnext with ⟨more, b, hmore, hrest⟩
          rw [hfire]
          refine ⟨run ++ more, b, ?_, hrest⟩
          rw [Clocked.after, List.foldl_append]
          exact hmore
        · have hfire : w.fire stop (fuel + 1) = w := by
            rw [fire, hg]
            exact if_neg (mt hdue.mp htime)
          rw [hfire]
          exact ⟨[], a, h, hjobs, hle, fun s hs => (not_le.mp htime).trans_le (hfirst s hs)⟩

theorem wholeMs_of_toInt? {d : Double} {k : Int} (hd : d.toInt? = some k) :
    wholeMs d = k.toNat := by
  rw [Double.toInt?] at hd
  split at hd
  · rw [wholeMs, hd]
    rfl
  · exact absurd hd.symm (Option.some_ne_none k)

/-- Time passes, and all sleeps that end in the meantime end when they should. -/
theorem runs_advance (h : w.Runs ms c a) (ha : Early a) {d : Double} {k : Int}
    (hd : d.toInt? = some k) (hk : 0 ≤ k) (hend : Early (a + k)) :
    ∃ run, (w.advance d).Runs ms (c.after ms run) (a + k) := by
  rcases runs_settle h ha with ⟨first, hfirst, -⟩
  have hjobs := jobs_settle w
  have hfits : (a + k).natAbs < twoPow 53 := by
    have hbits : twoPow 53 = 9007199254740992 := by decide
    rcases hend with ⟨hlow, hhigh⟩
    omega
  have hstop := Double.toInt?_add hfirst.timely.now hd hfits
  have hfuel : 2 * (a + k - a).toNat + w.settle.sleeps.countP (fun s => s.time = a)
      ≤ 2 * (wholeMs d + 2) := by
    have htwo := length_sleeps_le hfirst hjobs
    have hmost := w.settle.sleeps.countP_le_length (p := fun u => decide (u.time = a))
    rw [wholeMs_of_toInt? hd]
    omega
  rcases runs_fire hstop hend _ hfirst ha hjobs (by omega) hfuel with
    ⟨more, b, hfired, hquiet, hb, hlater⟩
  let u := w.settle.fire (w.settle.now + d) (2 * (wholeMs d + 2))
  let e := (c.after ms first).after ms more
  have hpass : e.step ms (.pass (w.settle.now + d)) = { e with now := w.settle.now + d } :=
    pass_eq hfired hquiet hstop hb fun s hs => (hlater s hs).le
  have hpending (x : Sleeper) : (w.advance d).pending x = u.pending x :=
    (pending_idle (w := w.advance d) hquiet x).trans (pending_idle hquiet x).symm
  have hrun : c.after ms (first ++ more ++ [.pass (w.settle.now + d)])
      = { e with now := w.settle.now + d } := by
    rw [Clocked.after, List.foldl_append, List.foldl_append]
    exact hpass
  have hscheduled := Monitor.scheduled_step hfired.scheduled (.pass (w.settle.now + d))
  rw [hpass] at hscheduled
  have hagrees := hfired.agrees
  have htimely := hfired.timely
  refine ⟨first ++ more ++ [.pass (w.settle.now + d)], ?_⟩
  rw [hrun]
  refine ⟨⟨hagrees.refreshMs, hagrees.session, rfl, hagrees.due.trans (hpending .poller).symm,
    hagrees.reports, hagrees.held⟩, hscheduled,
    ⟨hstop, fun s hs => ?_, htimely.numbers, htimely.below⟩,
    ⟨(congrArg List.length (hpending .animator)).trans hfired.balanced.animator,
      hfired.balanced.unstarted⟩⟩
  rcases htimely.sleeps s hs with ⟨hwhole, -, hwho⟩
  exact ⟨hwhole, (hlater s hs).le, hwho⟩

end Passing

/-- What is done to a world from outside. -/
inductive Deed where
  | start
  | user (event : Monitor.UserEvent)
  | escape
  | shutdown
  | unsubscribe
  | settle
  /-- Some milliseconds pass. -/
  | advance (ms : Nat)
  /-- Answers that were held back arrive. -/
  | release (count : Option Double)
  /-- The nodes are replaced. -/
  | replace (node : ScriptedNode) (searchNode : Option ScriptedNode)

/-- The world after a deed. -/
def deed (w : World) : Deed → World
  | .start => w.act .start
  | .user event => w.act (.user event)
  | .escape => w.act .escape
  | .shutdown => w.act .shutdown
  | .unsubscribe => w.unsubscribe
  | .settle => w.settle
  | .advance ms => w.advance (Double.ofNat ms)
  | .release count => w.release count
  | .replace node searchNode => { w with node, searchNode }

/-- The milliseconds that pass in a deed. -/
def Deed.duration : Deed → Nat
  | .advance ms => ms
  | _ => 0

section Deeds

variable {w : World} {c : Clocked} {ms : Double} {a : Int}

theorem runs_beside {w' : World} (h : w.Runs ms c a) (hw : w.Beside w') : w'.Runs ms c a := by
  refine ⟨h.agrees.beside hw, h.scheduled, (timely_beside h.timely hw).1, ?_, ?_⟩
  · rw [hw.pending, hw.session]
    exact h.balanced.animator
  · rw [hw.session]
    exact h.balanced.unstarted

/-- What is done to the session happens to it on the clock, too. -/
theorem runs_act (h : w.Runs ms c a) (ha : Early a) {event : Event} (hquiet : reportOf event = [])
    (hpoll : (Session.Occurrence.event event).isPoll = false) (hevent : event ≠ .animatorWake) :
    ∃ run, (w.act event).Runs ms (c.after ms run) a := by
  have hact : w.act event = w.happen event := by
    rw [happen, hquiet, List.append_nil]
    rfl
  have hstep : c.step ms (.occurs (.event event)) = c.happen ms (.event event) :=
    if_neg (Bool.eq_false_iff.mp hpoll)
  have hagrees := agrees_happen h.agrees event fun _ => due_of_polling h.scheduled.phase
  have hscheduled := Monitor.scheduled_step h.scheduled (.occurs (.event event))
  refine ⟨[.occurs (.event event)], ?_⟩
  rw [hact]
  rw [← hstep] at hagrees
  exact ⟨hagrees, hscheduled, (timely_happen h.timely ha event).1,
    balanced_happen h.balanced hevent⟩

/-- The answers that arrive are on their way. -/
theorem runs_release (h : w.Runs ms c a) (ha : Early a) (count : Option Double) :
    ∃ run, (w.release count).Runs ms (c.after ms run) a := by
  let arrived (m n : Nat) : World := { w with
    held := (w.held.1.drop m, w.held.2.drop n)
    jobs := w.jobs ++ (w.held.1.take m ++ w.held.2.take n).map fun job => (releaseTurns, job) }
  obtain ⟨m, n, hrelease⟩ : ∃ m n, w.release count = (arrived m n).settle := ⟨_, _, rfl⟩
  have hbeside : w.Beside (arrived m n) := by
    refine { Beside.refl w with
      held := fun job hjob => .inl (List.mem_append.mpr ?_)
      jobs := ⟨_, rfl, fun j hj => ?_⟩ }
    · exact (List.mem_append.mp hjob).imp List.mem_of_mem_drop List.mem_of_mem_drop
    · rcases List.mem_map.mp hj with ⟨job, hjob, rfl⟩
      refine h.agrees.held job (List.mem_append.mpr ?_)
      exact (List.mem_append.mp hjob).imp List.mem_of_mem_take List.mem_of_mem_take
  rcases runs_settle (runs_beside h hbeside) ha with ⟨run, hrun, -⟩
  rw [hrelease]
  exact ⟨run, hrun⟩

/-- Whatever is done to the world happens to the session on the clock. -/
theorem runs_deed (h : w.Runs ms c a) (ha : Early a) (d : Deed) (hend : Early (a + d.duration)) :
    ∃ run, (w.deed d).Runs ms (c.after ms run) (a + d.duration) := by
  have hsame : a + (0 : Nat) = a := Int.add_zero a
  cases d with
  | start | user event | escape | shutdown =>
      change ∃ run, World.Runs ms (w.act _) _ (a + (0 : Nat))
      rw [hsame]
      exact runs_act h ha rfl rfl Event.noConfusion
  | unsubscribe =>
      have hscheduled := Monitor.scheduled_step h.scheduled (.occurs (.unsubscribe 0))
      have hsession : (c.session.occur (.unsubscribe 0)).1 = w.unsubscribe.session := by
        rw [h.agrees.session]
        rfl
      refine ⟨[.occurs (.unsubscribe 0)], hsame.symm ▸ ⟨⟨h.agrees.refreshMs, hsession,
        h.agrees.now, h.agrees.due, (List.append_nil _).trans h.agrees.reports, h.agrees.held⟩,
        hscheduled, ⟨h.timely.now, h.timely.sleeps, h.timely.numbers, h.timely.below⟩,
        ⟨h.balanced.animator, h.balanced.unstarted⟩⟩⟩
  | settle =>
      rcases runs_settle h ha with ⟨run, hrun, -⟩
      exact ⟨run, hsame.symm ▸ hrun⟩
  | advance n =>
      have hbits : twoPow 53 = 9007199254740992 := by decide
      have hn : (Double.ofNat n).toInt? = some (n : Int) := by
        refine Double.toInt?_ofNat ?_
        have hlow := ha.1
        have hhigh : a + n + 2147483647 < 9007199254740992 := hend.2
        omega
      exact runs_advance h ha hn (Int.natCast_nonneg n) hend
  | release count =>
      rcases runs_release h ha count with ⟨run, hrun⟩
      exact ⟨run, hsame.symm ▸ hrun⟩
  | replace node searchNode =>
      exact ⟨[], hsame.symm ▸ runs_beside h { Beside.refl w with }⟩

end Deeds

/-- The world after several deeds. -/
def deeds (w : World) (run : List Deed) : World := run.foldl deed w

/-- The milliseconds that pass in a run. -/
def duration (run : List Deed) : Nat := (run.map Deed.duration).sum

section Whole

variable {w : World} {c : Clocked} {ms : Double} {a : Int}

theorem runs_deeds (h : w.Runs ms c a) (ha : Early a) (run : List Deed)
    (hend : Early (a + duration run)) :
    ∃ occasions, (w.deeds run).Runs ms (c.after ms occasions) (a + duration run) := by
  induction run generalizing w c a with
  | nil => exact ⟨[], (Int.add_zero a).symm ▸ h⟩
  | cons d rest ih =>
      have hsum : a + duration (d :: rest) = a + d.duration + duration rest := by
        rw [duration, List.map_cons, List.sum_cons, Int.natCast_add, ← Int.add_assoc]
        rfl
      rw [hsum] at hend ⊢
      have hmiddle : Early (a + d.duration) := by
        have hlow := ha.1
        have hhigh : a + d.duration + duration rest + 2147483647 < 9007199254740992 := hend.2
        exact ⟨by omega, by omega⟩
      rcases runs_deed h ha d hmiddle with ⟨first, hfirst⟩
      rcases ih hfirst hmiddle hend with ⟨more, hmore⟩
      refine ⟨first ++ more, ?_⟩
      rw [Clocked.after, List.foldl_append]
      exact hmore

theorem runs_initial (node : ScriptedNode) (searchNode : Option ScriptedNode)
    (ms tickMs : Double) (crash : Option Text) {now : Double} (hnow : now.toInt? = some a) :
    (initial node searchNode ms tickMs now crash).Runs ms
      ((Clocked.initial now).after ms [.occurs .subscribe]) a where
  agrees := ⟨rfl, rfl, rfl, rfl, rfl, fun _ hjob => absurd hjob List.not_mem_nil⟩
  scheduled := Monitor.scheduled_after (Monitor.scheduled_initial now) _
  timely := ⟨hnow, fun _ hs => absurd hs List.not_mem_nil, List.nodup_nil,
    fun _ hs => absurd hs List.not_mem_nil⟩
  balanced := ⟨rfl, fun _ => rfl⟩

/-- A world that starts at an integer and has not got too late is a session on a
    clock, whatever is done to it and however its nodes answer: there is a run on
    the clock with the same session, the same time and the same reports. Time
    passes on that clock up to the end of a sleep and not past it, so no sleep
    of the world is over too early or too late. -/
theorem keeps_time (node : ScriptedNode) (searchNode : Option ScriptedNode) (ms tickMs : Double)
    (crash : Option Text) {now : Double} (hnow : now.toInt? = some a) (ha : Early a)
    (run : List Deed) (hend : Early (a + duration run)) :
    ∃ occasions,
      ((initial node searchNode ms tickMs now crash).deeds run).Agrees ms
        ((Clocked.initial now).after ms occasions) := by
  rcases runs_deeds (runs_initial node searchNode ms tickMs crash hnow) ha run hend with
    ⟨occasions, h⟩
  exact ⟨.occurs .subscribe :: occasions, h.agrees⟩

end Whole

end World

end Simulation

end NodeWatch
