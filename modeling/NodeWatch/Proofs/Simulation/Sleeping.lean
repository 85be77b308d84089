import NodeWatch.Proofs.Simulation.Agreement

/-!
# Sleeps of a World

A world keeps its sleeps in a list and lets the one go first that ends first.
When all times are integers, that one is well defined, and a sleep that is
added at some time ends later than then, whoever asked for it and for whatever
length.

The poller and the animator have one sleep at a time each. For the poller this
is known from the clock beside the world. For the animator it is a matter of
balance: it sleeps as often as one of its sleeps is pending. It goes to sleep
when the session is started, which happens once, and whenever it wakes up.

## Main definitions

* `Sleep.time`, `Sleep.Whole`: The end of a sleep as an integer.
* `Early`: A time that is exact, as the ends of the sleeps are that begin then.
* `World.Timely`: The sleeps of a world at a time.
* `World.Balanced`: The sleeps of the animator.

## Theorems

* `exists_first`: The sleep that ends first.
* `timely_turn`, `balanced_turn`: A turn of a job.
* `pending_over`: The end of a sleep.
-/

namespace NodeWatch

namespace Simulation

open Monitor (Session Event Request)

/-- When a sleep ends, as an integer. -/
def Sleep.time {α : Type} (s : Sleep α) : Int := s.due.toInt?.getD 0

section First

variable {α : Type} {sleeps : List (Sleep α)} {s : Sleep α}

/-- A sleep that is known to end at an integer. -/
def Sleep.Whole (s : Sleep α) : Prop := s.due.toInt? = some s.time

theorem endsBefore_time {a b : Sleep α} (ha : a.Whole) (hb : b.Whole) :
    if a.endsBefore b then a.time ≤ b.time else b.time ≤ a.time := by
  split
  · next h =>
    rcases (Bool.or_eq_true _ _).mp h with hless | hequal
    · exact ((Double.lt_iff ha hb).mp (of_decide_eq_true hless)).le
    · have hsame := Double.toInt?_of_equals ((Bool.and_eq_true _ _).mp hequal).1 hb
      exact (Option.some.inj (ha.symm.trans hsame)).le
  · next h =>
    refine not_lt.mp fun hless => h ?_
    exact (Bool.or_eq_true _ _).mpr (.inl (decide_eq_true ((Double.lt_iff ha hb).mpr hless)))

/-- The first of a sleep and of the one that was first before. -/
def earlier (first? : Option (Sleep α)) (s : Sleep α) : Option (Sleep α) :=
  first?.elim (some s) fun first => if s.endsBefore first then some s else some first

theorem first_eq (sleeps : List (Sleep α)) : Sleep.first sleeps = sleeps.foldl earlier none := by
  unfold Sleep.first
  congr 1
  funext first? s
  cases first? <;> rfl

/-- The first of those that were looked at ends no later than any of them. -/
theorem foldl_earlier (hs : s.Whole) (hsleeps : ∀ u ∈ sleeps, u.Whole) :
    ∃ g, sleeps.foldl earlier (some s) = some g ∧ g ∈ s :: sleeps ∧
      ∀ u ∈ s :: sleeps, g.time ≤ u.time := by
  induction sleeps generalizing s with
  | nil =>
      refine ⟨s, rfl, List.mem_singleton_self s, fun u hu => ?_⟩
      rw [List.mem_singleton.mp hu]
  | cons x rest ih =>
      rcases List.forall_mem_cons.mp hsleeps with ⟨hx, hrest⟩
      have hnext := endsBefore_time hx hs
      rw [List.foldl_cons, earlier, Option.elim_some]
      split at hnext
      · next hbefore =>
        rw [if_pos hbefore]
        rcases ih hx hrest with ⟨g, hg, hmem, hleast⟩
        refine ⟨g, hg, List.mem_cons_of_mem s hmem, List.forall_mem_cons.mpr ⟨?_, hleast⟩⟩
        exact (hleast x List.mem_cons_self).trans hnext
      · next hafter =>
        rw [if_neg hafter]
        rcases ih hs hrest with ⟨g, hg, hmem, hleast⟩
        rcases List.forall_mem_cons.mp hleast with ⟨hgs, hgrest⟩
        refine ⟨g, hg, ?_, List.forall_mem_cons.mpr
          ⟨hgs, List.forall_mem_cons.mpr ⟨hgs.trans hnext, hgrest⟩⟩⟩
        exact (List.mem_cons.mp hmem).elim (fun h => h ▸ List.mem_cons_self)
          fun h => List.mem_cons_of_mem s (List.mem_cons_of_mem x h)

/-- The sleep that is over first ends no later than any other one. -/
theorem exists_first (hsleeps : ∀ s ∈ sleeps, s.Whole) (hsome : sleeps ≠ []) :
    ∃ g, Sleep.first sleeps = some g ∧ g ∈ sleeps ∧ ∀ u ∈ sleeps, g.time ≤ u.time := by
  rw [first_eq]
  cases sleeps with
  | nil => exact absurd rfl hsome
  | cons x rest =>
      rcases List.forall_mem_cons.mp hsleeps with ⟨hx, hrest⟩
      exact foldl_earlier hx hrest

end First

/-- Early enough for the end of every sleep to be exact. -/
def Early (a : Int) : Prop := 0 ≤ a ∧ a + 2147483647 < 9007199254740992

namespace World

/-- A world whose times are integers. A sleep is somebody's, has a number of its
    own, and is not over yet. -/
structure Timely (a : Int) (w : World) : Prop where
  now : w.now.toInt? = some a
  sleeps : ∀ s ∈ w.sleeps, s.Whole ∧ a ≤ s.time ∧ s.job.sleeper? ≠ none
  numbers : (w.sleeps.map (·.number)).Nodup
  below : ∀ s ∈ w.sleeps, s.number < w.nextSleep

/-- The animator has one sleep while it sleeps and none else. -/
structure Balanced (w : World) : Prop where
  animator : (w.pending .animator).length = if w.session.animator = .sleeping then 1 else 0
  unstarted : w.session.started = false → w.session.animator = .idle

section Turn

variable {w : World} {a : Int}

/-- Someone goes to sleep. The sleep is over later. -/
theorem timely_sleep (h : w.Timely a) (ha : Early a) {job : Job} (hjob : job.sleeper? ≠ none)
    (ms : Double) :
    (w.sleep ms job).Timely a ∧
      ∀ s ∈ (w.sleep ms job).sleeps, s ∈ w.sleeps ∨ a < s.time := by
  rcases lastsMs_bounds ms with ⟨hleast, hmost⟩
  have hfits : (a + lastsMs ms).natAbs < twoPow 53 := by
    have hbits : twoPow 53 = 9007199254740992 := by decide
    rcases ha with ⟨hlow, hhigh⟩
    omega
  have hdue := Double.toInt?_add h.now (toInt?_sleepLength ms) hfits
  let new : Sleep Job := ⟨w.now + sleepLength ms, w.nextSleep, job⟩
  have htime : new.time = a + lastsMs ms := congrArg (·.getD 0) hdue
  have hnew : new.Whole := hdue.trans (congrArg some htime.symm)
  refine ⟨⟨h.now, fun s hs => ?_, ?_, fun s hs => ?_⟩, fun s hs => ?_⟩
  · rcases List.mem_append.mp hs with hs | hs
    · exact h.sleeps s hs
    · obtain rfl : s = new := List.mem_singleton.mp hs
      exact ⟨hnew, by omega, hjob⟩
  · change ((w.sleeps ++ [new]).map (·.number)).Nodup
    rw [List.map_append, List.nodup_append]
    refine ⟨h.numbers, List.nodup_singleton _, fun i hi j hj hc => ?_⟩
    rcases List.mem_map.mp hi with ⟨s, hs, rfl⟩
    rw [List.mem_singleton.mp hj] at hc
    exact absurd hc (h.below s hs).ne
  · rcases List.mem_append.mp hs with hs | hs
    · exact (h.below s hs).trans (Nat.lt_succ_self _)
    · obtain rfl : s = new := List.mem_singleton.mp hs
      exact Nat.lt_succ_self _
  · rcases List.mem_append.mp hs with hs | hs
    · exact .inl hs
    · obtain rfl : s = new := List.mem_singleton.mp hs
      exact .inr (by omega)

theorem timely_beside {w' : World} (h : w.Timely a) (hw : w.Beside w') :
    w'.Timely a ∧ ∀ s ∈ w'.sleeps, s ∈ w.sleeps ∨ a < s.time := by
  refine ⟨⟨hw.now ▸ h.now, ?_, ?_, ?_⟩, fun s hs => .inl (hw.sleeps ▸ hs)⟩
  · rw [hw.sleeps]
    exact h.sleeps
  · rw [hw.sleeps]
    exact h.numbers
  · rw [hw.sleeps, hw.nextSleep]
    exact h.below

/-- A request leaves the sleeps, ends them all, or adds one that is over later. -/
theorem timely_grant (h : w.Timely a) (ha : Early a) (r : Request) :
    (w.grant r).Timely a ∧ ∀ s ∈ (w.grant r).sleeps, s ∈ w.sleeps ∨ a < s.time := by
  cases r with
  | sleepPoller =>
      have hjob : Job.pollerWake.sleeper? ≠ none := Option.some_ne_none _
      exact timely_sleep h ha hjob w.refreshMs
  | sleepAnimator =>
      have hjob : Job.animatorWake.sleeper? ≠ none := Option.some_ne_none _
      exact timely_sleep h ha hjob w.tickMs
  | endSleeps =>
      exact ⟨⟨h.now, fun s hs => absurd hs List.not_mem_nil, List.nodup_nil,
        fun s hs => absurd hs List.not_mem_nil⟩, fun s hs => absurd hs List.not_mem_nil⟩
  | askPoll | askLookup | beginLookup =>
      exact timely_beside h (beside_grant rfl fun hc => Request.noConfusion hc)

theorem timely_foldl (requests : List Request) (h : w.Timely a) (ha : Early a) :
    (requests.foldl grant w).Timely a ∧
      ∀ s ∈ (requests.foldl grant w).sleeps, s ∈ w.sleeps ∨ a < s.time := by
  induction requests generalizing w with
  | nil => exact ⟨h, fun s hs => .inl hs⟩
  | cons r rest ih =>
      rcases timely_grant h ha r with ⟨hfirst, hsleeps⟩
      rcases ih hfirst with ⟨hrest, hmore⟩
      exact ⟨hrest, fun s hs => (hmore s hs).elim (hsleeps s) .inr⟩

theorem timely_happen (h : w.Timely a) (ha : Early a) (event : Event) :
    (w.happen event).Timely a ∧
      ∀ s ∈ (w.happen event).sleeps, s ∈ w.sleeps ∨ a < s.time := by
  have htaken : (w.taken event).Timely a := ⟨h.now, h.sleeps, h.numbers, h.below⟩
  exact timely_foldl (w.session.step event).2 htaken ha

theorem timely_turn {turns : Nat} {job : Job} {rest : List (Nat × Job)} (h : w.Timely a)
    (ha : Early a) :
    (w.turn turns job rest).Timely a ∧
      ∀ s ∈ (w.turn turns job rest).sleeps, s ∈ w.sleeps ∨ a < s.time := by
  have hleft : { w with jobs := rest }.Timely a := ⟨h.now, h.sleeps, h.numbers, h.below⟩
  unfold turn
  split
  · rcases perform_cases { w with jobs := rest } job with hperform | ⟨-, message, hperform⟩
    · rw [hperform]
      exact timely_happen hleft ha _
    · rw [hperform]
      exact ⟨⟨h.now, h.sleeps, h.numbers, h.below⟩, fun s hs => .inl hs⟩
  · exact ⟨⟨h.now, h.sleeps, h.numbers, h.below⟩, fun s hs => .inl hs⟩

/-- One more sleep is pending if a request asks for it. -/
theorem length_pending_grant (w : World) (r : Request) (k : Sleeper) :
    ((w.grant r).pending k).length
      = (w.pending k).length + if requestSleeper? r = some k then 1 else 0 := by
  have hsleep (job : Job) (ms : Double) : ((w.sleep ms job).pending k).length
      = (w.pending k).length + if job.sleeper? = some k then 1 else 0 := by
    simp only [pending, World.sleep, List.filter_append, List.map_append, List.length_append,
      List.length_map, List.length_replicate, List.filter_singleton]
    split
    · next h =>
      rw [h, decide_eq_true rfl]
      simp only [cond_true, List.length_singleton]
      omega
    · next h =>
      rw [decide_eq_false h]
      rfl
  cases r with
  | sleepPoller => exact hsleep .pollerWake w.refreshMs
  | sleepAnimator => exact hsleep .animatorWake w.tickMs
  | endSleeps =>
      rw [pending_endSleeps, List.length_map]
      rfl
  | askPoll | askLookup | beginLookup =>
      exact congrArg List.length
        ((beside_grant rfl fun hc => Request.noConfusion hc).pending k)

theorem length_pending_foldl (requests : List Request) (w : World) (k : Sleeper) :
    ((requests.foldl grant w).pending k).length
      = (w.pending k).length + requests.countP fun r => requestSleeper? r = some k := by
  induction requests generalizing w with
  | nil => rfl
  | cons r rest ih =>
      refine (ih (w.grant r)).trans ?_
      rw [length_pending_grant, List.countP_cons]
      simp only [decide_eq_true_eq]
      omega

/-- The animator that wakes up goes to sleep again or ends. -/
theorem animator_wake {s : Session} (hsleeping : s.animator = .sleeping) :
    ((s.step .animatorWake).2.countP fun r => requestSleeper? r = some .animator)
        = (if (s.step .animatorWake).1.animator = .sleeping then 1 else 0) ∧
      (s.step .animatorWake).1.started = s.started := by
  change (s.animatorWake.2.countP fun r => requestSleeper? r = some .animator)
      = (if s.animatorWake.1.animator = .sleeping then 1 else 0) ∧
    s.animatorWake.1.started = s.started
  unfold Session.animatorWake
  simp only [hsleeping]
  cases s.running with
  | true =>
      simp only [if_true]
      cases s.snapshot.advanceSlide with
      | none => exact ⟨(if_pos hsleeping).symm, rfl⟩
      | some snapshot => exact ⟨rfl, rfl⟩
  | false => exact ⟨rfl, rfl⟩

/-- Besides, the animator goes to sleep when the session is started. -/
theorem animator_step {s : Session} {event : Event} (hevent : event ≠ .animatorWake)
    (hfresh : s.started = false → s.animator = .idle) :
    (if s.animator = .sleeping then 1 else 0)
        + (s.step event).2.countP (fun r => requestSleeper? r = some .animator)
      = (if (s.step event).1.animator = .sleeping then 1 else 0) ∧
      ((s.step event).1.started = false → (s.step event).1.animator = .idle) := by
  have hstepped := Session.stepped (s := s) event
  generalize (s.step event).1 = t, (s.step event).2 = requests at hstepped ⊢
  cases hstepped with
  | started _ hstarted =>
      rw [hfresh hstarted]
      exact ⟨rfl, fun hc => absurd hc.symm Bool.false_ne_true⟩
  | startRefused => exact ⟨rfl, fun hc => absurd hc.symm Bool.false_ne_true⟩
  | slid | dozed | animatorEnded => exact absurd rfl hevent
  | pollOver =>
      refine ⟨?_, hfresh⟩
      cases s.running <;> rfl
  | _ => exact ⟨rfl, hfresh⟩

/-- An event keeps the balance if the sleeps that it adds are the ones that are
    missing. -/
theorem balanced_of_count {event : Event}
    (hsleeps : (w.pending .animator).length
        + (w.session.step event).2.countP (fun r => requestSleeper? r = some .animator)
      = if (w.session.step event).1.animator = .sleeping then 1 else 0)
    (hfresh : (w.session.step event).1.started = false →
      (w.session.step event).1.animator = .idle) : (w.happen event).Balanced := by
  have hsession : (w.happen event).session = (w.session.step event).1 :=
    (frame_foldl (w.session.step event).2 (w.taken event)).session
  refine ⟨?_, by rw [hsession]; exact hfresh⟩
  refine (length_pending_foldl _ (w.taken event) .animator).trans ?_
  rw [hsession]
  exact hsleeps

theorem balanced_happen (h : w.Balanced) {event : Event} (hevent : event ≠ .animatorWake) :
    (w.happen event).Balanced := by
  rcases animator_step hevent h.unstarted with ⟨hsleeps, hfresh⟩
  refine balanced_of_count ?_ hfresh
  rw [h.animator, hsleeps]

/-- The sleep that is over is the only one of the animator. -/
theorem balanced_animatorWake {turns : Nat} {rest : List (Nat × Job)} (h : w.Balanced)
    (hjobs : w.jobs = (turns, .animatorWake) :: rest) :
    ({ w with jobs := rest }.happen .animatorWake).Balanced := by
  have hone : ({ w with jobs := rest }.pending .animator).length + 1
      = if w.session.animator = .sleeping then 1 else 0 := by
    rw [← h.animator, pending_cons hjobs .animator, List.length_append]
    rfl
  have hsleeping : w.session.animator = .sleeping := by
    by_contra hc
    rw [if_neg hc] at hone
    omega
  rw [if_pos hsleeping] at hone
  rcases animator_wake hsleeping with ⟨hsleeps, hstarted⟩
  refine balanced_of_count (w := { w with jobs := rest }) ?_ fun hc => ?_
  · rw [Nat.succ.inj hone, Nat.zero_add]
    exact hsleeps
  · have hidle := h.unstarted (hstarted.symm.trans hc)
    exact Monitor.Animator.noConfusion (hidle.symm.trans hsleeping)

theorem balanced_turn {turns : Nat} {job : Job} {rest : List (Nat × Job)} (h : w.Balanced)
    (hjobs : w.jobs = (turns, job) :: rest) : (w.turn turns job rest).Balanced := by
  have hpending := pending_cons hjobs .animator
  have hleft (hjob : job.sleeper? ≠ some .animator) : { w with jobs := rest }.Balanced := by
    rw [if_neg hjob, List.append_nil] at hpending
    exact ⟨(congrArg List.length hpending).symm.trans h.animator, h.unstarted⟩
  unfold turn
  split
  · rcases perform_cases { w with jobs := rest } job with hperform | ⟨rfl, message, hperform⟩
    · rw [hperform]
      cases job with
      | animatorWake => exact balanced_animatorWake h hjobs
      | pollerWake => exact balanced_happen (hleft (by decide)) Event.noConfusion
      | pollAnswer | lookupBegin | lookupAnswer | lookupCrash =>
          exact balanced_happen (hleft (Option.some_ne_none _).symm) Event.noConfusion
    · rw [hperform]
      have hleft := hleft (Option.some_ne_none _).symm
      have hcrash : (Job.lookupCrash message).sleeper? = none := rfl
      have hpending := (beside_enqueue (w := { w with jobs := rest }) crashTurns hcrash).pending
        .animator
      exact ⟨(congrArg List.length hpending).trans hleft.animator, hleft.unstarted⟩
  · exact ⟨(congrArg List.length (pending_again hjobs .animator)).trans h.animator, h.unstarted⟩

end Turn

section Over

variable {w : World}

/-- A sleep and those with other numbers are all. -/
theorem perm_number {α : Type} {sleeps : List (Sleep α)} {s : Sleep α} (hs : s ∈ sleeps)
    (hnumbers : (sleeps.map (·.number)).Nodup) :
    sleeps.Perm (s :: sleeps.filter fun u => u.number ≠ s.number) := by
  induction sleeps with
  | nil => exact absurd hs List.not_mem_nil
  | cons x rest ih =>
      rw [List.map_cons, List.nodup_cons] at hnumbers
      rcases hnumbers with ⟨hx, hrest⟩
      have hother : ∀ u ∈ rest, u.number ≠ x.number := fun u hu hc =>
        hx (hc ▸ List.mem_map_of_mem hu)
      rcases List.mem_cons.mp hs with rfl | hs
      · rw [List.filter_cons_of_neg (by simp), List.filter_eq_self.mpr]
        exact fun u hu => decide_eq_true (hother u hu)
      · have hkept : (x :: rest).filter (fun u => u.number ≠ s.number)
            = x :: rest.filter fun u => u.number ≠ s.number :=
          List.filter_cons_of_pos (decide_eq_true (hother s hs).symm)
        rw [hkept]
        exact ((ih hs hrest).cons x).trans (.swap s x _)

/-- Every sleep is the poller's or the animator's. -/
theorem length_eq_sleepers {sleeps : List (Sleep Job)}
    (hsome : ∀ s ∈ sleeps, s.job.sleeper? ≠ none) :
    sleeps.length = (sleeps.filter fun s => s.job.sleeper? = some .poller).length
      + (sleeps.filter fun s => s.job.sleeper? = some .animator).length := by
  induction sleeps with
  | nil => rfl
  | cons s rest ih =>
      rcases List.forall_mem_cons.mp hsome with ⟨hs, hrest⟩
      have hlength := ih hrest
      rw [List.filter_cons, List.filter_cons, List.length_cons]
      cases hk : s.job.sleeper? with
      | none => exact absurd hk hs
      | some k =>
          cases k with
          | poller =>
              rw [if_pos (decide_eq_true rfl), if_neg (by decide), List.length_cons]
              omega
          | animator =>
              rw [if_neg (by decide), if_pos (decide_eq_true rfl), List.length_cons]
              omega

theorem pending_idle (hjobs : w.jobs = []) (k : Sleeper) :
    w.pending k = (w.sleeps.filter fun s => s.job.sleeper? = some k).map (·.due) := by
  rw [pending, hjobs]
  exact List.append_nil _

/-- When a sleep is over, its end is still pending. -/
theorem pending_over (hjobs : w.jobs = []) (hnumbers : (w.sleeps.map (·.number)).Nodup)
    {s : Sleep Job} (hs : s ∈ w.sleeps) (k : Sleeper) :
    (w.pending k).Perm (({ w with
      now := s.due
      sleeps := w.sleeps.filter fun u => u.number ≠ s.number }.enqueue wakeTurns s.job).pending
        k) := by
  have hall := ((perm_number hs hnumbers).filter fun u => decide (u.job.sleeper? = some k)).map
    (·.due)
  rw [pending_idle hjobs]
  refine hall.trans ?_
  simp only [pending, enqueue, hjobs, List.nil_append, List.countP_singleton, List.filter_cons,
    decide_eq_true_eq]
  split
  · exact (List.perm_append_singleton _ _).symm
  · rw [List.replicate_zero, List.append_nil]

end Over

end World

end Simulation

end NodeWatch
