import NodeWatch.Monitor.Slide
import NodeWatch.Proofs.Double.Integers
import NodeWatch.Proofs.Monitor.Polls

/-!
# The Slide between Two Tasks

Two tasks write the slide. The poller starts it when it puts a new list in the
place of an old one, and the animator moves it on, a frame at a tick. They know
nothing of each other, so a list may arrive in the middle of a slide, and a
tick in the middle of a poll.

What makes any order of the two harmless is that a poll writes the list at one
moment only, with its last answer. At every other moment it leaves the list and
the slide alone, and so does a tick when nothing slides.

## Main definitions

* `Happening`, `Scene`: What the tasks do, and what they do it to.
* `Scene.Activates`: A list that was not empty makes way for another one.
* `Scene.Undisturbed`: Nothing of that kind happens for a while.

## Theorems

* `written_next`: What an answer does to the list and the slide.
* `sound_step`, `sound_run`: The frame and the lists after anything happened.
* `slide_of_activates`, `slide_of_not_activates`: When a slide begins.
* `slide_undisturbed`: How a slide goes on and ends.
-/

namespace NodeWatch

namespace Monitor

/-! ### What happens -/

/-- What can happen to the list of blocks and the slide. -/
inductive Happening where
  /-- A poll begins. -/
  | begin
  /-- The question of the poll is answered, at a given time. -/
  | answer (now : Double) (answer : Rpc.Answer)
  /-- The animator wakes up. -/
  | tick

/-- The snapshot, and the poll in progress. -/
structure Scene where
  snapshot : Snapshot
  poll : Option Poll

namespace Scene

/-- The scene before anything happened. -/
def initial : Scene := ⟨.initial, none⟩

/-- The scene after something happened. There is one poll at a time. -/
def step (scene : Scene) : Happening → Scene
  | .begin =>
    match scene.poll with
    | none => { scene with poll := some (Poll.begin scene.snapshot) }
    | some _ => scene
  | .answer now answer =>
    match scene.poll with
    | none => scene
    | some poll =>
      let effect := poll.next scene.snapshot now answer
      ⟨effect.snapshot, effect.move.poll?⟩
  | .tick => { scene with snapshot := scene.snapshot.advanceSlide.getD scene.snapshot }

/-- The scene after several things happened, one after the other. -/
def run (scene : Scene) (happenings : List Happening) : Scene := happenings.foldl step scene

/-- A poll ends with a new list. -/
def Replaces (scene : Scene) (h : Happening) : Prop :=
  ∃ poll now answer tip count, scene.poll = some poll ∧ h = .answer now answer ∧
    (poll.next scene.snapshot now answer).move = .done (.polled tip (some count))

/-- A poll puts a list that is not empty in the place of one that was not. -/
def Activates (scene : Scene) (h : Happening) : Prop :=
  scene.Replaces h ∧ scene.snapshot.blocks ≠ [] ∧ (scene.step h).snapshot.blocks ≠ []

/-- For a while no poll starts the slide anew. -/
def Undisturbed (scene : Scene) : List Happening → Prop
  | [] => True
  | h :: later => ¬ scene.Activates h ∧ (scene.step h).Undisturbed later

end Scene

/-- How often the animator wakes up. -/
def ticks : List Happening → Nat
  | [] => 0
  | .tick :: later => ticks later + 1
  | _ :: later => ticks later

/-! ### One answer -/

namespace Poll

/-- A poll that waits for a block has room for it. -/
def HasRoom (poll : Option Poll) : Prop :=
  ∀ listTip tip fetched, poll = some ⟨listTip, .blocks tip fetched⟩ → fetched.length < maxBlocks

/-- What an answer does to the list of blocks and the slide: nothing, or it
    ends the poll with a list that takes the place of the other. -/
inductive Written (s : Snapshot) (effect : Effect) : Prop where
  | kept (hblocks : effect.snapshot.blocks = s.blocks) (hslide : effect.snapshot.slide = s.slide)
      (hroom : HasRoom effect.move.poll?)
      (hmove : ∀ tip count, effect.move ≠ .done (.polled tip (some count))) : Written s effect
  | replaced (tip : Double) {fetched : List RecentBlock} (hfew : fetched.length ≤ maxBlocks)
      (hblocks : effect.snapshot.blocks = fetched)
      (hslide : effect.snapshot.slide = (s.withBlocks fetched tip).slide)
      (hmove : effect.move = .done (.polled tip (some fetched.length))) : Written s effect

section Answer

variable {s t : Snapshot}

theorem hasRoom_of_given {listTip : Double} {stage : Stage} {given : List Json.Value}
    (h : stage.given? = some given) : HasRoom (some ⟨listTip, stage⟩) := by
  intro listTip' tip fetched heq
  cases heq
  exact absurd h (by simp only [Stage.given?, reduceCtorEq, not_false_eq_true])

theorem written_nextBlock (poll : Poll) (hblocks : t.blocks = s.blocks) (hslide : t.slide = s.slide)
    (redraw : Bool) (tip : Double) {fetched : List RecentBlock}
    (hfew : fetched.length ≤ maxBlocks) : Written s (poll.nextBlock t redraw tip fetched) := by
  rcases nextBlock_cases (s := t) poll redraw tip fetched with ⟨hroom, h⟩ | h
  · rw [h]
    refine Written.kept hblocks hslide ?_ fun tip count => ?_
    · intro listTip tip' fetched' heq
      cases heq
      exact hroom
    · simp only [ne_eq, reduceCtorEq, not_false_eq_true]
  · rw [h]
    refine Written.replaced tip hfew rfl ?_ rfl
    simp only [Snapshot.withBlocks, hblocks, hslide]

theorem written_commit (poll : Poll) (answers : CoreAnswers) (now : Double) :
    Written s (poll.commit s answers now) := by
  simp only [commit]
  split
  · refine Written.kept rfl rfl (fun _ _ _ hc => ?_) fun tip count => ?_
    · exact absurd hc.symm (Option.some_ne_none _)
    · simp only [ne_eq, Move.done.injEq, Outcome.polled.injEq, reduceCtorEq, and_false,
        not_false_eq_true]
  · exact written_nextBlock (s := s) (t := s.withCore answers now) poll rfl rfl true answers.tip
      (show ([] : List RecentBlock).length ≤ maxBlocks from Nat.zero_le _)

theorem written_next {poll : Poll} (h : HasRoom (some poll)) (now : Double)
    (answer : Rpc.Answer) : Written s (poll.next s now answer) := by
  have hasked : ∀ {listTip : Double} {stage : Stage} {given : List Json.Value},
      stage.given? = some given → Written s ⟨s, false, .ask ⟨listTip, stage⟩⟩ := by
    intro listTip stage given hgiven
    exact Written.kept rfl rfl (hasRoom_of_given hgiven) fun tip count =>
      (by simp only [ne_eq, reduceCtorEq, not_false_eq_true])
  rcases poll with ⟨listTip, stage⟩
  cases answer with
  -- A failure ends the poll: with the blocks that came before it, or with nothing new.
  | error e =>
      cases stage with
      | blocks tip fetched =>
          exact Written.replaced tip (h listTip tip fetched rfl).le rfl rfl rfl
      | _ =>
          refine Written.kept rfl rfl (fun _ _ _ hc => ?_) fun tip count => ?_
          · exact absurd hc.symm (Option.some_ne_none _)
          · simp only [Poll.next, ne_eq, Move.done.injEq, reduceCtorEq, not_false_eq_true]
  | ok v =>
      cases stage with
      | chain => exact hasked rfl
      | network chain => exact hasked rfl
      | mempool chain network => exact hasked rfl
      | peers chain network mempool => exact written_commit _ _ now
      | blocks tip fetched =>
          have hroom := h listTip tip fetched rfl
          refine written_nextBlock _ rfl rfl false tip ?_
          rw [List.length_append, List.length_singleton]
          exact hroom

end Answer

end Poll

/-! ### Frames -/

theorem Slide.advance_ofNat {k : Nat} (hk : k < 12) (previous : List RecentBlock) :
    Slide.advance ⟨true, Double.ofNat k, previous⟩
      = ⟨decide (k + 1 < 12), Double.ofNat (k + 1), previous⟩ := by
  -- The frames are doubles, and there are few enough to look at each of them.
  have hall : ∀ k : Fin 12, Double.ofNat k.val + 1 = Double.ofNat (k.val + 1) ∧
      (!decide (slideFrames ≤ Double.ofNat k.val + 1)) = decide (k.val + 1 < 12) := by
    decide +kernel
  rcases hall ⟨k, hk⟩ with ⟨hframe, hactive⟩
  simp only [Slide.advance]
  rw [hactive, hframe]

/-- A slide is at one of its frames, and has something to show as long as it
    goes on. -/
structure Slide.InOrder (slide : Slide) : Prop where
  frame : ∃ k ≤ 12, slide.frame = Double.ofNat k ∧ (slide.active = true → k < 12)
  shows : slide.active = true → slide.previous ≠ []
  few : slide.previous.length ≤ maxBlocks

namespace Scene

variable {scene : Scene}

/-- What holds of a scene whatever happened. -/
structure Sound (scene : Scene) : Prop where
  slide : scene.snapshot.slide.InOrder
  blocks : scene.snapshot.blocks.length ≤ maxBlocks
  room : Poll.HasRoom scene.poll

theorem sound_initial : Sound initial where
  slide := {
    frame := ⟨0, by decide, rfl, fun h => absurd h Bool.false_ne_true⟩
    shows := fun h => absurd h Bool.false_ne_true
    few := by decide }
  blocks := by decide
  room := fun _ _ _ h => absurd h.symm (Option.some_ne_none _)

theorem slide_tick_of_idle (h : scene.snapshot.slide.active = false) :
    (scene.step .tick).snapshot = scene.snapshot := by
  simp only [step, Snapshot.advanceSlide, h, Bool.false_eq_true, if_false, Option.getD_none]

theorem slide_tick {k : Nat} (hk : k < 12)
    (hframe : scene.snapshot.slide.frame = Double.ofNat k)
    (h : scene.snapshot.slide.active = true) :
    (scene.step .tick).snapshot.slide
      = ⟨decide (k + 1 < 12), Double.ofNat (k + 1), scene.snapshot.slide.previous⟩ := by
  simp only [step, Snapshot.advanceSlide, h, if_true, Option.getD_some]
  rw [← Slide.advance_ofNat hk, ← hframe, ← h]

theorem blocks_tick : (scene.step .tick).snapshot.blocks = scene.snapshot.blocks := by
  simp only [step, Snapshot.advanceSlide]
  split <;> rfl

/-- A poll leaves the list of blocks and the slide alone, or it ends with a list
    that takes the place of the other. -/
theorem slide_of_poll (hsound : scene.Sound) {h : Happening} (hpoll : h ≠ .tick) :
    (¬ scene.Replaces h ∧ (scene.step h).snapshot.blocks = scene.snapshot.blocks ∧
        (scene.step h).snapshot.slide = scene.snapshot.slide) ∨
      (scene.Replaces h ∧ (scene.step h).snapshot.blocks.length ≤ maxBlocks ∧
        (scene.step h).snapshot.slide =
          if scene.snapshot.blocks.isEmpty || (scene.step h).snapshot.blocks.isEmpty then
            scene.snapshot.slide
          else ⟨true, 0, scene.snapshot.blocks⟩) := by
  rcases scene with ⟨s, poll⟩
  cases h with
  | tick => exact absurd rfl hpoll
  | begin =>
      refine .inl ⟨?_, ?_⟩
      · rintro ⟨_, _, _, _, _, _, hc, _⟩
        cases hc
      · cases poll <;> exact ⟨rfl, rfl⟩
  | answer now answer =>
      cases poll with
      | none =>
          refine .inl ⟨?_, rfl, rfl⟩
          rintro ⟨_, _, _, _, _, hc, _⟩
          cases hc
      | some poll =>
          cases Poll.written_next (s := s) hsound.room now answer with
          | kept hblocks hslide hroom hmove =>
              refine .inl ⟨?_, hblocks, hslide⟩
              rintro ⟨_, _, _, tip, count, hp, ha, hc⟩
              cases hp
              cases ha
              exact hmove tip count hc
          | @replaced tip fetched hfew hblocks hslide hmove =>
              refine .inr ⟨⟨poll, now, answer, tip, fetched.length, rfl, rfl, hmove⟩, ?_, ?_⟩
              · change (poll.next s now answer).snapshot.blocks.length ≤ maxBlocks
                rw [hblocks]
                exact hfew
              · change (poll.next s now answer).snapshot.slide
                  = if s.blocks.isEmpty || (poll.next s now answer).snapshot.blocks.isEmpty then _
                    else _
                rw [hblocks, hslide]
                rfl

theorem room_step (hsound : scene.Sound) (h : Happening) : Poll.HasRoom (scene.step h).poll := by
  rcases scene with ⟨s, poll⟩
  have hnone : Poll.HasRoom none := fun _ _ _ hc => absurd hc.symm (Option.some_ne_none _)
  cases h with
  | tick => exact hsound.room
  | begin =>
      cases poll with
      | none => exact Poll.hasRoom_of_given (show Poll.Stage.chain.given? = some [] from rfl)
      | some poll => exact hsound.room
  | answer now answer =>
      cases poll with
      | none => exact hnone
      | some poll =>
          cases Poll.written_next (s := s) hsound.room now answer with
          | kept _ _ hroom _ => exact hroom
          | replaced _ _ _ _ hmove =>
              change Poll.HasRoom (poll.next s now answer).move.poll?
              rw [hmove]
              exact hnone

theorem inOrder_tick (h : scene.snapshot.slide.InOrder) :
    (scene.step .tick).snapshot.slide.InOrder := by
  cases hslide : scene.snapshot.slide.active with
  | false =>
      rw [slide_tick_of_idle hslide]
      exact h
  | true =>
      rcases h.frame with ⟨k, -, hframe, hactive⟩
      have hless := hactive hslide
      rw [slide_tick hless hframe hslide]
      exact ⟨⟨k + 1, hless, rfl, of_decide_eq_true⟩, fun _ => h.shows hslide, h.few⟩

theorem inOrder_started {blocks : List RecentBlock} (h : blocks ≠ [])
    (hfew : blocks.length ≤ maxBlocks) : Slide.InOrder ⟨true, 0, blocks⟩ :=
  ⟨⟨0, by decide, rfl, fun _ => by decide⟩, fun _ => h, hfew⟩

theorem sound_step (hsound : scene.Sound) (h : Happening) : (scene.step h).Sound := by
  have hroom := room_step hsound h
  by_cases hpoll : h = .tick
  · subst hpoll
    exact ⟨inOrder_tick hsound.slide, blocks_tick.symm ▸ hsound.blocks, hroom⟩
  · rcases slide_of_poll hsound hpoll with ⟨-, hblocks, hslide⟩ | ⟨-, hfew, hslide⟩
    · exact ⟨hslide ▸ hsound.slide, hblocks ▸ hsound.blocks, hroom⟩
    -- The slide goes on as it was unless both lists hold something.
    · refine ⟨?_, hfew, hroom⟩
      rw [hslide]
      split
      · exact hsound.slide
      · next hempty =>
        refine inOrder_started (fun hc => hempty ?_) hsound.blocks
        rw [hc]
        rfl

/-- The scene is in order whatever happened. -/
theorem sound_run (hsound : scene.Sound) (happenings : List Happening) :
    (scene.run happenings).Sound := by
  induction happenings generalizing scene with
  | nil => exact hsound
  | cons h later ih => exact ih (sound_step hsound h)

/-- A list that takes the place of another one starts the slide, with the other
    one to show. -/
theorem slide_of_activates (hsound : scene.Sound) {h : Happening} (hnew : scene.Activates h) :
    (scene.step h).snapshot.slide = ⟨true, 0, scene.snapshot.blocks⟩ := by
  rcases hnew with ⟨hreplaces, hold, hblocks⟩
  have hpoll : h ≠ .tick := by
    rintro rfl
    rcases hreplaces with ⟨_, _, _, _, _, _, hc, _⟩
    cases hc
  rcases slide_of_poll hsound hpoll with ⟨hnot, -⟩ | ⟨-, -, hslide⟩
  · exact absurd hreplaces hnot
  · rw [hslide, List.isEmpty_eq_false_iff.mpr hold, List.isEmpty_eq_false_iff.mpr hblocks]
    rfl

/-- Nothing else that a poll does changes the slide. -/
theorem slide_of_not_activates (hsound : scene.Sound) {h : Happening} (hpoll : h ≠ .tick)
    (hnot : ¬ scene.Activates h) : (scene.step h).snapshot.slide = scene.snapshot.slide := by
  rcases slide_of_poll hsound hpoll with ⟨-, -, hslide⟩ | ⟨hreplaces, -, hslide⟩
  · exact hslide
  · rw [hslide]
    refine if_pos ?_
    by_contra hc
    rw [Bool.or_eq_true, List.isEmpty_iff, List.isEmpty_iff, not_or] at hc
    exact hnot ⟨hreplaces, hc⟩

/-- A slide that is not started anew goes on with every tick up to the last
    frame, and stays there. -/
theorem slide_undisturbed (hsound : scene.Sound) {k : Nat} {previous : List RecentBlock}
    (hk : k ≤ 12) (hslide : scene.snapshot.slide = ⟨decide (k < 12), Double.ofNat k, previous⟩)
    {later : List Happening} (hlater : scene.Undisturbed later) :
    (scene.run later).snapshot.slide
      = ⟨decide (k + ticks later < 12), Double.ofNat (min (k + ticks later) 12), previous⟩ := by
  -- The frame is generalised, and with it how many ticks are left.
  induction later generalizing scene k with
  | nil =>
      rw [ticks, Nat.add_zero, Nat.min_eq_left hk]
      exact hslide
  | cons h later ih =>
      have hnext := sound_step hsound h
      by_cases hpoll : h = .tick
      · subst hpoll
        by_cases hless : k < 12
        · have hactive : scene.snapshot.slide.active = true := by
            rw [hslide]
            exact decide_eq_true hless
          have htick := slide_tick hless (by rw [hslide]) hactive
          rw [hslide] at htick
          have hrest := ih hnext hless htick hlater.2
          rw [show k + 1 + ticks later = k + (ticks later + 1) by omega] at hrest
          exact hrest
        -- At the last frame a tick finds nothing to move.
        · have hidle : (scene.step .tick).snapshot = scene.snapshot :=
            slide_tick_of_idle (by rw [hslide]; exact decide_eq_false hless)
          have hrest := ih hnext hk (by rw [hidle]; exact hslide) hlater.2
          have hmin : min (k + (ticks later + 1)) 12 = min (k + ticks later) 12 := by omega
          have hover : decide (k + (ticks later + 1) < 12) = decide (k + ticks later < 12) :=
            decide_eq_decide.mpr (by omega)
          rw [← hmin, ← hover] at hrest
          exact hrest
      · have hsame := slide_of_not_activates hsound hpoll hlater.1
        have hrest := ih hnext hk (hsame.trans hslide) hlater.2
        have hticks : ticks (h :: later) = ticks later := by
          cases h with
          | tick => exact absurd rfl hpoll
          | _ => rfl
        rw [hticks]
        exact hrest

end Scene

end Monitor

end NodeWatch
