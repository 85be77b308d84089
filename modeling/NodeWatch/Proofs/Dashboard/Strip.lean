import NodeWatch.Dashboard.Strip
import NodeWatch.Proofs.Monitor.Sliding
import NodeWatch.Proofs.Span

/-!
# What Slides

What the strip of recent blocks shows while one list makes way for another, for
any order of polls and ticks. The list that is on its way out is shown without
its last block and moved to the right, a little further with most frames, and
by a whole column at the last one. It never moves back. When the slide is over
the new list is shown where it belongs.

The distance is computed with doubles and rounded, so the twelve frames are
looked at one by one. Everything else about the strip is a matter of lengths,
where the number of columns is a double as well and may be any at all.

## Main definitions

* `padOf`: The distance at a frame, without rounding errors.

## Theorems

* `padAt_ofNat`: The distance at each of the frames.
* `firstBlocks_spec`: Which blocks are shown, and how many at most.
* `strip_of_run`: The slide and the strip whatever happened.
-/

namespace NodeWatch

namespace Dashboard

open Monitor (RecentBlock Slide Snapshot Scene Happening ticks maxBlocks)

/-! ### How far -/

/-- The distance at a frame: the part of a column and its margin, to the
    nearest, a half up. -/
def padOf (k : Nat) : Nat := roundHalfUp ((columnWidth + 1) * (k + 1)) 12

theorem padAt_ofNat {k : Nat} (hk : k < 12) : padAt (Double.ofNat k) = Double.ofNat (padOf k) := by
  have hall : ∀ k : Fin 12, padAt (Double.ofNat k.val) = Double.ofNat (padOf k.val) := by
    decide +kernel
  exact hall ⟨k, hk⟩

/-- The distance in whole numbers, which is what makes it monotone. -/
theorem padOf_eq (k : Nat) : padOf k = (22 * k + 34) / 24 := by
  rw [padOf, roundHalfUp, columnWidth]
  congr 1
  omega

/-! ### How many -/

section Columns

variable {limit length : Nat} (hlimit : limit ≤ maxBlocks)
  (hleast : limit ≤ length) (hmost : length ≤ limit + 1)

include hlimit in
theorem toInt?_limit : (Double.ofNat limit).toInt? = some (limit : Int) := by
  have hfew : maxBlocks = 20 := rfl
  have hbound : twoPow 53 = 9007199254740992 := rfl
  exact Double.toInt?_ofNat (by omega)

include hlimit in
/-- The lesser of the limit and the columns is the limit, or it is the columns
    and those are no more than the limit, or there is no number of columns. -/
theorem min_limit_cases (columns : Double) :
    Double.min (Double.ofNat limit) columns = Double.ofNat limit ∧
        Double.ofNat limit ≤ columns ∨
      Double.min (Double.ofNat limit) columns = columns ∧
        (columns.isFinite = true ∧ columns.value ≤ limit ∨ columns = .infinite true) ∨
      Double.min (Double.ofNat limit) columns = .nan ∧ columns = .nan := by
  have hint := toInt?_limit hlimit
  have hvalue := Double.value_of_toInt? hint
  have hbound : limit < twoPow 53 := lt_of_le_of_lt hlimit (by decide)
  obtain ⟨m, q, h, hx, -⟩ := Double.whole_ofNat hbound
  rw [hx] at hvalue ⊢
  cases columns with
  | nan => exact .inr (.inr ⟨rfl, rfl⟩)
  | infinite s =>
      cases s with
      | false => exact .inl ⟨rfl, .inl rfl⟩
      | true => exact .inr (.inl ⟨rfl, .inr rfl⟩)
  | finite s n r hn =>
      -- Of two equal numbers the columns are taken, also if they are a negative zero.
      by_cases hlt : Double.finite false m q h < Double.finite s n r hn
      · refine .inl ⟨?_, .inl hlt⟩
        simp only [Double.min, Double.isNaN, Bool.or_self, Bool.false_eq_true, if_false, hlt,
          if_true]
      · refine .inr (.inl ⟨?_, .inl ⟨rfl, ?_⟩⟩)
        · simp only [Double.min, Double.isNaN, Bool.or_self, Bool.false_eq_true, if_false, hlt,
            Double.isNegative, ite_self]
        · rw [Double.lt_iff_value rfl rfl, hvalue, not_lt] at hlt
          exact_mod_cast hlt

include hlimit hleast hmost in
/-- The place up to which blocks are shown is within the limit, and within the
    columns if there are any. -/
theorem place_min (columns : Double) :
    Span.place length (Double.min (Double.ofNat limit) columns) ≤ limit ∧
      (0 ≤ columns →
        Double.ofNat (Span.place length (Double.min (Double.ofNat limit) columns)) ≤ columns) := by
  have hint := toInt?_limit hlimit
  -- Without a number of columns nothing is shown, nor with an infinite negative one.
  rcases min_limit_cases hlimit columns with
    ⟨hmin, hle⟩ | ⟨hmin, ⟨hfinite, hless⟩ | rfl⟩ | ⟨hmin, rfl⟩
  · have hbound : limit < twoPow 53 := lt_of_le_of_lt hlimit (by decide)
    have hplace : Span.place length (Double.ofNat limit) = limit := by
      rw [Span.place_of_truncInt? (Double.whole_ofNat hbound).truncInt?]
      rw [if_neg Bool.false_ne_true, if_neg (by omega), Int.toNat_natCast, Nat.min_eq_left hleast]
    rw [hmin, hplace]
    exact ⟨le_rfl, fun _ => hle⟩
  · rcases Double.truncInt?_of_isFinite hfinite with ⟨n, hn, hpos, hneg⟩
    rw [hmin, Span.place_of_truncInt? hn]
    -- A negative number of columns leaves out one block at least.
    have hwithin : n ≤ limit := by
      rcases lt_or_ge columns.value 0 with hvalue | hvalue
      · exact (hneg hvalue).trans (Int.natCast_nonneg limit)
      · exact_mod_cast (hpos hvalue).2.trans hless
    refine ⟨by split <;> omega, fun hcolumns => ?_⟩
    rw [Double.le_iff_value rfl hfinite, Double.value_of_toInt? Double.toInt?_zero, Int.cast_zero]
      at hcolumns
    rcases hpos hcolumns with ⟨hn0, hnle⟩
    rw [if_neg (by omega)]
    have hplace : (Double.ofNat (min n.toNat length)).toInt?
        = some ((min n.toNat length : Nat) : Int) := toInt?_limit (by omega)
    rw [Double.le_iff_value (Double.isFinite_of_toInt? hplace) hfinite,
      Double.value_of_toInt? hplace]
    refine le_trans ?_ hnle
    exact_mod_cast (by omega : ((min n.toNat length : Nat) : Int) ≤ n)
  · rw [hmin]
    refine ⟨Nat.zero_le _, fun hc => absurd hc (by decide)⟩
  · rw [hmin]
    refine ⟨Nat.zero_le _, fun hc => absurd hc (by decide)⟩

end Columns

/-- The first blocks of a list up to a limit, and no more than the columns. -/
theorem firstBlocks_spec {blocks : List RecentBlock} {limit : Nat} (hlimit : limit ≤ maxBlocks)
    (hleast : limit ≤ blocks.length) (hmost : blocks.length ≤ limit + 1) (columns : Double) :
    firstBlocks blocks limit columns <+: blocks.take limit ∧
      (0 ≤ columns → Double.ofNat (firstBlocks blocks limit columns).length ≤ columns) := by
  have hplace := place_min hlimit hleast hmost columns
  refine ⟨List.take_prefix_take_left hplace.1, fun hcolumns => ?_⟩
  rw [firstBlocks, Span.upTo, List.length_take, Nat.min_eq_left (hplace.1.trans hleast)]
  exact hplace.2 hcolumns

/-! ### The strip -/

section Strips

variable {slide : Slide} {blocks : List RecentBlock}

theorem of_idle (h : slide.active = false) (columns : Double) :
    Strip.of slide blocks columns = ⟨firstBlocks blocks blocks.length columns, 0⟩ := by
  rw [Strip.of, h, Bool.false_and, if_neg Bool.false_ne_true]

theorem of_active (h : slide.InOrder) (hactive : slide.active = true) (columns : Double) :
    Strip.of slide blocks columns
      = ⟨firstBlocks slide.previous (slide.previous.length - 1) columns, padAt slide.frame⟩ := by
  rw [Strip.of, hactive, List.isEmpty_eq_false_iff.mpr (h.shows hactive)]
  rfl

/-- The list that makes way is shown without its last block. -/
theorem blocks_active (h : slide.InOrder) (hactive : slide.active = true) (columns : Double) :
    (Strip.of slide blocks columns).blocks <+: slide.previous.dropLast ∧
      (0 ≤ columns → Double.ofNat (Strip.of slide blocks columns).blocks.length ≤ columns) := by
  have hfew := h.few
  have hlimit : slide.previous.length - 1 ≤ maxBlocks := (Nat.sub_le _ 1).trans hfew
  have hspec := firstBlocks_spec hlimit (Nat.sub_le _ 1) (by omega) columns
  rw [of_active h hactive, List.dropLast_eq_take]
  exact hspec

theorem blocks_idle (hfew : blocks.length ≤ maxBlocks) (hidle : slide.active = false)
    (columns : Double) :
    (Strip.of slide blocks columns).blocks <+: blocks ∧
      (0 ≤ columns → Double.ofNat (Strip.of slide blocks columns).blocks.length ≤ columns) := by
  have hspec := firstBlocks_spec hfew le_rfl (Nat.le_succ _) columns
  rw [List.take_length] at hspec
  rw [of_idle hidle]
  exact hspec

theorem leftPad_active (h : slide.InOrder) (hactive : slide.active = true) {k : Nat} (hk : k < 12)
    (hframe : slide.frame = Double.ofNat k) (columns : Double) :
    (Strip.of slide blocks columns).leftPad = Double.ofNat (padOf k) := by
  rw [of_active h hactive]
  change padAt slide.frame = _
  rw [hframe, padAt_ofNat hk]

end Strips

/-- The slide and the strip whatever happened, in any order of polls and ticks.
    The slide is at one of its frames. It begins with a poll that puts a list that
    is not empty in the place of another one, and with nothing else; it goes on
    for twelve ticks and then stays as it is, unless it begins anew. As long as
    it goes on, the strip shows the list that makes way without its last block,
    moved by one to eleven places, never back and by eleven at last; otherwise it
    shows the list as it is. It never shows more blocks than there are columns. -/
theorem strip_of_run (happenings : List Happening) :
    let scene := Scene.initial.run happenings
    let slide := scene.snapshot.slide
    let blocks := scene.snapshot.blocks
    (∃ k ≤ 12, slide.frame = Double.ofNat k ∧
      (slide.active = true → k ≤ 11 ∧ slide.previous ≠ [])) ∧
    (∀ h, scene.Activates h → (scene.step h).snapshot.slide = ⟨true, 0, blocks⟩) ∧
    (∀ h, h ≠ .tick → ¬ scene.Activates h → (scene.step h).snapshot.slide = slide) ∧
    (∀ h later, scene.Activates h → (scene.step h).Undisturbed later →
      ((scene.step h).run later).snapshot.slide
        = ⟨decide (ticks later < 12), Double.ofNat (min (ticks later) 12), blocks⟩) ∧
    ∀ columns,
      let strip := Strip.of slide blocks columns
      (0 ≤ columns → Double.ofNat strip.blocks.length ≤ columns) ∧
      (slide.active = false → strip.blocks <+: blocks ∧ strip.leftPad = 0) ∧
      (slide.active = true → strip.blocks <+: slide.previous.dropLast ∧
        ∃ pad, strip.leftPad = Double.ofNat pad ∧ 1 ≤ pad ∧ pad ≤ 11 ∧
          let next := (scene.step .tick).snapshot
          (next.slide.active = false → pad = 11) ∧
          (next.slide.active = true → ∃ more, pad ≤ more ∧
            (Strip.of next.slide next.blocks columns).leftPad = Double.ofNat more)) := by
  intro scene slide blocks
  have hsound : scene.Sound := Scene.sound_run Scene.sound_initial happenings
  have horder := hsound.slide
  obtain ⟨k, hk, hframe, hless⟩ := horder.frame
  refine ⟨⟨k, hk, hframe, fun hactive => ?_⟩, ?_, ?_, ?_, ?_⟩
  · exact ⟨Nat.le_of_lt_succ (hless hactive), horder.shows hactive⟩
  · exact fun h hnew => Scene.slide_of_activates hsound hnew
  · exact fun h hpoll hnot => Scene.slide_of_not_activates hsound hpoll hnot
  -- What starts the slide leaves the scene in order, so the ticks count from there.
  · intro h later hnew hlater
    have hstarted := Scene.slide_of_activates hsound hnew
    have hslide := Scene.slide_undisturbed (k := 0) (Scene.sound_step hsound h) (by decide)
      hstarted hlater
    rw [Nat.zero_add] at hslide
    exact hslide
  · intro columns strip
    refine ⟨?_, fun hidle => ?_, fun hactive => ?_⟩
    · cases hactive : slide.active with
      | false => exact (blocks_idle hsound.blocks hactive columns).2
      | true => exact (blocks_active horder hactive columns).2
    · exact ⟨(blocks_idle hsound.blocks hidle columns).1, congrArg Strip.leftPad (of_idle hidle _)⟩
    · have hlt := hless hactive
      have hnext := Scene.slide_tick hlt hframe hactive
      have hpad := padOf_eq k
      refine ⟨(blocks_active horder hactive columns).1, padOf k,
        leftPad_active horder hactive hlt hframe columns, by omega, by omega, fun hover => ?_,
        fun hon => ?_⟩
      -- The frame before the last one is the eleventh.
      · rw [hnext] at hover
        have hlast := of_decide_eq_false hover
        omega
      · have hmore := padOf_eq (k + 1)
        refine ⟨padOf (k + 1), by omega, ?_⟩
        have hon' := hon
        rw [hnext] at hon'
        exact leftPad_active (Scene.inOrder_tick horder) hon (of_decide_eq_true hon')
          (by rw [hnext]) columns

/-- A poll that is told of a tip and of some blocks from there on, and that waits
    for the next one. -/
def samplePoll (tip : Int64) (heights : List Int64) : List Happening :=
  [.begin, .answer 1 (.ok (.object [("blocks", .int tip)])), .answer 1 (.ok .null),
    .answer 1 (.ok .null), .answer 1 (.ok .null)]
    ++ heights.map fun height => .answer 1 (.ok (.object [("height", .int height)]))

/-- A block that is missing. -/
def sampleMissing : Happening := .answer 1 (.error (.other "gone"))

/-- Up to the last answer of the second of two polls. The first one has brought a
    list of three blocks. -/
def sampleHappenings : List Happening :=
  samplePoll 7 [7, 6, 5] ++ sampleMissing :: samplePoll 8 [8]

/-- The list of three blocks makes way for another one. Two of its blocks are on
    the strip, and one if there is one column. They move to the right with a
    tick, and after twelve of them the new list is there. -/
theorem strip_of_run_sample :
    let scene := Scene.initial.run sampleHappenings
    let slid := (scene.step sampleMissing).snapshot
    let moved := ((scene.step sampleMissing).step .tick).snapshot
    let ended := ((scene.step sampleMissing).run (List.replicate 12 .tick)).snapshot
    scene.Activates sampleMissing ∧
      slid.slide = ⟨true, 0, [⟨7, 0, 0, 0, 0⟩, ⟨6, 0, 0, 0, 0⟩, ⟨5, 0, 0, 0, 0⟩]⟩ ∧
      Strip.of slid.slide slid.blocks 9 = ⟨[⟨7, 0, 0, 0, 0⟩, ⟨6, 0, 0, 0, 0⟩], 1⟩ ∧
      Strip.of slid.slide slid.blocks 1 = ⟨[⟨7, 0, 0, 0, 0⟩], 1⟩ ∧
      Strip.of moved.slide moved.blocks 9 = ⟨[⟨7, 0, 0, 0, 0⟩, ⟨6, 0, 0, 0, 0⟩], 2⟩ ∧
      Strip.of ended.slide ended.blocks 9 = ⟨[⟨8, 0, 0, 0, 0⟩], 0⟩ := by
  have hslide : ((Scene.initial.run sampleHappenings).step sampleMissing).snapshot.slide
      = ⟨true, 0, [⟨7, 0, 0, 0, 0⟩, ⟨6, 0, 0, 0, 0⟩, ⟨5, 0, 0, 0, 0⟩]⟩ := by decide +kernel
  have hidle : (Scene.initial.run sampleHappenings).snapshot.slide.active = false := by
    decide +kernel
  refine ⟨?_, hslide, by decide +kernel, by decide +kernel, by decide +kernel, by decide +kernel⟩
  by_contra hnot
  have hsame := (strip_of_run sampleHappenings).2.2.1 sampleMissing
    (by rw [sampleMissing]; exact Happening.noConfusion) hnot
  rw [hslide] at hsame
  rw [← hsame] at hidle
  exact absurd hidle (by decide)

end Dashboard

end NodeWatch
