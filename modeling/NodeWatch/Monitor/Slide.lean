import NodeWatch.Double.Arithmetic
import NodeWatch.Monitor.Snapshot

/-!
# Sliding to a new list of blocks

When a list of blocks is replaced by a new one, the old one slides to the
right, a frame at a time, and gives way to the new one after twelve frames.
Nothing slides into an empty list or out of one.

## Main definitions

* `Monitor.slideFrames`: The frames that a slide takes.
* `Monitor.Snapshot.advanceSlide`: The next frame.
* `Monitor.Snapshot.withBlocks`: A new list of blocks.
-/

namespace NodeWatch

namespace Monitor

/-- The frames that a slide takes. -/
def slideFrames : Double := 12

/-- The next frame of a slide that goes on. -/
def Slide.advance (slide : Slide) : Slide :=
  let frame := slide.frame + 1
  { slide with frame, active := !decide (slideFrames ≤ frame) }

/-- The snapshot at the next frame, if a slide goes on. -/
def Snapshot.advanceSlide (s : Snapshot) : Option Snapshot :=
  if s.slide.active then some { s with slide := s.slide.advance } else none

/-- The snapshot with a new list of blocks, fetched for a given tip. -/
def Snapshot.withBlocks (s : Snapshot) (blocks : List RecentBlock) (tip : Double) : Snapshot :=
  { s with
    slide := if s.blocks.isEmpty || blocks.isEmpty then s.slide else ⟨true, 0, s.blocks⟩
    blocks
    blocksTip := tip }

end Monitor

end NodeWatch
