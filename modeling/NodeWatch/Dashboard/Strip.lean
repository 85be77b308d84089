import NodeWatch.Dashboard.Gauge
import NodeWatch.Monitor.Slide
import NodeWatch.Report.Amount
import NodeWatch.Report.Elapsed
import NodeWatch.Report.Grouped
import NodeWatch.Span

/-!
# The strip of recent blocks

The newest blocks stand side by side, each a column with a bar that shows how
full the block is. While the list slides to a new one, the strip shows the
old list instead, moved to the right by a part of a column that grows with
every frame; its last block is left out, for it is on its way out of view.

## Main definitions

* `Dashboard.columnsIn`: The columns that fit into a width.
* `Dashboard.Strip`: The blocks that are shown, and how far they are moved.
* `Dashboard.Strip.of`: The strip of a list and a slide.
* `Dashboard.blocksStrip`: The drawing.
-/

namespace NodeWatch

namespace Dashboard

open Monitor (RecentBlock Slide Snapshot)

/-- The width of a column. -/
def columnWidth : Nat := 10

/-- The columns that fit into a width, one at least. -/
def columnsIn (width : Double) : Double :=
  Double.max 1 ((width - 4) / Double.ofNat (columnWidth + 1)).floor

/-- The blocks that are shown, and how far they are moved to the right. -/
structure Strip where
  blocks : List RecentBlock
  leftPad : Double
deriving DecidableEq

/-- How far a list has moved to the right at a frame: the part of a column and
    its margin that corresponds to the part of the slide, to the nearest, a
    half up. -/
def padAt (frame : Double) : Double :=
  ((frame + 1) / Monitor.slideFrames * Double.ofNat (columnWidth + 1)).round

/-- Some of the first blocks of a list; no more than there are, and counted
    from the end when their number is negative. -/
def firstBlocks (blocks : List RecentBlock) (limit : Nat) (columns : Double) : List RecentBlock :=
  Span.upTo blocks (Double.min (Double.ofNat limit) columns)

/-- The strip of a list and a slide, of a given number of columns at most. -/
def Strip.of (slide : Slide) (blocks : List RecentBlock) (columns : Double) : Strip :=
  if slide.active && !slide.previous.isEmpty then
    ⟨firstBlocks slide.previous (slide.previous.length - 1) columns, padAt slide.frame⟩
  else ⟨firstBlocks blocks blocks.length columns, 0⟩

/-- A text in the middle of a column; a longer one is cut. -/
def centered (t : Text) : Text :=
  if columnWidth ≤ t.length then t.take columnWidth
  else
    let left := (columnWidth - t.length) / 2
    List.replicate left (ascii ' ') ++ t ++
      List.replicate (columnWidth - t.length - left) (ascii ' ')

/-- A row of the bar of a block, counted from the top. -/
def barRow (fill : Fill) (row : Nat) : Element :=
  if barHeight - fill.rows ≤ row then
    colored fill.color (List.replicate columnWidth fullCell)
  else colored .gray (List.replicate columnWidth emptyCell)

/-- The column of a block; the first one has no margin. -/
def blockColumn (now : Double) (first : Bool) (b : RecentBlock) : Element :=
  let fill := Fill.ofWeight b.weight
  .box
    { column := true, width := some (Double.ofNat columnWidth)
      marginLeft := some (if first then 0 else 1) }
    ((List.range barHeight).map (barRow fill) ++
      [.text {} (centered (Report.height b.height)),
        colored .gray (centered (Report.count b.transactions ++ (" tx" : Text))),
        colored .gray (centered (Report.bytes b.size)),
        colored .gray (centered (if 0 < b.time then Report.ago b.time now else []))])

/-- The columns of several blocks. -/
def blockColumns (now : Double) : List RecentBlock → List Element
  | [] => []
  | b :: rest => blockColumn now true b :: rest.map (blockColumn now false)

/-- The strip of a snapshot in a given width, at a time in seconds. -/
def blocksStrip (s : Snapshot) (width now : Double) : Element :=
  framed "Recent Blocks" false <|
    if s.blocks.isEmpty && !s.slide.active then [colored .gray "  Fetching…"]
    else
      let strip := Strip.of s.slide s.blocks (columnsIn width)
      [.box { marginLeft := some (2 + strip.leftPad), marginTop := some 1 }
        (blockColumns now strip.blocks)]

end Dashboard

end NodeWatch
