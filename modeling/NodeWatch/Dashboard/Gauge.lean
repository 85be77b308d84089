import NodeWatch.Dashboard.Element
import NodeWatch.Text.Repeated

/-!
# Gauges

A gauge is a row of cells of which a fraction is full. Fractions below zero
and above one count as these, and one that is no finite number as zero. The
full cells are rounded to the nearest, a half up.

## Main definitions

* `Dashboard.bar`: The cells of a gauge.
* `Dashboard.gauge`: A gauge with its label and what follows it.
* `Dashboard.usageColor`: How full is too full.
* `Dashboard.Fill`, `Dashboard.Fill.ofWeight`: How full a block is.
-/

namespace NodeWatch

namespace Dashboard

open Text (CountFault)

/-- A full cell. -/
def fullCell : CodeUnit := 0x2588

/-- An empty cell. -/
def emptyCell : CodeUnit := 0x2591

/-- A fraction that a gauge can show. -/
def fractionOf (x : Double) : Double := if x.isFinite then Double.min 1 (Double.max 0 x) else 0

/-- The cells of a gauge of a given width. -/
def bar (fraction width : Double) : Except CountFault Text := do
  let cells := (fractionOf fraction * width).round
  let full ← Text.countOf cells
  let empty ← Text.countOf (width - cells)
  let _ ← Text.fitting (full + empty)
  return List.replicate full fullCell ++ List.replicate empty emptyCell

/-- A gauge with its label and what follows it. -/
def gaugeOf (label : Text) (fraction : Double) (color : Color) (suffix : Text) (width : Double) :
    Except CountFault Element := do
  let bar ← bar fraction width
  return row [colored .gray label, colored color bar, bold none (ascii ' ' :: suffix)]

/-- The cells of a gauge unless it is given another width. -/
def gaugeWidth : Nat := 24

/-- A gauge of a width that there can be. -/
def gauge (label : Text) (fraction : Double) (color : Color) (suffix : Text) (width : Nat) :
    Element :=
  match gaugeOf label fraction color suffix (Double.ofNat width) with
  | .ok element => element
  | .error _ => row []

/-- How full is too full. -/
def usageColor (fraction : Double) : Color :=
  if 0.8 < fraction then .red else if 0.5 < fraction then .yellow else .cyan

/-- The weight that a block can have at most. -/
def maxBlockWeight : Double := 4000000

/-- The height of the bar of a block. -/
def barHeight : Nat := 6

/-- How full a block is: the full cells of its bar, and their color. -/
structure Fill where
  rows : Nat
  color : Color
deriving DecidableEq

/-- How full a block of a given weight is. -/
def Fill.ofWeight (weight : Double) : Fill :=
  let fill := if 0 < weight then Double.min 1 (weight / maxBlockWeight) else 0
  { rows := ((fill * Double.ofNat barHeight).round.truncInt?.getD 0).toNat
    color := if 0.9 < fill then .brightRed else if 0.7 < fill then .yellow else .green }

end Dashboard

end NodeWatch
