import NodeWatch.Double.Basic
import NodeWatch.Text.Basic

/-!
# What is drawn

A picture of the dashboard is a tree of boxes around styled texts. How a box
lays out what is in it and how a text is drawn on a terminal is left to
whoever draws the tree. Every part of a style can be left open, which is not
the same as turning it off.

## Main definitions

* `Dashboard.Color`: The colors by name.
* `Dashboard.BoxStyle`, `Dashboard.TextStyle`: The styles.
* `Dashboard.Element`: The tree.
* `Dashboard.labeled`, `Dashboard.framed`: Parts that every page is made of.
-/

namespace NodeWatch

namespace Dashboard

/-- A color of the terminal. -/
structure Color where
  name : Text
deriving DecidableEq

namespace Color

/-- Labels and borders. -/
def gray : Color := ⟨"gray"⟩
/-- Titles. -/
def brightYellow : Color := ⟨"yellowBright"⟩
/-- Links. -/
def cyan : Color := ⟨"cyan"⟩
/-- What is as it should be. -/
def green : Color := ⟨"green"⟩
/-- What deserves attention. -/
def yellow : Color := ⟨"yellow"⟩
/-- What is wrong. -/
def red : Color := ⟨"red"⟩
/-- Full blocks. -/
def brightRed : Color := ⟨"redBright"⟩
/-- Text on a dark ground. -/
def white : Color := ⟨"white"⟩
/-- Text on a bright ground. -/
def black : Color := ⟨"black"⟩

end Color

/-- Where the rest of the room in a box goes. -/
inductive Justify where
  | start | center | stop | between
deriving DecidableEq, Repr

/-- How a box lays out what is in it. -/
structure BoxStyle where
  /-- The parts stand below each other. -/
  column : Bool := false
  grow : Option Nat := none
  justify : Option Justify := none
  /-- The parts stand in the middle of the other direction. -/
  centered : Bool := false
  /-- There is a border with round corners. -/
  border : Bool := false
  borderColor : Option Color := none
  width : Option Double := none
  marginLeft : Option Double := none
  marginTop : Option Double := none
deriving DecidableEq

/-- How a text is drawn. -/
structure TextStyle where
  color : Option Color := none
  background : Option Color := none
  bold : Option Bool := none
  inverse : Option Bool := none
  dim : Option Bool := none
  underline : Option Bool := none
  /-- A text that is too long is cut. -/
  cut : Bool := false
deriving DecidableEq

/-- A box around other elements, or a text. -/
inductive Element where
  | box (style : BoxStyle) (children : List Element)
  | text (style : TextStyle) (content : Text)

/-- A row without a style. -/
def row (children : List Element) : Element := .box {} children

/-- A text in a color. -/
def colored (color : Color) (content : Text) : Element := .text { color := some color } content

/-- A bold text, in a color if one is given. -/
def bold (color : Option Color) (content : Text) : Element :=
  .text { color, bold := some true } content

/-- A value after its label, in a color if one is given. -/
def labeledIn (color : Option Color) (label value : Text) : Element :=
  row [colored .gray label, bold color value]

/-- A value after its label. -/
def labeled (label value : Text) : Element := labeledIn none label value

/-- A framed part of a page under a title; it may take the room that is left. -/
def framed (title : Text) (grow : Bool) (children : List Element) : Element :=
  .box
    { column := true, border := true, borderColor := some .gray
      grow := some (if grow then 1 else 0) }
    (bold (some .brightYellow) (ascii ' ' :: title ++ [ascii ' ']) :: children)

end Dashboard

end NodeWatch
