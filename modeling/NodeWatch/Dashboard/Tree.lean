import NodeWatch.Dashboard.Element
import NodeWatch.Json.Value

/-!
# Drawings as documents

A drawing can be written down as a JSON document, for whoever puts it on a
terminal. An element is an array: the name of its sort, its style, and what is
in it. A style names the parts that are settled and no others.

## Main definitions

* `Dashboard.BoxStyle.toJson`, `Dashboard.TextStyle.toJson`: The styles.
* `Dashboard.Element.toJson`: The elements.
-/

namespace NodeWatch

namespace Dashboard

open Json (Value)

/-- The document of a color. -/
def Color.toJson (c : Color) : Value := .string c.name

/-- The name of where the rest of the room goes. -/
def Justify.name : Justify → Text
  | .start => "flex-start"
  | .center => "center"
  | .stop => "flex-end"
  | .between => "space-between"

/-- The parts of a style that are settled. -/
def settled (parts : List (Text × Option Value)) : Value :=
  .object (parts.filterMap fun (key, value) => value.map (key, ·))

/-- A part of a style that is settled when it is wanted. -/
def wanted (b : Bool) (value : Text) : Option Value := if b then some (.string value) else none

/-- The document of the style of a box. -/
def BoxStyle.toJson (s : BoxStyle) : Value :=
  settled [("flexDirection", wanted s.column "column"),
    ("flexGrow", s.grow.map fun n => .float (Double.ofNat n)),
    ("justifyContent", s.justify.map fun j => .string j.name),
    ("alignItems", wanted s.centered "center"), ("borderStyle", wanted s.border "round"),
    ("borderColor", s.borderColor.map Color.toJson), ("width", s.width.map .float),
    ("marginLeft", s.marginLeft.map .float), ("marginTop", s.marginTop.map .float)]

/-- The document of the style of a text. -/
def TextStyle.toJson (s : TextStyle) : Value :=
  settled [("color", s.color.map Color.toJson), ("backgroundColor", s.background.map Color.toJson),
    ("bold", s.bold.map .bool), ("inverse", s.inverse.map .bool), ("dimColor", s.dim.map .bool),
    ("underline", s.underline.map .bool), ("wrap", wanted s.cut "truncate")]

mutual

/-- The document of an element. -/
def Element.toJson : Element → Value
  | .box style children => .array (.string "Box" :: style.toJson :: elementsToJson children)
  | .text style content => .array [.string "Text", style.toJson, .string content]

/-- The documents of several elements. -/
def elementsToJson : List Element → List Value
  | [] => []
  | e :: rest => e.toJson :: elementsToJson rest

end

end Dashboard

end NodeWatch
