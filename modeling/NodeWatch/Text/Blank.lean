import NodeWatch.Text.Basic

/-!
# Blank characters

The characters that count as blank around a query, a host or a number typed
by hand: the space separators of Unicode, the ASCII controls for tab and line
breaks, the line and paragraph separators and the byte order mark. All of
them lie in the basic plane, so blankness is a property of a single unit.

## Main definitions

* `CodeUnit.isBlank`: The class.
* `Text.trim`: The text without blanks at its ends.
* `Text.isBlank`: Nothing but blanks.
-/

namespace NodeWatch

/-- A blank character. -/
def CodeUnit.isBlank (u : CodeUnit) : Bool :=
  (0x09 ≤ u && u ≤ 0x0D) || u == 0x20 || u == 0xA0 || u == 0x1680 ||
    (0x2000 ≤ u && u ≤ 0x200A) || u == 0x2028 || u == 0x2029 || u == 0x202F ||
    u == 0x205F || u == 0x3000 || u == 0xFEFF

namespace Text

/-- The text without blanks at its front. -/
def trimStart (t : Text) : Text := t.dropWhile CodeUnit.isBlank

/-- The text without blanks at its ends. -/
def trim (t : Text) : Text := (trimStart (trimStart t).reverse).reverse

/-- Nothing but blanks. -/
def isBlank (t : Text) : Bool := t.all CodeUnit.isBlank

end Text

end NodeWatch
