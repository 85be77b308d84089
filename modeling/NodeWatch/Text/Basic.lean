/-!
# Text as code units

A text is a sequence of sixteen-bit code units, the unit in which every
length, offset and cut of this library is counted. A character outside the
basic plane takes two units, a high and a low surrogate; a cut may separate
them, and a lone surrogate is as good a unit as any other. That is why a text
is not a `String`: a `String` has no room for half a character, and the
places where texts are cut have to agree with the places where offsets are
reported.

Literals are written as strings and coerced by `Text.ofString`, which pairs
up the surrogates of every character it meets.

## Main definitions

* `CodeUnit`, `Text`: The unit and its sequences.
* `Text.ofString`: The code units of a string.
* `Text.ofNat`, `Text.ofInt`: Decimal digits.
* `Text.padStart`: Filling up on the left.
* `Text.ofBool`: The words `true` and `false`.
-/

namespace NodeWatch

/-- A sixteen-bit code unit. -/
abbrev CodeUnit := UInt16

/-- A text is a list of code units, surrogates paired or not. -/
abbrev Text := List CodeUnit

/-- The code unit of an ASCII character. -/
def ascii (c : Char) : CodeUnit := UInt16.ofNat c.toNat

namespace CodeUnit

/-- The first half of a surrogate pair. -/
def isHighSurrogate (u : CodeUnit) : Bool := 0xD800 ≤ u && u ≤ 0xDBFF

/-- The second half of a surrogate pair. -/
def isLowSurrogate (u : CodeUnit) : Bool := 0xDC00 ≤ u && u ≤ 0xDFFF

/-- One of the digits `0` to `9`. -/
def isDigit (u : CodeUnit) : Bool := 0x30 ≤ u && u ≤ 0x39

/-- The value of a hexadecimal digit of either case. -/
def hexValue? (u : CodeUnit) : Option Nat :=
  if 0x30 ≤ u && u ≤ 0x39 then some (u.toNat - 0x30)
  else if 0x61 ≤ u && u ≤ 0x66 then some (u.toNat - 0x57)
  else if 0x41 ≤ u && u ≤ 0x46 then some (u.toNat - 0x37)
  else none

/-- A hexadecimal digit of either case. -/
def isHexDigit (u : CodeUnit) : Bool := u.hexValue?.isSome

/-- The digit of a value below sixteen, in lower case. -/
def ofHexValue (n : Nat) : CodeUnit :=
  UInt16.ofNat (if n < 10 then 0x30 + n else 0x57 + n)

end CodeUnit

namespace Text

/-- The units of one character: itself, or a surrogate pair beyond the basic plane. -/
def ofChar (c : Char) : Text :=
  if c.toNat < 0x10000 then [UInt16.ofNat c.toNat]
  else [UInt16.ofNat (0xD800 + (c.toNat - 0x10000) / 0x400),
    UInt16.ofNat (0xDC00 + (c.toNat - 0x10000) % 0x400)]

/-- The code units of a string. -/
def ofString (s : String) : Text := s.toList.flatMap ofChar

instance : Coe String Text := ⟨ofString⟩

/-- The decimal digits of a natural number, without leading zeros. -/
def ofNat (n : Nat) : Text := (Nat.toDigits 10 n).map ascii

/-- The decimal text of an integer, a minus sign before its digits when negative. -/
def ofInt : Int → Text
  | .ofNat n => ofNat n
  | .negSucc n => ascii '-' :: ofNat (n + 1)

/-- `true` or `false`. -/
def ofBool (b : Bool) : Text := if b then "true" else "false"

/-- The text filled up on its left to a given length; a longer text is left alone. -/
def padStart (t : Text) (length : Nat) (fill : CodeUnit) : Text :=
  List.replicate (length - t.length) fill ++ t

/-- The number that a sequence of decimal digits writes. -/
def digitsValue (t : Text) : Nat :=
  t.foldl (fun n u => n * 10 + (u.toNat - 0x30)) 0

/-- Every unit is a digit and there is at least one. -/
def isDigits (t : Text) : Bool := !t.isEmpty && t.all CodeUnit.isDigit

/-- The texts between the occurrences of a separator, joined again by another. -/
def join (separator : Text) (parts : List Text) : Text :=
  separator.intercalate parts

/-- The part of a text before the first occurrence of a mark; all of it when there is none. -/
def before (mark : Text) : Text → Text
  | [] => []
  | u :: rest => if mark.isPrefixOf (u :: rest) then [] else u :: before mark rest

/-- Every occurrence of a mark replaced, from the left, by another text. -/
def replaceAll (mark replacement : Text) (t : Text) : Text :=
  match t with
  | [] => []
  | u :: rest =>
    if mark.isPrefixOf (u :: rest) then
      replacement ++ replaceAll mark replacement (rest.drop (mark.length - 1))
    else u :: replaceAll mark replacement rest
termination_by t.length
decreasing_by all_goals (simp only [List.length_drop, List.length_cons]; omega)

end Text

end NodeWatch
