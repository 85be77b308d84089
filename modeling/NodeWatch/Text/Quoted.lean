import NodeWatch.Text.Basic

/-!
# Quoted texts

A text inside a message can be written between marks, so that it shows where
it begins and ends and what in it cannot be seen. The marks are single
quotation marks unless these occur in the text; then double ones are taken,
or else backticks, provided that they do not occur in it. If all of them
occur, the single ones are taken and escaped.

Control characters and backslashes are escaped, and so are surrogates that
are not part of a pair.

A long text is cut behind its line feeds. Every line is written between marks
of its own, on a line of its own, with a plus sign before the next one.

## Main definitions

* `Text.quoteMark`: The mark around a text.
* `Text.quoted`: The text between its marks.
* `Text.feedLines`: The lines of a text.
* `Text.literal`: The text between marks, in lines if it is long.
-/

namespace NodeWatch

namespace Text

/-- A single quotation mark. -/
def singleMark : CodeUnit := 0x27

/-- A double quotation mark. -/
def doubleMark : CodeUnit := 0x22

/-- A backtick. -/
def backtick : CodeUnit := 0x60

/-- Whether a dollar sign stands before an opening brace, which means
    something between backticks. -/
def hasPlaceholder : Text → Bool
  | u :: v :: rest => (u == 0x24 && v == 0x7B) || hasPlaceholder (v :: rest)
  | _ => false

/-- The mark around a text. -/
def quoteMark (t : Text) : CodeUnit :=
  if !t.contains singleMark then singleMark
  else if !t.contains doubleMark then doubleMark
  else if !t.contains backtick && !hasPlaceholder t then backtick
  else singleMark

/-- The capital hexadecimal digit of a value. -/
def capitalDigit (n : Nat) : CodeUnit := UInt16.ofNat (if n < 10 then 0x30 + n else 0x37 + n)

/-- A unit that is not part of a pair, between given marks. -/
def quotedUnit (mark u : CodeUnit) : Text :=
  if u = mark then [0x5C, mark]
  else if u = 0x5C then "\\\\"
  else if u = 0x08 then "\\b"
  else if u = 0x09 then "\\t"
  else if u = 0x0A then "\\n"
  else if u = 0x0C then "\\f"
  else if u = 0x0D then "\\r"
  else if u < 0x20 || (0x7F ≤ u && u < 0xA0) then
    "\\x" ++ [capitalDigit (u.toNat / 16), capitalDigit (u.toNat % 16)]
  else if u.isHighSurrogate || u.isLowSurrogate then
    "\\u" ++ (Nat.toDigits 16 u.toNat).map ascii
  else [u]

/-- The units of a text between given marks. -/
def quotedUnits (mark : CodeUnit) : Text → Text
  | [] => []
  | [u] => quotedUnit mark u
  | u :: v :: rest =>
    if u.isHighSurrogate && v.isLowSurrogate then u :: v :: quotedUnits mark rest
    else quotedUnit mark u ++ quotedUnits mark (v :: rest)

/-- A text between its marks. -/
def quoted (t : Text) : Text :=
  let mark := quoteMark t
  mark :: quotedUnits mark t ++ [mark]

/-- The lines of a text, each with the line feed at its end. -/
def feedLines : Text → List Text
  | [] => []
  | u :: rest =>
    if u = 0x0A then [u] :: feedLines rest
    else match feedLines rest with
      | [] => [[u]]
      | line :: lines => (u :: line) :: lines

/-- The most units of a text that is not cut into lines: those of a line of
    eighty, without the marks and the plus sign. -/
def unbrokenUnits : Nat := 76

/-- The text between marks, in lines if it is long. -/
def literal (t : Text) : Text :=
  if t.length ≤ unbrokenUnits then t.quoted else join " +\n  " (t.feedLines.map quoted)

end Text

end NodeWatch
