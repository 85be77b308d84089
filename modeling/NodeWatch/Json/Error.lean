import NodeWatch.Text.Basic

/-!
# Faults of a JSON text

A text that is no JSON has a first fault, at an offset counted in code units.
While a text is being read the place of a fault is known by how much of the
text is left, since readers see only what is still to come; the offset
follows once the length of the whole text is known. One fault lies past the
end: a backslash that ends the text has been read together with the unit that
should have followed it.

## Main definitions

* `Json.Fault`: What is wrong, and its wording.
* `Json.Failure`: A fault with what was left of the text.
* `Json.ParseError`: A fault with its offset.
* `Json.Failure.locate`: From the one to the other.
-/

namespace NodeWatch

namespace Json

/-- What is wrong with a text. -/
inductive Fault where
  /-- A value is missing at the end. -/
  | endOfInput
  /-- The colon after a key is missing at the end. -/
  | colonMissing
  /-- Something other than a colon follows a key. -/
  | colonExpected (got : CodeUnit)
  /-- No value begins this way. -/
  | unexpected (got : CodeUnit)
  /-- A word begins like a literal and goes on otherwise. -/
  | literal (word : Text)
  /-- A key is missing. -/
  | key
  /-- The text ends inside an object. -/
  | objectEnd
  /-- Neither a comma nor the end of the object follows an entry. -/
  | objectSeparator
  /-- The text ends inside an array. -/
  | arrayEnd
  /-- Neither a comma nor the end of the array follows an item. -/
  | arraySeparator
  /-- The text ends inside a string. -/
  | unterminated
  /-- The text ends with a backslash inside a string. -/
  | unterminatedEscape
  /-- A backslash precedes a unit that it does not escape. -/
  | escape (got : CodeUnit)
  /-- Fewer than four units follow the `u` of an escape. -/
  | shortHex
  /-- Something other than hexadecimal digits follows the `u` of an escape. -/
  | badHex
  /-- A minus sign is not followed by a digit. -/
  | digit
  /-- A point is not followed by a digit. -/
  | fractionDigit
  /-- An exponent has no digit. -/
  | exponentDigit
  /-- A whole number needs more than sixty-four bits. -/
  | intRange
  /-- Something other than blanks follows the value. -/
  | trailing
deriving DecidableEq

/-- The wording of a fault. -/
def Fault.message : Fault → Text
  | .endOfInput => "Unexpected end of input"
  | .colonMissing => "Unexpected end of input, expected ':'"
  | .colonExpected got => "Expected ':', got '" ++ [got] ++ "'"
  | .unexpected got => "Unexpected character '" ++ [got] ++ "'"
  | .literal word => "Invalid literal, expected '" ++ word ++ "'"
  | .key => "Expected string key"
  | .objectEnd => "Unexpected end of input in object"
  | .objectSeparator => "Expected ',' or '\x7d'"
  | .arrayEnd => "Unexpected end of input in array"
  | .arraySeparator => "Expected ',' or ']'"
  | .unterminated => "Unterminated string"
  | .unterminatedEscape => "Unterminated string"
  | .escape got => "Invalid escape '\\" ++ [got] ++ "'"
  | .shortHex => "Truncated \\u escape"
  | .badHex => "Bad hex in \\u escape"
  | .digit => "Expected digit"
  | .fractionDigit => "Expected digit after '.'"
  | .exponentDigit => "Expected digit in exponent"
  | .intRange => "Integer out of int64 range"
  | .trailing => "Trailing content after JSON value"

/-- A fault found while some of the text was left. -/
structure Failure where
  fault : Fault
  left : Nat
deriving DecidableEq

/-- A fault of a whole text. -/
structure ParseError where
  fault : Fault
  offset : Nat
deriving DecidableEq

/-- The units that a fault lies behind the end of what was read for certain. -/
def Fault.overrun : Fault → Nat
  | .unterminatedEscape => 1
  | _ => 0

/-- The place of a failure in a text of a given length. -/
def Failure.locate (length : Nat) (f : Failure) : ParseError :=
  ⟨f.fault, length - f.left + f.fault.overrun⟩

/-- The wording of a fault with its place. -/
def ParseError.message (e : ParseError) : Text :=
  e.fault.message ++ " at offset " ++ Text.ofNat e.offset

end Json

end NodeWatch
