import NodeWatch.Json.Value
import NodeWatch.Text.Repeated

/-!
# Printing JSON

Every value has one text. Keys come in the order of their code points, so
two objects with the same entries print alike whatever the order in which
they were written. With an indentation every item stands on its own line;
without one there is no blank at all. An empty array or object is a pair of
brackets in both.

A floating point number is written with seventeen significant digits, which
tell every double apart, and always bears a point or an exponent, so that it
never reads back as a whole number. Infinities and what is not a number have
no text in JSON and print as `null`.

An indentation may ask for more blanks than a text has room for. The units of
a text are counted before it is written, so nothing is written in vain.

## Main definitions

* `Json.floatText`: The text of a floating point number.
* `Json.quote`: A string between quotation marks.
* `Json.Value.print`: The text of a value.
* `Json.Value.sizeAt`: The units of an indented text, before it is written.
* `Json.Value.printWith`: The text with an indentation that a number asks for.
-/

namespace NodeWatch

namespace Json

/-- Seventeen digits: positional from a ten thousandth up to seventeen digits,
    exponents of two digits at least, and a whole number marked by `.0`. -/
def floatLayout : Decimal.Layout := ⟨-4, 17, 2, ".0"⟩

/-- The text of a floating point number. -/
def floatText : Double → Text
  | .nan => "null"
  | .infinite _ => "null"
  | .finite s m q _ =>
    (if s then [ascii '-'] else []) ++
      if m = 0 then ("0.0" : Text)
      else
        let (num, den) := Double.quotient m q
        Decimal.write floatLayout (Decimal.significant 17 num den)

/-- A unit inside a string: escaped if it is a quotation mark, a backslash or
    a control character, itself otherwise. -/
def quoteUnit (u : CodeUnit) : Text :=
  if u = 0x22 then "\\\""
  else if u = 0x5C then "\\\\"
  else if u = 0x08 then "\\b"
  else if u = 0x0C then "\\f"
  else if u = 0x0A then "\\n"
  else if u = 0x0D then "\\r"
  else if u = 0x09 then "\\t"
  else if u < 0x20 then
    "\\u00" ++ [CodeUnit.ofHexValue (u.toNat / 16), CodeUnit.ofHexValue (u.toNat % 16)]
  else [u]

/-- A string between quotation marks. -/
def quote (s : Text) : Text := [0x22] ++ s.flatMap quoteUnit ++ [0x22]

/-- The blanks in front of a line at a given depth. -/
def margin (indent depth : Nat) : Text := List.replicate (depth * indent) (ascii ' ')

/-- Printed items between brackets, on lines of their own when indented. -/
def bracket (opening closing : CodeUnit) (indent : Option Nat) (depth : Nat)
    (parts : List Text) : Text :=
  if parts.isEmpty then [opening, closing]
  else match indent with
    | none => [opening] ++ Text.join "," parts ++ [closing]
    | some n =>
      let inner := margin n (depth + 1)
      [opening] ++ ("\n" ++ (inner ++ (Text.join (",\n" ++ inner) parts ++
        ("\n" ++ (margin n depth ++ [closing])))))

/-- An entry with its key in front. -/
def entryText (indent : Option Nat) (entry : Text × Text) : Text :=
  quote entry.1 ++ (if indent.isNone then ":" else ": ") ++ entry.2

mutual

/-- The text of a value at a given depth. -/
def Value.printAt (indent : Option Nat) (depth : Nat) : Value → Text
  | .null => "null"
  | .bool b => Text.ofBool b
  | .int n => Text.ofInt n.toInt
  | .float x => floatText x
  | .string s => quote s
  | .array items =>
    bracket (ascii '[') (ascii ']') indent depth (Value.printItems indent (depth + 1) items)
  | .object entries =>
    bracket (ascii '\x7b') (ascii '\x7d') indent depth
      ((sortByKey (Value.printEntries indent (depth + 1) entries)).map (entryText indent))

/-- The texts of the items of an array. -/
def Value.printItems (indent : Option Nat) (depth : Nat) : List Value → List Text
  | [] => []
  | v :: rest => Value.printAt indent depth v :: Value.printItems indent depth rest

/-- The keys and printed values of an object. -/
def Value.printEntries (indent : Option Nat) (depth : Nat) :
    List (Text × Value) → List (Text × Text)
  | [] => []
  | (k, v) :: rest => (k, Value.printAt indent depth v) :: Value.printEntries indent depth rest

end

/-- The text of a value, on one line or indented by a count of blanks. -/
def Value.print (v : Value) (indent : Option Nat) : Text := v.printAt indent 0

/-- The text of a value on one line. -/
def Value.compact (v : Value) : Text := v.print none

/-- Why a value has no text of a given indentation. -/
inductive IndentFault where
  /-- An indentation is a whole number that is not negative. -/
  | noIndent
  /-- There is no room for the text. -/
  | room (fault : Text.CountFault)
deriving DecidableEq

/-- The wording of the fault. -/
def IndentFault.message : IndentFault → Text
  | .noIndent => "indent must be a non-negative integer"
  | .room fault => fault.message

/-- The indentation that a number asks for. -/
def indentOf? (x : Double) : Option Nat :=
  match x.toInt? with
  | some n => if 0 ≤ n then some n.toNat else none
  | none => none

/-- The units of what stands between brackets on lines of its own at a given
    depth, brackets and blanks included, given the units of every item. -/
def bracketSize (indent : Double) (depth : Nat) (sizes : List Nat) : Except Text.CountFault Nat :=
  if sizes.isEmpty then .ok 2
  else do
    let inner ← Text.countOf (Double.ofNat (depth + 1) * indent)
    let outer ← Text.countOf (Double.ofNat depth * indent)
    let items := sizes.foldl (· + ·) ((sizes.length - 1) * (2 + inner))
    Text.fitting (4 + inner + outer + items)

/-- The units of an entry with its key in front, given those of its value. -/
def entrySize (entry : Text × Except Text.CountFault Nat) : Except Text.CountFault Nat := do
  Text.fitting ((quote entry.1).length + 2 + (← entry.2))

mutual

/-- The units of the indented text of a value at a given depth, if there is
    room for it. What is inside comes before the brackets around it, and the
    entries of an object come in the order of their keys: the first part that
    there is no room for is the one that counts. -/
def Value.sizeAt (indent : Double) (depth : Nat) : Value → Except Text.CountFault Nat
  | .array items => do
    bracketSize indent depth (← Value.itemSizes indent (depth + 1) items)
  | .object entries => do
    let sizes := sortByKey (Value.entrySizes indent (depth + 1) entries)
    bracketSize indent depth (← sizes.mapM entrySize)
  | v => .ok v.compact.length

/-- The units of the texts of the items of an array. -/
def Value.itemSizes (indent : Double) (depth : Nat) : List Value → Except Text.CountFault (List Nat)
  | [] => .ok []
  | v :: rest => do
    let size ← Value.sizeAt indent depth v
    return size :: (← Value.itemSizes indent depth rest)

/-- The keys of an object and the units of the texts of their values. -/
def Value.entrySizes (indent : Double) (depth : Nat) :
    List (Text × Value) → List (Text × Except Text.CountFault Nat)
  | [] => []
  | (k, v) :: rest => (k, Value.sizeAt indent depth v) :: Value.entrySizes indent depth rest

end

/-- The text of a value on one line, or with an indentation that a number asks for. -/
def Value.printWith (v : Value) : Option Double → Except IndentFault Text
  | none => .ok v.compact
  | some indent =>
    match indentOf? indent with
    | none => .error .noIndent
    | some n => ((v.sizeAt indent 0).mapError .room).map fun _ => v.print (some n)

end Json

end NodeWatch
