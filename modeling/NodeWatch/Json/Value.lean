import NodeWatch.Double.Arithmetic
import NodeWatch.Decimal.Shortest
import NodeWatch.Text.CodePoint

/-!
# JSON values

The values that the node and this program exchange. Whole numbers and
floating point numbers are kept apart, as their texts are: a whole number
lies in the range of sixty-four bits with sign, a floating point number is
any double. An object is a list of entries in the order in which their keys
were first written. Writing a key that is there replaces its value and
leaves its place; the order is never shown, because objects are printed and
listed by sorted keys.

## Main definitions

* `Json.Value`: The values.
* `Json.Kind`: The seven kinds of them, and their names.
* `Json.Entries.lookup`, `Json.Entries.insert`: Reading and writing a key.
* `Json.Entries.sorted`: The entries by key, in the order of code points.
* `Json.int?`, `Json.intOfDouble?`: Whole numbers that are in range.
-/

namespace NodeWatch

namespace Json

/-- A JSON value. -/
inductive Value where
  | null
  | bool (value : Bool)
  | int (value : Int64)
  | float (value : Double)
  | string (value : Text)
  | array (items : List Value)
  | object (entries : List (Text × Value))

instance : Inhabited Value := ⟨.null⟩

/-- The kinds of values. -/
inductive Kind where
  | null | bool | int | float | string | array | object
deriving DecidableEq, Repr

/-- The name of a kind. -/
def Kind.name : Kind → Text
  | .null => "null"
  | .bool => "bool"
  | .int => "int"
  | .float => "float"
  | .string => "string"
  | .array => "array"
  | .object => "object"

/-- The kind of a value. -/
def Value.kind : Value → Kind
  | .null => .null
  | .bool _ => .bool
  | .int _ => .int
  | .float _ => .float
  | .string _ => .string
  | .array _ => .array
  | .object _ => .object

/-- The entries of an object. -/
abbrev Entries := List (Text × Value)

namespace Entries

/-- The value of a key. -/
def lookup? (key : Text) : Entries → Option Value
  | [] => none
  | (k, v) :: rest => if k = key then some v else lookup? key rest

/-- The entries with a key set to a value, in its old place if it had one. -/
def insert (key : Text) (value : Value) : Entries → Entries
  | [] => [(key, value)]
  | (k, v) :: rest =>
    if k = key then (k, value) :: rest else (k, v) :: insert key value rest

/-- The entries that a sequence of writes leaves. -/
def ofList (writes : List (Text × Value)) : Entries :=
  writes.foldl (fun entries (k, v) => insert k v entries) []

end Entries

/-- A pair put in front of the first one whose key does not come before its own. -/
def insertByKey (pair : Text × α) : List (Text × α) → List (Text × α)
  | [] => [pair]
  | p :: rest =>
    if Text.isLE pair.1 p.1 then pair :: p :: rest else p :: insertByKey pair rest

/-- Pairs sorted by their keys, in the order of code points. -/
def sortByKey (pairs : List (Text × α)) : List (Text × α) := pairs.foldr insertByKey []

/-- The keys of an object in the order of code points. -/
def Entries.keys (entries : Entries) : List Text := (sortByKey entries).map (·.1)

/-- Why a number is not a whole number of a JSON text. -/
inductive IntError where
  /-- The number has a fraction or is no number. -/
  | fraction (x : Double)
  /-- The number needs more than sixty-four bits. -/
  | range
deriving DecidableEq

/-- The wording of the fault. -/
def IntError.message : IntError → Text
  | .fraction x => "not an integer: " ++ x.display
  | .range => "integer outside int64 range"

/-- The integers of sixty-four bits with sign. -/
def inRange (n : Int) : Bool := Int64.minValue.toInt ≤ n && n ≤ Int64.maxValue.toInt

/-- A whole number as a value, if it is in range. -/
def int? (n : Int) : Except IntError Value :=
  if inRange n then .ok (.int (Int64.ofInt n)) else .error .range

/-- A double as a whole number, if it is one and in range. -/
def intOfDouble? (x : Double) : Except IntError Value :=
  match x.toInt? with
  | some n => int? n
  | none => .error (.fraction x)

/-- Data without the distinction of whole and floating point numbers. -/
inductive Plain where
  | null
  | bool (value : Bool)
  | number (value : Double)
  | integer (value : Int)
  | string (value : Text)
  | array (items : List Plain)
  | object (entries : List (Text × Plain))

mutual

/-- Plain data as a value: a number that is a safe integer becomes a whole
    number and any other one a floating point number. -/
def Plain.toValue : Plain → Except IntError Value
  | .null => .ok .null
  | .bool b => .ok (.bool b)
  | .number x => if x.isSafeInteger then intOfDouble? x else .ok (.float x)
  | .integer n => int? n
  | .string s => .ok (.string s)
  | .array items => (Plain.toValues items).map .array
  | .object entries => (Plain.toEntries entries).map .object

/-- The values of a list of plain data. -/
def Plain.toValues : List Plain → Except IntError (List Value)
  | [] => .ok []
  | p :: rest =>
    match Plain.toValue p with
    | .error e => .error e
    | .ok v => (Plain.toValues rest).map (v :: ·)

/-- The entries of plain data. Of the entries of one key only the last counts. -/
def Plain.toEntries : List (Text × Plain) → Except IntError Entries
  | [] => .ok []
  | (k, p) :: rest =>
    if rest.any fun later => later.1 = k then Plain.toEntries rest
    else
      match Plain.toValue p with
      | .error e => .error e
      | .ok v => (Plain.toEntries rest).map ((k, v) :: ·)

end

end Json

end NodeWatch
