import NodeWatch.Json.Value

/-!
# Reading parts of JSON values

Reading never fails: a missing key, an index outside an array and a value of
another kind all yield `null`. The node is free to leave out or retype any
field, so the readers of its replies take a fallback for every field and use
it whenever the stored value does not convert.

A conversion keeps what a value means: a whole number is a number too, and a
floating point number is a whole one with its fraction dropped; nothing else
is converted.

## Main definitions

* `Json.Key`, `Json.Value.at`, `Json.Value.follow`: One step into a value, and a path of them.
* `Json.Value.asBool?`, `Json.Value.asNumber?`, `Json.Value.asInteger?`,
  `Json.Value.asText?`: Conversions.
* `Json.Value.boolOr`, `Json.Value.numberOr`, `Json.Value.integerOr`,
  `Json.Value.textOr`: Fields with a fallback.
* `Json.Target`, `Json.Value.convert`: A conversion that was asked for by name.
* `Json.AccessError`: What a conversion or a write can fail with.
-/

namespace NodeWatch

namespace Json

/-- One step into a value: a key of an object or an index of an array. -/
inductive Key where
  | name (key : Text)
  | index (i : Int)
deriving DecidableEq

/-- The index that a number names; one with a fraction names no item. -/
def Key.ofDouble (x : Double) : Key := .index (x.toInt?.getD (-1))

/-- The kinds that a value can be converted to. -/
inductive Target where
  | bool | number | integer | string
deriving DecidableEq

/-- The name of a target. -/
def Target.name : Target → Text
  | .bool => "bool"
  | .number => "number"
  | .integer => "bigint"
  | .string => "string"

/-- What a conversion or a write can fail with. -/
inductive AccessError where
  /-- A value of this kind does not convert to the target. -/
  | conversion (kind : Kind) (target : Target)
  /-- A key cannot be set on a value of this kind. -/
  | setKey (key : Text) (kind : Kind)
  /-- Nothing can be appended to a value of this kind. -/
  | append (kind : Kind)
deriving DecidableEq

/-- The wording of the fault. -/
def AccessError.message : AccessError → Text
  | .conversion kind target => "cannot read " ++ kind.name ++ " as " ++ target.name
  | .setKey key kind => "cannot set key '" ++ key ++ "' on " ++ kind.name
  | .append kind => "cannot append to " ++ kind.name

/-- The part of a value behind one step, `null` where there is none. -/
def Value.at (v : Value) (key : Key) : Value :=
  match v, key with
  | .object entries, .name k => (Entries.lookup? k entries).getD .null
  | .array items, .index i => if 0 ≤ i then items.getD i.toNat .null else .null
  | _, _ => .null

/-- The part of a value behind a key, `null` where there is none. -/
def Value.field (v : Value) (key : Text) : Value := v.at (.name key)

/-- The part of a value behind a path. -/
def Value.follow (v : Value) (path : List Key) : Value := path.foldl Value.at v

/-- The truth value that a value is. -/
def Value.asBool? : Value → Option Bool
  | .bool b => some b
  | _ => none

/-- The number that a value is. -/
def Value.asNumber? : Value → Option Double
  | .int n => some (Double.ofInt n.toInt)
  | .float x => some x
  | _ => none

/-- The whole number that a value is or that is left of it without its fraction. -/
def Value.asInteger? : Value → Option Int
  | .int n => some n.toInt
  | .float x => x.truncInt?
  | _ => none

/-- The text that a value is. -/
def Value.asText? : Value → Option Text
  | .string s => some s
  | _ => none

/-- A truth value behind a key, or else the fallback. -/
def Value.boolOr (v : Value) (key : Text) (fallback : Bool) : Bool :=
  (v.field key).asBool?.getD fallback

/-- A number behind a key, or else the fallback. -/
def Value.numberOr (v : Value) (key : Text) (fallback : Double) : Double :=
  (v.field key).asNumber?.getD fallback

/-- A whole number behind a key, or else the fallback. -/
def Value.integerOr (v : Value) (key : Text) (fallback : Int) : Int :=
  (v.field key).asInteger?.getD fallback

/-- A text behind a key, or else the fallback. -/
def Value.textOr (v : Value) (key : Text) (fallback : Text) : Text :=
  (v.field key).asText?.getD fallback

/-- What a value was converted to. -/
inductive Scalar where
  | bool (value : Bool)
  | number (value : Double)
  | integer (value : Int)
  | string (value : Text)
deriving DecidableEq

/-- A value converted to a target. -/
def Value.convert (v : Value) (target : Target) : Except AccessError Scalar :=
  let got := match target with
    | .bool => v.asBool?.map .bool
    | .number => v.asNumber?.map .number
    | .integer => v.asInteger?.map .integer
    | .string => v.asText?.map .string
  match got with
  | some s => .ok s
  | none => .error (.conversion v.kind target)

/-- The value behind a key converted like the fallback, or else the fallback. -/
def Value.scalarOr (v : Value) (key : Text) : Scalar → Scalar
  | .bool b => .bool (v.boolOr key b)
  | .number x => .number (v.numberOr key x)
  | .integer n => .integer (v.integerOr key n)
  | .string s => .string (v.textOr key s)

/-- Whether an object has a key. -/
def Value.hasKey (v : Value) (key : Text) : Bool :=
  match v with
  | .object entries => (Entries.lookup? key entries).isSome
  | _ => false

/-- The items of an array; other values have none. -/
def Value.items : Value → List Value
  | .array items => items
  | _ => []

/-- The keys of an object in order; other values have none. -/
def Value.keys : Value → List Text
  | .object entries => Entries.keys entries
  | _ => []

/-- The number of items or entries. -/
def Value.size : Value → Nat
  | .array items => items.length
  | .object entries => entries.length
  | _ => 0

/-- Whether a value is a number of either sort. -/
def Value.isNumber : Value → Bool
  | .int _ => true
  | .float _ => true
  | _ => false

/-- Whether a value is `null`. -/
def Value.isNull : Value → Bool
  | .null => true
  | _ => false

end Json

end NodeWatch
