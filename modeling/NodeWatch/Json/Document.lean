import NodeWatch.Json.Access

/-!
# Writing into JSON documents

A write is aimed at the value behind a path and either sets a key of an
object or appends an item to an array. Aimed at a value of another kind, or
along a path that does not exist, it fails and leaves the document as it
was: a missing part reads as `null`, and nothing can be written into that.

## Main definitions

* `Json.Write`: The two writes.
* `Json.Write.apply`: A write into the value that it is aimed at.
* `Json.Value.writeAt`: A write into the value behind a path.
-/

namespace NodeWatch

namespace Json

/-- A change of one value. -/
inductive Write where
  | set (key : Text) (item : Value)
  | push (item : Value)

/-- The value after a write into it. -/
def Write.apply : Write → Value → Except AccessError Value
  | .set key item, .object entries => .ok (.object (Entries.insert key item entries))
  | .push item, .array items => .ok (.array (items ++ [item]))
  | .set key _, v => .error (.setKey key v.kind)
  | .push _, v => .error (.append v.kind)

/-- The document after a write into the value behind a path. -/
def Value.writeAt (v : Value) (path : List Key) (w : Write) : Except AccessError Value :=
  match path with
  | [] => w.apply v
  | key :: rest =>
    match writeAt (v.at key) rest w with
    | .error e => .error e
    | .ok part =>
      match v, key with
      | .object entries, .name k => .ok (.object (Entries.insert k part entries))
      | .array items, .index i => .ok (.array (items.set i.toNat part))
      | _, _ => .ok v

end Json

end NodeWatch
