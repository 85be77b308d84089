import NodeWatch.Bytes.Hex

/-!
# Pool tags

Whoever finds a block writes what they like into the first input of its first
transaction, and pools write their names. The name is looked for among the
runs of printable ASCII: a slash ends a run just like an unprintable byte,
because pools put their names between slashes. One pass over the bytes keeps
the run that it is in and the best one before it. A run that ends takes the
place of the best one if it is longer, and if it is not too short to be a name.

## Main definitions

* `PoolTag.isLetter`: The bytes of a run.
* `PoolTag.Pass`: The best run so far, and the one that the pass is in.
* `PoolTag.bestRun`: The run that the pass leaves.
* `PoolTag.ofBytes`, `PoolTag.ofCoinbase`: The tag of what was written.
-/

namespace NodeWatch

namespace PoolTag

/-- What is shown when there is no tag. -/
def placeholder : Text := "—"

/-- The length of the shortest run that is taken for a name. -/
def shortest : Nat := 4

/-- The length of the longest tag that is shown. -/
def width : Nat := 24

/-- A printable ASCII character other than a slash. -/
def isLetter (b : UInt8) : Bool := 0x20 ≤ b && b < 0x7F && b != 0x2F

/-- The best run so far, which is empty until there is one, and the run that the
    pass is in. -/
structure Pass where
  best : Bytes
  run : Bytes

namespace Pass

/-- Nothing was read yet. -/
def start : Pass := ⟨[], []⟩

/-- The run ends; it is better than the best one only if it is longer. -/
def close (p : Pass) : Pass :=
  if shortest ≤ p.run.length ∧ p.best.length < p.run.length then ⟨p.run, []⟩ else ⟨p.best, []⟩

/-- A letter belongs to the run, and any other byte ends it. -/
def next (p : Pass) (b : UInt8) : Pass :=
  if isLetter b then { p with run := p.run ++ [b] } else p.close

end Pass

/-- The best run among bytes, or nothing if none is long enough. The end of the
    bytes ends the last run. -/
def bestRun (bytes : Bytes) : Bytes := (bytes.foldl Pass.next .start).close.best

/-- The tag among bytes. -/
def ofBytes (bytes : Bytes) : Text :=
  let best := bestRun bytes
  if best.isEmpty then placeholder else (best.take width).map fun b => UInt16.ofNat b.toNat

/-- The tag in the hexadecimal text of a coinbase; half a byte at its end is left out. -/
def ofCoinbase (hex : Text) : Except Hex.Error Text :=
  (Hex.decode (if hex.length % 2 = 0 then hex else hex.dropLast)).map ofBytes

end PoolTag

end NodeWatch
