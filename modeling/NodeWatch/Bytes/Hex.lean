import NodeWatch.Text.Utf8

/-!
# Hexadecimal bytes

Two digits to a byte, the high half first. Reading takes digits of either
case, writing gives lower case. Hashes and transaction identifiers are texts
of this kind, sixty-four digits long; a height is one to eight decimal
digits. The two together are what can be looked up.

## Main definitions

* `Hex.encode`, `Hex.decode`: Between bytes and their digits.
* `Hex.Error`: Why a text is not the digits of bytes.
* `Hex.isHash`: A block hash or transaction identifier.
* `Hex.isHeight`: A block height.
* `Hex.isQuery`: What can be looked up.
-/

namespace NodeWatch

namespace Hex

/-- Why a text is not the digits of bytes. -/
inductive Error where
  /-- A digit is without its partner. -/
  | oddLength
  /-- A unit is no digit. -/
  | notHex
deriving DecidableEq, Repr

/-- The wording of the fault. -/
def Error.message : Error → Text
  | .oddLength => "Invalid hex length"
  | .notHex => "Invalid hex"

/-- Nothing but hexadecimal digits. -/
def isHex (s : Text) : Bool := s.all CodeUnit.isHexDigit

/-- The bytes of pairs of digits. -/
def pairs? : Text → Option Bytes
  | [] => some []
  | [_] => none
  | high :: low :: rest => do
    let h ← high.hexValue?
    let l ← low.hexValue?
    return UInt8.ofNat (h * 16 + l) :: (← pairs? rest)

/-- The bytes that a text writes. An odd length is reported before a bad digit. -/
def decode (s : Text) : Except Error Bytes :=
  if s.length % 2 ≠ 0 then .error .oddLength
  else match pairs? s with
    | some bytes => .ok bytes
    | none => .error .notHex

/-- The two digits of a byte. -/
def encodeByte (b : UInt8) : Text :=
  [CodeUnit.ofHexValue (b.toNat / 16), CodeUnit.ofHexValue (b.toNat % 16)]

/-- The digits of bytes. -/
def encode (bytes : Bytes) : Text := bytes.flatMap encodeByte

/-- A block hash or transaction identifier: thirty-two bytes in digits. -/
def isHash (s : Text) : Bool := s.length == 64 && isHex s

/-- A block height: one to eight decimal digits. -/
def isHeight (s : Text) : Bool := 1 ≤ s.length && s.length ≤ 8 && s.all CodeUnit.isDigit

/-- What can be looked up: a hash, a transaction identifier or a height. -/
def isQuery (s : Text) : Bool := isHash s || isHeight s

end Hex

end NodeWatch
