import NodeWatch.Text.Utf8

/-!
# Base64

Three bytes make four letters of six bits each. One or two bytes at the end
make two or three letters, and equals signs fill up the group of four.

## Main definitions

* `Base64.letter`: The letter of six bits.
* `Base64.encode`: The letters of bytes.
-/

namespace NodeWatch

namespace Base64

/-- The letter of six bits: capitals, small letters, digits, plus and slash. -/
def letter (n : Nat) : CodeUnit :=
  UInt16.ofNat <|
    if n < 26 then 0x41 + n
    else if n < 52 then 0x61 + (n - 26)
    else if n < 62 then 0x30 + (n - 52)
    else if n = 62 then 0x2B
    else 0x2F

/-- What fills up the last group. -/
def filler : CodeUnit := 0x3D

/-- The letters of bytes. -/
def encode : Bytes → Text
  | [] => []
  | [a] => [letter (a.toNat / 4), letter (a.toNat % 4 * 16), filler, filler]
  | [a, b] =>
    [letter (a.toNat / 4), letter (a.toNat % 4 * 16 + b.toNat / 16),
      letter (b.toNat % 16 * 4), filler]
  | a :: b :: c :: rest =>
    letter (a.toNat / 4) :: letter (a.toNat % 4 * 16 + b.toNat / 16) ::
      letter (b.toNat % 16 * 4 + c.toNat / 64) :: letter (c.toNat % 64) :: encode rest

end Base64

end NodeWatch
