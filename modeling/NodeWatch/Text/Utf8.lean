import NodeWatch.Text.CodePoint

/-!
# UTF-8

Encoding writes each code point of a text in one to four bytes, a lone
surrogate as the replacement character. Decoding accepts any bytes. It reads
from the left and replaces every maximal part that begins a character and
cannot be finished by one replacement character; the byte that broke it off
is then read afresh. The bounds on the first continuation byte keep out
overlong forms, surrogates and values past the last code point.

A byte order mark is an ordinary character here; `Utf8.decodeMarked` is the
reading that drops one at the start.

## Main definitions

* `Utf8.encode`, `Utf8.decode`: Between texts and bytes.
* `Utf8.Partial`: A character of which some bytes are still to come.
* `Utf8.decodeMarked`: Decoding without a leading byte order mark.
-/

namespace NodeWatch

/-- A sequence of bytes. -/
abbrev Bytes := List UInt8

namespace Utf8

/-- The bytes of one code point. -/
def encodePoint (n : Nat) : Bytes :=
  if n < 0x80 then [UInt8.ofNat n]
  else if n < 0x800 then [UInt8.ofNat (0xC0 + n / 0x40), UInt8.ofNat (0x80 + n % 0x40)]
  else if n < 0x10000 then
    [UInt8.ofNat (0xE0 + n / 0x1000), UInt8.ofNat (0x80 + n / 0x40 % 0x40),
      UInt8.ofNat (0x80 + n % 0x40)]
  else
    [UInt8.ofNat (0xF0 + n / 0x40000), UInt8.ofNat (0x80 + n / 0x1000 % 0x40),
      UInt8.ofNat (0x80 + n / 0x40 % 0x40), UInt8.ofNat (0x80 + n % 0x40)]

/-- The bytes of a text, lone surrogates replaced. -/
def encode (t : Text) : Bytes := (Text.scalars t).flatMap encodePoint

/-- A character begun: the value of the bits read, how many bytes are still
    to come, and the bounds on the next one. -/
structure Partial where
  value : Nat
  missing : Nat
  lower : Nat
  upper : Nat
deriving DecidableEq, Repr

/-- The character begun by a byte from `0x80` up, if it begins one. -/
def lead (b : Nat) : Option Partial :=
  if 0xC2 ≤ b && b ≤ 0xDF then some ⟨b - 0xC0, 1, 0x80, 0xBF⟩
  else if b = 0xE0 then some ⟨0, 2, 0xA0, 0xBF⟩
  else if b = 0xED then some ⟨0xD, 2, 0x80, 0x9F⟩
  else if 0xE1 ≤ b && b ≤ 0xEF then some ⟨b - 0xE0, 2, 0x80, 0xBF⟩
  else if b = 0xF0 then some ⟨0, 3, 0x90, 0xBF⟩
  else if b = 0xF4 then some ⟨4, 3, 0x80, 0x8F⟩
  else if 0xF1 ≤ b && b ≤ 0xF3 then some ⟨b - 0xF0, 3, 0x80, 0xBF⟩
  else none

/-- A byte read with no character begun: what is complete and what is begun. -/
def fresh (b : Nat) : List Nat × Option Partial :=
  if b < 0x80 then ([b], none)
  else match lead b with
    | some p => ([], some p)
    | none => ([CodePoint.replacement], none)

/-- A byte read after some of a character. -/
def resume (p : Partial) (b : Nat) : List Nat × Option Partial :=
  if p.lower ≤ b && b ≤ p.upper then
    let value := p.value * 0x40 + (b - 0x80)
    if p.missing ≤ 1 then ([value], none)
    else ([], some ⟨value, p.missing - 1, 0x80, 0xBF⟩)
  else
    let (out, next) := fresh b
    (CodePoint.replacement :: out, next)

/-- The code points of bytes that come after some of a character. -/
def decodeFrom : Option Partial → Bytes → List Nat
  | none, [] => []
  | some _, [] => [CodePoint.replacement]
  | none, b :: rest =>
    let (out, next) := fresh b.toNat
    out ++ decodeFrom next rest
  | some p, b :: rest =>
    let (out, next) := resume p b.toNat
    out ++ decodeFrom next rest

/-- The text of any bytes. -/
def decode (bytes : Bytes) : Text := (decodeFrom none bytes).flatMap Text.ofCodePoint

/-- The bytes without one leading byte order mark. -/
def dropMark : Bytes → Bytes
  | 0xEF :: 0xBB :: 0xBF :: rest => rest
  | bytes => bytes

/-- The text of any bytes, without one leading byte order mark. -/
def decodeMarked (bytes : Bytes) : Text := decode (dropMark bytes)

end Utf8

end NodeWatch
