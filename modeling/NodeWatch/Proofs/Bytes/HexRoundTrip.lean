import NodeWatch.Proofs.Bytes.Hex
import NodeWatch.Proofs.Json.Writing

/-!
# Hexadecimal Both Ways

Bytes that are written as digits are read back as they were. In the other
direction the case of the digits is lost, since reading takes both cases and
writing has only one: what is read and written again is the text in lower case.

The digits are given here by name, twenty-two of them. The values that they are
read with come from three ranges of code units, and each of the ranges gives back
its own digits, except that the capitals give back the small letters.

## Main definitions

* `alphabet`: The digits of either case.
* `CodeUnit.toLower`, `Text.toLower`: The letters of ASCII in lower case.

## Theorems

* `isHexDigit_iff`: What is a digit.
* `ofHexValue_of_hexValue?`: The digit of the value of a digit.
* `writes_encode`: Written bytes write the bytes.
* `encode_of_writes`: What is written again is in lower case.
* `decode_laws`: The laws of reading and writing.
-/

namespace NodeWatch

/-- A letter of ASCII in lower case, and every other unit as it is. -/
def CodeUnit.toLower (u : CodeUnit) : CodeUnit :=
  if 0x41 ≤ u ∧ u ≤ 0x5A then u + 0x20 else u

/-- A text with its letters of ASCII in lower case. -/
def Text.toLower (t : Text) : Text := t.map CodeUnit.toLower

namespace Hex

/-- The digits, those that are letters in both cases. -/
def alphabet : Text := "0123456789abcdefABCDEF"

section Digits

variable {u : CodeUnit} {n : Nat}

/-- Nothing is a digit but the digits of either case. -/
theorem isHexDigit_iff : u.isHexDigit = true ↔ u ∈ alphabet := by
  have halphabet : alphabet = [0x30, 0x31, 0x32, 0x33, 0x34, 0x35, 0x36, 0x37, 0x38, 0x39,
    0x61, 0x62, 0x63, 0x64, 0x65, 0x66, 0x41, 0x42, 0x43, 0x44, 0x45, 0x46] := by decide
  rw [isHexDigit_iff_ranges, halphabet]
  simp only [List.mem_cons, List.not_mem_nil, or_false, ← UInt16.toNat_inj, UInt16.toNat_ofNat]
  omega

/-- The digit that a value is written as is the digit it was read from, in lower
    case. -/
theorem ofHexValue_of_hexValue? (h : u.hexValue? = some n) :
    n < 16 ∧ CodeUnit.ofHexValue n = u.toLower := by
  rw [hexValue?_eq_some_iff] at h
  refine ⟨by omega, ?_⟩
  rw [← UInt16.toNat_inj, CodeUnit.ofHexValue, CodeUnit.toLower, UInt16.toNat_ofNat']
  simp only [UInt16.le_iff_toNat_le, UInt16.toNat_ofNat]
  by_cases hupper : 0x41 ≤ u.toNat ∧ u.toNat ≤ 0x5A
  · rw [if_pos hupper, UInt16.toNat_add, UInt16.toNat_ofNat]
    split <;> omega
  · rw [if_neg hupper]
    split <;> omega

end Digits

section Laws

variable {s : Text} {bytes : Bytes}

/-- Written bytes write the bytes. -/
theorem writes_encode (bytes : Bytes) : Writes (encode bytes) bytes := by
  induction bytes with
  | nil => exact .nil
  | cons b rest ih =>
      have hb : b.toNat < 256 := b.toNat_lt
      have hpair := Writes.cons
        (Json.hexValue?_ofHexValue (show b.toNat / 16 < 16 by omega))
        (Json.hexValue?_ofHexValue (show b.toNat % 16 < 16 by omega)) ih
      rw [Nat.div_add_mod', UInt8.ofNat_toNat] at hpair
      exact hpair

/-- What is read and written again is in lower case. -/
theorem encode_of_writes (h : Writes s bytes) : encode bytes = s.toLower := by
  induction h with
  | nil => rfl
  | @cons high low a b s bytes hhigh hlow _ ih =>
      obtain ⟨ha, hhigh⟩ := ofHexValue_of_hexValue? hhigh
      obtain ⟨hb, hlow⟩ := ofHexValue_of_hexValue? hlow
      -- The two halves of the byte are the values that it was put together from.
      have hbyte : (UInt8.ofNat (a * 16 + b)).toNat = a * 16 + b := by
        rw [UInt8.toNat_ofNat']
        exact Nat.mod_eq_of_lt (by omega)
      have hdiv : (a * 16 + b) / 16 = a := by omega
      have hmod : (a * 16 + b) % 16 = b := by omega
      rw [encode, List.flatMap_cons, ← encode, ih, encodeByte, hbyte, hdiv, hmod, hhigh, hlow]
      rfl

/-- Bytes are written as digits that are read as the same bytes. A text is read
    exactly if it has an even number of units and all of them are digits, and
    what it is read as is written as the text in lower case. -/
theorem decode_laws :
    (∀ bytes, isHex (encode bytes) = true ∧ decode (encode bytes) = .ok bytes) ∧
    ∀ s : Text,
      ((∃ bytes, decode s = .ok bytes) ↔ s.length % 2 = 0 ∧ ∀ u ∈ s, u ∈ alphabet) ∧
      ∀ bytes, decode s = .ok bytes → encode bytes = s.toLower := by
  have haccepted : ∀ s : Text,
      (∃ bytes, decode s = .ok bytes) ↔ s.length % 2 = 0 ∧ ∀ u ∈ s, u ∈ alphabet := by
    intro s
    simp only [decode_eq_ok_iff, exists_writes_iff, isHexDigit_iff]
  refine ⟨fun bytes => ?_, fun s => ⟨haccepted s, fun bytes h => ?_⟩⟩
  · have hread := decode_eq_ok_iff.mpr (writes_encode bytes)
    refine ⟨?_, hread⟩
    rw [isHex, List.all_eq_true]
    intro u hu
    exact isHexDigit_iff.mpr (((haccepted _).mp ⟨bytes, hread⟩).2 u hu)
  · exact encode_of_writes (decode_eq_ok_iff.mp h)

/-- Both cases in one byte, and a byte whose first digit is a zero. -/
theorem decode_laws_mixed :
    decode "0aFf" = .ok [0x0A, 0xFF] ∧ encode [0x0A, 0xFF] = Text.toLower "0aFf" ∧
      Text.toLower "0aFf" = "0aff" := by
  have hread : decode "0aFf" = .ok [0x0A, 0xFF] := by decide
  exact ⟨hread, (decode_laws.2 "0aFf").2 _ hread, by decide⟩

end Laws

end Hex

end NodeWatch
