import Mathlib.Tactic.SplitIfs
import NodeWatch.Bytes.Hex

/-!
# What Hexadecimal Digits Write

A text of hexadecimal digits is put together from pairs of them, and every pair
writes a byte. Reading it back takes the same pairs off the front, so a text is
read exactly if it can be put together in this way, and that is the case if its
length is even and nothing but digits is in it. The two reasons for which a
text is not read are therefore the only ones.

The digits themselves are units of three ranges, and the value of a digit is
told by its place there.

## Main definitions

* `Writes`: Texts of digits, and the bytes that they write.

## Theorems

* `hexValue?_eq_some_iff`, `isHexDigit_iff_ranges`: Digits and their values.
* `exists_writes_iff`: Which texts write bytes.
* `decode_eq_ok_iff`: Reading gives the bytes that a text writes.
* `exists_decode_error_iff`: Why a text of even length is not read.
-/

namespace NodeWatch

namespace Hex

/-- A text of digits in pairs, the high half of a byte before the low one, and
    the bytes that it writes. -/
inductive Writes : Text → Bytes → Prop where
  | nil : Writes [] []
  | cons {high low : CodeUnit} {h l : Nat} {s : Text} {bytes : Bytes}
      (hhigh : high.hexValue? = some h) (hlow : low.hexValue? = some l) (hs : Writes s bytes) :
      Writes (high :: low :: s) (UInt8.ofNat (h * 16 + l) :: bytes)

section Digits

variable {u : CodeUnit} {n : Nat}

/-- A unit that has a value is in one of three ranges, and its value is told by
    the place that it has there. -/
theorem hexValue?_eq_some_iff : u.hexValue? = some n ↔
    (0x30 ≤ u.toNat ∧ u.toNat ≤ 0x39 ∧ u.toNat = 0x30 + n) ∨
      (0x61 ≤ u.toNat ∧ u.toNat ≤ 0x66 ∧ u.toNat = 0x57 + n) ∨
      (0x41 ≤ u.toNat ∧ u.toNat ≤ 0x46 ∧ u.toNat = 0x37 + n) := by
  unfold CodeUnit.hexValue?
  simp only [Bool.and_eq_true, decide_eq_true_eq, UInt16.le_iff_toNat_le, UInt16.toNat_ofNat]
  split_ifs with hdigit hlower hupper
  all_goals
    simp only [Option.some.injEq, false_iff]
    omega

/-- A digit is a unit of one of the ranges. -/
theorem isHexDigit_iff_ranges : u.isHexDigit = true ↔ 0x30 ≤ u.toNat ∧ u.toNat ≤ 0x39 ∨
    0x61 ≤ u.toNat ∧ u.toNat ≤ 0x66 ∨ 0x41 ≤ u.toNat ∧ u.toNat ≤ 0x46 := by
  rw [CodeUnit.isHexDigit, Option.isSome_iff_exists]
  simp only [hexValue?_eq_some_iff]
  constructor
  · rintro ⟨n, h⟩
    omega
  · rintro (h | h | h)
    · exact ⟨u.toNat - 0x30, by omega⟩
    · exact ⟨u.toNat - 0x57, by omega⟩
    · exact ⟨u.toNat - 0x37, by omega⟩

end Digits

section Reading

variable {s : Text} {bytes : Bytes}

theorem pairs?_of_writes (h : Writes s bytes) : pairs? s = some bytes := by
  induction h with
  | nil => rfl
  | cons hhigh hlow _ ih =>
      rw [pairs?, hhigh, hlow, ih]
      rfl

theorem writes_of_pairs? (h : pairs? s = some bytes) : Writes s bytes := by
  induction s using pairs?.induct generalizing bytes with
  | case1 =>
      rw [← Option.some.inj h]
      exact .nil
  | case2 => exact absurd h (by simp only [pairs?, reduceCtorEq, not_false_eq_true])
  | case3 high low rest ih =>
      simp only [pairs?, Option.bind_eq_bind, Option.bind_eq_some_iff, Option.pure_def,
        Option.some.injEq] at h
      rcases h with ⟨a, ha, b, hb, more, hmore, rfl⟩
      exact .cons ha hb (ih hmore)

/-- Digits of either case write bytes if they come in pairs, and nothing else
    does. -/
theorem exists_writes_iff :
    (∃ bytes, Writes s bytes) ↔ s.length % 2 = 0 ∧ ∀ u ∈ s, u.isHexDigit = true := by
  constructor
  · rintro ⟨bytes, h⟩
    induction h with
    | nil => exact ⟨rfl, fun u hu => absurd hu List.not_mem_nil⟩
    | cons hhigh hlow _ ih =>
        refine ⟨?_, ?_⟩
        · rw [List.length_cons, List.length_cons, Nat.add_assoc, Nat.add_mod_right]
          exact ih.1
        · rw [List.forall_mem_cons, List.forall_mem_cons, CodeUnit.isHexDigit, hhigh,
            CodeUnit.isHexDigit, hlow]
          exact ⟨rfl, rfl, ih.2⟩
  · rintro ⟨heven, hdigits⟩
    induction s using pairs?.induct with
    | case1 => exact ⟨[], .nil⟩
    | case2 => exact absurd heven (by simp only [List.length_singleton]; decide)
    | case3 high low rest ih =>
        rw [List.forall_mem_cons, List.forall_mem_cons, CodeUnit.isHexDigit, CodeUnit.isHexDigit,
          Option.isSome_iff_exists, Option.isSome_iff_exists] at hdigits
        rcases hdigits with ⟨⟨h, hhigh⟩, ⟨l, hlow⟩, hrest⟩
        rw [List.length_cons, List.length_cons, Nat.add_assoc, Nat.add_mod_right] at heven
        rcases ih heven hrest with ⟨bytes, hbytes⟩
        exact ⟨_, .cons hhigh hlow hbytes⟩

/-- Reading gives the bytes that a text writes. -/
theorem decode_eq_ok_iff : decode s = .ok bytes ↔ Writes s bytes := by
  constructor
  · intro h
    unfold decode at h
    split at h
    · cases h
    · split at h
      · next more hmore =>
          cases h
          exact writes_of_pairs? hmore
      · cases h
  · intro h
    have heven := (exists_writes_iff.mp ⟨bytes, h⟩).1
    rw [decode, if_neg (not_not_intro heven), pairs?_of_writes h]

/-- A text of even length is read unless something in it is no digit. -/
theorem exists_decode_error_iff (heven : s.length % 2 = 0) :
    (∃ e, decode s = .error e) ↔ ∃ u ∈ s, u.isHexDigit = false := by
  have hread : (∃ bytes, decode s = .ok bytes) ↔ ∀ u ∈ s, u.isHexDigit = true := by
    simp only [decode_eq_ok_iff, exists_writes_iff, heven, true_and]
  have hnot : (∃ e, decode s = .error e) ↔ ¬ ∃ bytes, decode s = .ok bytes := by
    cases decode s with
    | error e => simp only [Except.error.injEq, exists_eq', reduceCtorEq, exists_false,
        not_false_eq_true]
    | ok bytes => simp only [reduceCtorEq, exists_false, Except.ok.injEq, exists_eq', not_true]
  rw [hnot, hread]
  simp only [Classical.not_forall, exists_prop, Bool.not_eq_true]

end Reading

end Hex

end NodeWatch
