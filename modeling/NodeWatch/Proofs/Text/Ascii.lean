import NodeWatch.Proofs.Text.Utf8

/-!
# ASCII Among Any Bytes

Any bytes can be read as a text, and what is read of bytes that are no text at
all is anybody's guess. ASCII is the exception. A unit of ASCII at the front of
what was read comes from one byte, which is that unit, and the bytes behind it
are read as if it had not been there. So a line that has to begin with certain
words can be told from its bytes, whatever the bytes behind the words are.

The reason is that a character begun never turns into one of ASCII. With the
bounds on its bytes it comes to a larger number, and if they are broken it is
replaced by a character that is beyond ASCII as well. `Begun` is what has to be
kept in mind about such a character from one of its bytes to the next.

## Main definitions

* `Begun`: What a character of which some bytes are read can still become.

## Theorems

* `Begun.next`: One more byte of a character.
* `Begun.decodeFrom`: A character begun ends up beyond ASCII.
* `decode_eq_cons`, `decode_eq_append`: ASCII at the front of what was read.
* `decode_eq_nil`: Nothing is read only from no bytes.
-/

namespace NodeWatch

namespace Utf8

/-- What is known of a character of which some bytes are read. Its value will
    be beyond ASCII, and it will not be so far beyond the last code point that
    its surrogates could be mistaken for anything else. -/
structure Begun (p : Partial) : Prop where
  beyond : 2 ≤ p.value ∨ 1 < p.missing ∧ (1 ≤ p.value ∨ 0x82 ≤ p.lower)
  small : p.missing = 1 ∧ p.value < 0x5000 ∨ p.missing = 2 ∧ p.value < 0x140 ∨
    p.missing = 3 ∧ p.value < 5
  lower : 0x80 ≤ p.lower
  upper : p.upper ≤ 0xBF

section Reading

variable {p : Partial} {b : UInt8} {bytes : Bytes} {u : CodeUnit} {t : Text}

theorem begun_of_lead {n : Nat} (h : lead n = some p) : Begun p := by
  unfold lead at h
  simp only [Bool.and_eq_true, decide_eq_true_eq] at h
  repeat' split at h
  all_goals simp only [Option.some.injEq, reduceCtorEq] at h
  all_goals
    subst h
    constructor <;> simp only [true_and] <;> omega

/-- After one more of its bytes a character is still begun. -/
theorem Begun.next (h : Begun p) {n : Nat} (hlower : p.lower ≤ n) (hupper : n ≤ p.upper)
    (hmissing : 1 < p.missing) :
    Begun ⟨p.value * 0x40 + (n - 0x80), p.missing - 1, 0x80, 0xBF⟩ := by
  rcases h with ⟨hbeyond, hsmall, hlow, hhigh⟩
  constructor <;> simp only <;> omega

/-- A byte that is no ASCII and does not go on with a character is the beginning
    of another one, or is replaced. -/
theorem fresh_beyond {n : Nat} (h : ¬ n < 0x80) :
    (∃ p, Begun p ∧ fresh n = ([], some p)) ∨ fresh n = ([CodePoint.replacement], none) := by
  rw [fresh, if_neg h]
  cases hlead : lead n with
  | none => exact .inr rfl
  | some p => exact .inl ⟨p, begun_of_lead hlead, rfl⟩

/-- A character begun ends up beyond ASCII, whatever bytes follow. -/
theorem Begun.decodeFrom (h : Begun p) (bytes : Bytes) :
    ∃ n ns, Utf8.decodeFrom (some p) bytes = n :: ns ∧ 0x80 ≤ n ∧ n < 0x140000 := by
  induction bytes generalizing p with
  | nil => exact ⟨_, _, decodeFrom_end p, by decide, by decide⟩
  | cons b rest ih =>
      by_cases hbounds : p.lower ≤ b.toNat ∧ b.toNat ≤ p.upper
      · rcases hbounds with ⟨hlower, hupper⟩
        by_cases hmissing : 1 < p.missing
        · rw [decodeFrom_next hlower hupper hmissing]
          exact ih (h.next hlower hupper hmissing)
        · have hbyte := b.toNat_lt
          rcases h with ⟨hbeyond, hsmall, hlow, hhigh⟩
          exact ⟨_, _, decodeFrom_last hlower hupper (Nat.le_of_not_lt hmissing) rest,
            by omega, by omega⟩
      · have hbroken : ¬ (decide (p.lower ≤ b.toNat) && decide (b.toNat ≤ p.upper)) = true := by
          rw [Bool.and_eq_true, decide_eq_true_eq, decide_eq_true_eq]
          exact hbounds
        rw [Utf8.decodeFrom, resume, if_neg hbroken]
        exact ⟨CodePoint.replacement, _, rfl, by decide, by decide⟩

/-- A byte that is no ASCII is read as something beyond ASCII. -/
theorem decodeFrom_beyond (h : ¬ b.toNat < 0x80) (rest : Bytes) :
    ∃ n ns, decodeFrom none (b :: rest) = n :: ns ∧ 0x80 ≤ n ∧ n < 0x140000 := by
  rw [decodeFrom]
  rcases fresh_beyond h with ⟨p, hp, hfresh⟩ | hfresh
  · rw [hfresh]
    exact hp.decodeFrom rest
  · rw [hfresh]
    exact ⟨CodePoint.replacement, _, rfl, by decide, by decide⟩

theorem toNat_unit {n : Nat} (h : n < 0x10000) : (UInt16.ofNat n).toNat = n := by
  rw [UInt16.toNat_ofNat']
  exact Nat.mod_eq_of_lt h

theorem ofCodePoint_beyond {n : Nat} (hlow : 0x80 ≤ n) (hhigh : n < 0x140000) :
    ∃ u t, Text.ofCodePoint n = u :: t ∧ ¬ u < 0x80 := by
  have hunit : ∀ m, 0x80 ≤ m → m < 0x10000 → ¬ UInt16.ofNat m < 0x80 := by
    intro m hm hfit
    rw [UInt16.lt_iff_toNat_lt, toNat_unit hfit]
    exact Nat.not_lt.mpr hm
  unfold Text.ofCodePoint
  split
  · next hplane => exact ⟨_, _, rfl, hunit n hlow hplane⟩
  · exact ⟨_, _, rfl, hunit _ (by omega) (by omega)⟩

/-- A unit of ASCII at the front comes from a byte of its own. -/
theorem decode_eq_cons (hu : u < 0x80) (h : decode bytes = u :: t) :
    ∃ rest, bytes = UInt8.ofNat u.toNat :: rest ∧ decode rest = t := by
  cases bytes with
  | nil => exact absurd h (List.cons_ne_nil u t).symm
  | cons b rest =>
      by_cases hb : b.toNat < 0x80
      · rw [decode, decodeFrom_ascii hb, List.flatMap_cons, Text.ofCodePoint,
          if_pos (Nat.lt_trans hb (by decide)), List.singleton_append, List.cons.injEq] at h
        rcases h with ⟨rfl, rfl⟩
        refine ⟨rest, ?_, rfl⟩
        rw [toNat_unit (Nat.lt_trans hb (by decide)), UInt8.ofNat_toNat]
      · rcases decodeFrom_beyond hb rest with ⟨n, ns, hread, hlow, hhigh⟩
        rcases ofCodePoint_beyond hlow hhigh with ⟨v, s, hpoint, hv⟩
        rw [decode, hread, List.flatMap_cons, hpoint, List.cons_append, List.cons.injEq] at h
        rw [h.1] at hv
        exact absurd hu hv

/-- ASCII at the front comes from its own bytes. -/
theorem decode_eq_append {a : Text} (ha : a.IsAscii) (h : decode bytes = a ++ t) :
    ∃ rest, bytes = encode a ++ rest ∧ decode rest = t := by
  induction a generalizing bytes with
  | nil => exact ⟨bytes, rfl, h⟩
  | cons u a ih =>
      have hu := ha u List.mem_cons_self
      rcases decode_eq_cons hu h with ⟨more, rfl, hmore⟩
      rcases ih (fun v hv => ha v (List.mem_cons_of_mem u hv)) hmore with ⟨rest, rfl, hrest⟩
      refine ⟨rest, ?_, hrest⟩
      rw [encode_cons hu, List.cons_append]

/-- Nothing is read only from no bytes. -/
theorem decode_eq_nil (h : decode bytes = []) : bytes = [] := by
  cases bytes with
  | nil => rfl
  | cons b rest =>
      obtain ⟨n, ns, hread⟩ : ∃ n ns, decodeFrom none (b :: rest) = n :: ns := by
        by_cases hb : b.toNat < 0x80
        · exact ⟨_, _, decodeFrom_ascii hb rest⟩
        · rcases decodeFrom_beyond hb rest with ⟨n, ns, hread, -⟩
          exact ⟨n, ns, hread⟩
      rw [decode, hread, List.flatMap_cons] at h
      exact absurd (List.append_eq_nil_iff.mp h).1 (ofCodePoint_ne_nil n)

end Reading

end Utf8

end NodeWatch
