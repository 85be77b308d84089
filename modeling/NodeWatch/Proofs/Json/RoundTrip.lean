import NodeWatch.Proofs.Json.Room
import NodeWatch.Proofs.Json.Writing

/-!
# Printing and Reading Back

A printed value is read back as itself, up to the order of keys and with
`null` for the numbers that have no text, and what was read prints like the
value that was printed.

The hypothesis on floating point numbers is what is asked of their texts here:
that each of them is read as the number it was made from. It is not asked of
numbers that have no text. That every finite number has such a text is shown
in `Proofs.Json.Floats`.

## Main definitions

* `sample`: A value that the round trip is shown on.

## Theorems

* `parse_print`: The round trip, for every indentation.
-/

namespace NodeWatch

namespace Json

open Grammar

/-- A printed value is read back as itself, up to the order of keys and with
    `null` for the numbers without a text, and prints again as it did. Every
    value has a text on one line, and one of every indentation that there is
    room for. -/
theorem parse_print {v : Value} (hk : v.DistinctKeys) (hf : v.FloatsSurvive) :
    (∀ indent : Option Nat, ∃ w, parse (v.print indent) = .ok w ∧ w.Same v.printable ∧
        ∀ again, w.print again = v.print again) ∧
      v.printWith none = .ok (v.print none) ∧
      ∀ x n, indentOf? x = some n → (v.print (some n)).length ≤ Text.longest →
        v.printWith (some x) = .ok (v.print (some n)) := by
  refine ⟨fun indent => ⟨v.printable.sorted, ?_, ?_, fun again => ?_⟩, rfl, ?_⟩
  · exact parse_of_denotes (denotes_printAt indent 0 hk hf)
  · exact hk.printable.same_sorted
  · rw [Value.print, Value.print, Value.printAt_sorted, Value.printAt_printable]
  · intro x n hx hroom
    exact printWith_eq hx v hroom

/-- One half. -/
def half : Double := Double.ofDecimal false 5 (-1)

theorem parse_half : parse (floatText half) = .ok (.float half) := by
  have htext : floatText half = [ascii '0'] ++ (ascii '.' :: [ascii '5'] ++ []) := by
    decide +kernel
  have hdigits : ∀ u : CodeUnit, 0x30 ≤ u ∧ u ≤ 0x39 → Digits [u] := by
    intro u hu
    refine ⟨List.cons_ne_nil u [], fun c hc => ?_⟩
    rw [List.mem_singleton.mp hc]
    exact hu
  rw [htext]
  exact parse_of_denotes (Bare.number (Number.mk Sign.none (hdigits (ascii '0') (by decide))
    (Fraction.some (hdigits (ascii '5') (by decide))) Exponent.none
    (Meaning.fraction (Double.nearest_ofDecimal _ _ _)))).denotes

/-- An object with its keys out of order, a lone surrogate and numbers with
    and without a text. -/
def sample : Value :=
  .object [("b", .array [.float half, .float .nan]), ("a", .string [0xD800])]

theorem sample_distinctKeys : sample.DistinctKeys := by
  intro es h
  cases h with
  | self => exact (by decide : ([("b" : Text), "a"]).Nodup)
  | entry he h =>
      rcases List.mem_cons.mp he with rfl | he
      · cases h with
        | item hv h =>
            rcases List.mem_cons.mp hv with rfl | hv
            · cases h
            · rw [List.mem_singleton.mp hv] at h
              cases h
      · rw [List.mem_singleton.mp he] at h
        cases h

theorem sample_floatsSurvive : sample.FloatsSurvive := by
  intro x h hx
  cases h with
  | entry he h =>
      rcases List.mem_cons.mp he with rfl | he
      · cases h with
        | item hv h =>
            rcases List.mem_cons.mp hv with rfl | hv
            · cases h
              exact parse_half
            · rw [List.mem_singleton.mp hv] at h
              cases h
              exact absurd hx (by decide)
      · rw [List.mem_singleton.mp he] at h
        cases h

/-- The hypotheses hold of a value that shows all that is asked of one. -/
theorem parse_print_sample :
    (sample.DistinctKeys ∧ sample.FloatsSurvive) ∧
      ∃ w, parse (sample.print (some 2)) = .ok w ∧ w.Same sample.printable ∧
        ∀ again, w.print again = sample.print again :=
  ⟨⟨sample_distinctKeys, sample_floatsSurvive⟩,
    (parse_print sample_distinctKeys sample_floatsSurvive).1 (some 2)⟩

end Json

end NodeWatch
