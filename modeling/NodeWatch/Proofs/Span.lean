import NodeWatch.Span
import NodeWatch.Proofs.Double.Integers

/-!
# Parts of Lists by Whole Numbers

A part of a list is given by doubles. For doubles that are integers and not
negative it is the part that the integers name, however far they go past the
end.

## Theorems

* `place_of_truncInt?`: The place that a number without its fraction names.
* `between_eq`: The part from one integer to another.
-/

namespace NodeWatch

namespace Span

section Places

variable {x : Double} {n : Int}

theorem place_of_truncInt? (h : x.truncInt? = some n) (length : Nat) :
    place length x = if n < 0 then (length + n).toNat else min n.toNat length := by
  cases x with
  | finite s m q hq => simp only [place, h, Option.getD_some]
  | _ => exact absurd h (by simp only [Double.truncInt?, reduceCtorEq, not_false_eq_true])

theorem place_of_toInt? (h : x.toInt? = some n) (hn : 0 ≤ n) (length : Nat) :
    place length x = min n.toNat length := by
  rw [place_of_truncInt? (Double.truncInt?_of_toInt? h), if_neg (by omega)]

/-- The part from one integer to another. -/
theorem between_eq {α : Type} (l : List α) {start stop : Double} {i j : Int}
    (hstart : start.toInt? = some i) (hstop : stop.toInt? = some j) (hi : 0 ≤ i) (hj : 0 ≤ j) :
    between l start stop = (l.take j.toNat).drop i.toNat := by
  rw [between, upTo, place_of_toInt? hstart hi, place_of_toInt? hstop hj, ← List.take_eq_take_min]
  -- Past the end of the list there is nothing more to leave out.
  rcases Nat.le_total i.toNat l.length with h | h
  · rw [Nat.min_eq_left h]
  · rw [Nat.min_eq_right h, List.drop_eq_nil_of_le (List.length_take_le' _ _),
      List.drop_eq_nil_of_le ((List.length_take_le' _ _).trans h)]

end Places

end Span

end NodeWatch
