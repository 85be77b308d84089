import NodeWatch.Span
import NodeWatch.Text.Basic

/-!
# Shortened texts

Hashes, transaction identifiers and addresses are longer than the place there
is for them. What tells one from another are its ends, so the middle gives
way to an ellipsis.

## Main definitions

* `Report.abbreviate`: A given count of units kept at each end.
* `Report.hash`: A hash on a narrow line.
* `Report.fit`: A given count of units in all.
-/

namespace NodeWatch

namespace Report

/-- What stands for a middle that was left out. -/
def ellipsis : CodeUnit := 0x2026

/-- A text with `head` units kept at the front and `tail` at the end. -/
def abbreviate (t : Text) (head tail : Double) : Text :=
  if Double.ofNat t.length ≤ head + tail then t
  else Span.upTo t head ++ ellipsis :: Span.onwards t (-tail)

/-- A hash on a narrow line: twenty units of either end. -/
def hash (t : Text) : Text := abbreviate t 20 20

/-- A text of at most `size` units, about as many kept at either end. -/
def fit (t : Text) (size : Double) : Text :=
  if Double.ofNat t.length ≤ size then t
  else
    let keep := ((size - 1) / 2).floor
    Span.upTo t keep ++ ellipsis :: Span.onwards t (Double.ofNat t.length - keep)

end Report

end NodeWatch
