import NodeWatch.Decimal.Shortest

/-!
# Grouped digits

Long numbers are shown in groups of three digits, counted from the right end
of every run of digits: a separator stands before each digit that has a
multiple of three digits of its run at and after it and a digit before it.
Heights are grouped with apostrophes and counts with commas. A minus sign is
kept out of the grouping.

## Main definitions

* `Report.group`: Separators between the groups of a text.
* `Report.grouped`: A number with its digits grouped.
* `Report.height`, `Report.count`: The two separators in use.
-/

namespace NodeWatch

namespace Report

/-- A text with a separator between every two groups of three digits. -/
def group (separator : CodeUnit) : Text → Text
  | [] => []
  | u :: rest =>
    let after := (rest.takeWhile CodeUnit.isDigit).length
    if u.isDigit ∧ 0 < after ∧ after % 3 = 0 then u :: separator :: group separator rest
    else u :: group separator rest

/-- A number with its digits grouped. -/
def grouped (separator : CodeUnit) (x : Double) : Text :=
  if x < 0 then ascii '-' :: group separator (-x).display else group separator x.display

/-- A block height: `840'000`. -/
def height (x : Double) : Text := grouped (ascii '\'') x

/-- A count: `1,234,567`. -/
def count (x : Double) : Text := grouped (ascii ',') x

end Report

end NodeWatch
