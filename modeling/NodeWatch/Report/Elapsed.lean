import NodeWatch.Decimal.Shortest

/-!
# Elapsed time

How long ago something happened is shown in the one or two largest units of
time that apply. An age has whole seconds and is never negative; a distance
from a point in time to another is shown as it is when it is below a minute,
and one that lies ahead is not shown as a number at all.

## Main definitions

* `Report.age`: An age in seconds: `42s`, `3m 5s`, `2h 14m`.
* `Report.ago`: The distance of a past time: `5m ago`.
-/

namespace NodeWatch

namespace Report

/-- How many times a span fits into another. -/
def whole (x span : Double) : Text := (x / span).floor.display

/-- An age in seconds. -/
def age (seconds : Double) : Text :=
  let s := Double.max 0 seconds.floor
  if s < 60 then s.display ++ ("s" : Text)
  else if s < 3600 then whole s 60 ++ ("m " : Text) ++ (s % 60).display ++ ("s" : Text)
  else whole s 3600 ++ ("h " : Text) ++ whole (s % 3600) 60 ++ ("m" : Text)

/-- How long before `now` a time lies, both in seconds. -/
def ago (time now : Double) : Text :=
  let d := now - time
  if d < 0 then "just now"
  else if d < 60 then d.display ++ ("s ago" : Text)
  else if d < 3600 then whole d 60 ++ ("m ago" : Text)
  else if d < 86400 then whole d 3600 ++ ("h ago" : Text)
  else whole d 86400 ++ ("d ago" : Text)

end Report

end NodeWatch
