import NodeWatch.Double.Arithmetic
import NodeWatch.Text.Basic

/-!
# Dates and times of day

Points in time are milliseconds since the beginning of 1970, shown in the
Gregorian calendar extended to all years, without an offset from universal
time. The calendar repeats itself after four hundred years of 146097 days.
Inside such a cycle years are counted from the first of March, so that the
day that leap years add is the last one of its year: a cycle is then four
centuries of 36524 days, a century twenty-five times four years of 1461 days,
and four years have 365 days each, the last of every kind being one day
longer or shorter than the others, which is why the counts are capped.

Points further than a hundred million days away are out of reach; nothing is
known about those and about what is not a number.

## Main definitions

* `Calendar.Date`, `Calendar.Date.ofDays`: The date of a day.
* `Calendar.instant?`: The point in time of a number of milliseconds.
* `Report.clock`: A time of day: `23:59:59`.
* `Report.dateTime`: A date with its time of day: `1969-12-31 23:59:59`.
-/

namespace NodeWatch

namespace Calendar

/-- A date. -/
structure Date where
  year : Int
  /-- One to twelve. -/
  month : Nat
  /-- One to thirty-one. -/
  day : Nat
deriving DecidableEq, Repr

/-- The days from the first of March of the year zero to the beginning of 1970. -/
def marchEpoch : Int := 719468

/-- The days in the cycle of four hundred years. -/
def cycleDays : Nat := 146097

/-- The year inside a cycle of a day, counted from March, and the day in that year. -/
def yearOfCycle (day : Nat) : Nat × Nat :=
  let century := min 3 (day / 36524)
  let inCentury := day - century * 36524
  let four := inCentury / 1461
  let inFour := inCentury - four * 1461
  let year := min 3 (inFour / 365)
  (century * 100 + four * 4 + year, inFour - year * 365)

/-- The month of a day in a year that begins in March, counted from March, and
    the day in that month. Five months take 153 days, again and again. -/
def monthOfYear (day : Nat) : Nat × Nat :=
  let month := (5 * day + 2) / 153
  (month, day - (153 * month + 2) / 5)

/-- The date of a day, counted from the beginning of 1970. -/
def Date.ofDays (days : Int) : Date :=
  let days := days + marchEpoch
  let cycle := days / cycleDays
  let (year, inYear) := yearOfCycle (days % cycleDays).toNat
  let (month, inMonth) := monthOfYear inYear
  let january := 10 ≤ month
  ⟨cycle * 400 + year + (if january then 1 else 0),
    if january then month - 9 else month + 3, inMonth + 1⟩

/-- The milliseconds of a day. -/
def dayMs : Int := 86400000

/-- The farthest point in time on either side. -/
def farthest : Int := 100000000 * dayMs

/-- The point in time of a number of milliseconds, fractions dropped. -/
def instant? (ms : Double) : Option Int :=
  match ms.truncInt? with
  | none => none
  | some n =>
    if Double.ofInt farthest < ms.abs then none else some n

end Calendar

namespace Report

/-- A number of at least two digits. -/
def twoDigits (n : Nat) : Text := Text.padStart (Text.ofNat n) 2 (ascii '0')

/-- What stands for a part of a time that is not known. -/
def unknownPart : Text := "NaN"

/-- The seconds of the day as hours, minutes and seconds. -/
def clockOfSeconds (s : Nat) : Text :=
  twoDigits (s / 3600) ++ ascii ':' :: twoDigits (s / 60 % 60) ++ ascii ':' :: twoDigits (s % 60)

/-- The seconds of the day of a point in time. -/
def secondsOfDay (instant : Int) : Nat := (instant % Calendar.dayMs).toNat / 1000

/-- The time of day of a number of milliseconds. -/
def clock (ms : Double) : Text :=
  match Calendar.instant? ms with
  | some t => clockOfSeconds (secondsOfDay t)
  | none => Text.join ":" [unknownPart, unknownPart, unknownPart]

/-- A date, the year with as many digits as it takes. -/
def date (d : Calendar.Date) : Text :=
  Text.ofInt d.year ++ ascii '-' :: twoDigits d.month ++ ascii '-' :: twoDigits d.day

/-- The date and time of day of a number of seconds. -/
def dateTime (seconds : Double) : Text :=
  let ms := seconds * 1000
  let day := match Calendar.instant? ms with
    | some t => date (Calendar.Date.ofDays (t / Calendar.dayMs))
    | none => Text.join "-" [unknownPart, unknownPart, unknownPart]
  day ++ ascii ' ' :: clock ms

end Report

end NodeWatch
