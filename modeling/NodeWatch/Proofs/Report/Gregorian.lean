import Mathlib.Algebra.BigOperators.Intervals
import Mathlib.Tactic.IntervalCases
import NodeWatch.Report.Calendar

/-!
# The Gregorian Calendar

The date of a day is computed with years that begin in March and with counts
that are capped at the ends of a cycle. Here is the calendar as everybody knows
it: leap years, the lengths of the months and the day after a date. The two
agree, because the date of the next day is the day after the date.

Whatever else is to be known of dates follows from this, day by day. They come
in their order, and the days up to a date are those of the years and months
that have passed. Only that dates are valid is seen at once.

What joins the two calendars is the first of March. From one to the next are
the days of the year that begins in between, and `marchStart` counts all of
them. Therefore a day is in one of these years only, and it does not matter how
that year was found. With the months it is the same, except that the last one
ends with the year and not after as many days as the others would have it.

## Main definitions

* `IsLeap`, `yearLength`, `monthLength`: The rules of the calendar.
* `Date.Valid`, `Date.next`, `Date.Before`: Dates, the next one, and their order.
* `Date.elapsed`: The days since the beginning of 1970.
* `marchStart`, `monthStart`: Where years and months begin, counted from March.
* `Date.inMonth`, `Date.ofMarch`: Dates in years that begin in March.

## Theorems

* `Date.elapsed_next`: The next day is counted as one more.
* `march_unique`: A day is in one year only.
* `yearOfCycle_spec`: The capped counts find a year that the day is in.
* `exists_march`, `exists_month`: Every day is in a year, and in a month of it.
* `next_inMonth`: The day after a day in a month.
* `ofDays_succ`: The date of the next day is the day after the date.
* `valid_ofDays`, `before_ofDays`, `elapsed_ofDays`: What follows for dates.
-/

namespace NodeWatch

namespace Calendar

/-! ### The rules -/

/-- Every fourth year is a leap year, but of the centuries only every fourth. -/
def IsLeap (year : Int) : Prop := year % 4 = 0 ∧ (year % 100 = 0 → year % 400 = 0)

instance (year : Int) : Decidable (IsLeap year) := inferInstanceAs (Decidable (_ ∧ _))

/-- The days of a year. -/
def yearLength (year : Int) : Nat := if IsLeap year then 366 else 365

/-- The days of a month. -/
def monthLength (year : Int) : Nat → Nat
  | 2 => if IsLeap year then 29 else 28
  | 4 | 6 | 9 | 11 => 30
  | _ => 31

/-- A month from one to twelve, and a day that the month has. -/
structure Date.Valid (d : Date) : Prop where
  month_pos : 1 ≤ d.month
  month_le : d.month ≤ 12
  day_pos : 1 ≤ d.day
  day_le : d.day ≤ monthLength d.year d.month

theorem monthLength_le (year : Int) (month : Nat) : monthLength year month ≤ 31 := by
  unfold monthLength
  split
  · split <;> decide
  all_goals decide

theorem Date.Valid.day_lt {d : Date} (h : d.Valid) : d.day < 32 :=
  Nat.lt_succ_of_le (h.day_le.trans (monthLength_le d.year d.month))

/-- The day after a date. -/
def Date.next (d : Date) : Date :=
  if d.day < monthLength d.year d.month then ⟨d.year, d.month, d.day + 1⟩
  else if d.month < 12 then ⟨d.year, d.month + 1, 1⟩
  else ⟨d.year + 1, 1, 1⟩

/-- The order of dates: by years, then by months, then by days. -/
def Date.Before (d e : Date) : Prop :=
  d.year < e.year ∨ d.year = e.year ∧ (d.month < e.month ∨ d.month = e.month ∧ d.day < e.day)

/-- The days since the beginning of 1970: those of the years that have passed, of
    the months that have passed in its year, and of its month. -/
def Date.elapsed (d : Date) : Nat :=
  ∑ i ∈ Finset.range (d.year - 1970).toNat, yearLength (1970 + i) +
    ∑ i ∈ Finset.range (d.month - 1), monthLength d.year (i + 1) + (d.day - 1)

theorem yearLength_cases (year : Int) :
    IsLeap year ∧ yearLength year = 366 ∨ ¬ IsLeap year ∧ yearLength year = 365 := by
  unfold yearLength
  by_cases hleap : IsLeap year
  · exact .inl ⟨hleap, if_pos hleap⟩
  · exact .inr ⟨hleap, if_neg hleap⟩

section Next

variable {d e f : Date}

theorem Date.Before.trans (h : d.Before e) (h' : e.Before f) : d.Before f := by
  unfold Before at *
  omega

theorem Date.before_next (d : Date) : d.Before d.next := by
  unfold next Before
  split_ifs <;> simp

/-- The months make up the year. -/
theorem sum_monthLength (year : Int) :
    ∑ i ∈ Finset.range 11, monthLength year (i + 1) + 31 = yearLength year := by
  simp only [Finset.sum_range_succ, Finset.sum_range_zero, monthLength, yearLength]
  by_cases hleap : IsLeap year
  · simp only [if_pos hleap]
  · simp only [if_neg hleap]

/-- The next day is counted as one more. -/
theorem Date.elapsed_next (h : d.Valid) (hyear : 1970 ≤ d.year) :
    d.next.elapsed = d.elapsed + 1 := by
  obtain ⟨hmonth, hmonth', hday, hday'⟩ := h
  unfold next
  by_cases hmore : d.day < monthLength d.year d.month
  · rw [if_pos hmore, elapsed, elapsed]
    simp only
    omega
  have hlast : d.day = monthLength d.year d.month := by omega
  rw [if_neg hmore]
  by_cases hdecember : d.month < 12
  -- The days of the month have passed with it.
  · obtain ⟨month, hm⟩ : ∃ month, d.month = month + 1 := ⟨d.month - 1, by omega⟩
    rw [if_pos hdecember, elapsed, elapsed]
    simp only [hm, Nat.add_sub_cancel]
    rw [Finset.sum_range_succ, hlast, hm]
    rw [hm] at hlast
    omega
  -- The months have passed with the year.
  · obtain ⟨years, hy⟩ : ∃ years : Nat, d.year = 1970 + years := ⟨(d.year - 1970).toNat, by omega⟩
    have htwelve : d.month = 12 := by omega
    have hyears : (d.year + 1 - 1970).toNat = years + 1 := by omega
    have hyears' : (d.year - 1970).toNat = years := by omega
    have hmonths : ∑ i ∈ Finset.range (12 - 1), monthLength d.year (i + 1) + 31
        = yearLength d.year := sum_monthLength d.year
    have hlength : monthLength d.year 12 = 31 := rfl
    rw [htwelve, hlength] at hlast
    rw [if_neg hdecember, elapsed, elapsed]
    simp only [hyears, hyears', htwelve]
    rw [Finset.sum_range_succ, Finset.sum_range_zero, ← hy]
    omega

end Next

/-! ### Years that begin in March -/

/-- The days from the first of March of the year zero to that of another year. -/
def marchStart (year : Int) : Int := 365 * year + year / 4 - year / 100 + year / 400

/-- The date of a day of a month, the month counted from March. -/
def Date.inMonth (year : Int) (month day : Nat) : Date :=
  ⟨year + (if 10 ≤ month then 1 else 0), if 10 ≤ month then month - 9 else month + 3, day + 1⟩

/-- The date of a day in a year that begins in March. -/
def Date.ofMarch (year : Int) (inYear : Nat) : Date :=
  Date.inMonth year (monthOfYear inYear).1 (monthOfYear inYear).2

section March

variable {year year' : Int} {day day' : Nat}

/-- From March to March are the days of the year that begins in between. -/
theorem marchStart_succ (year : Int) :
    marchStart (year + 1) = marchStart year + yearLength (year + 1) := by
  have hlength := yearLength_cases (year + 1)
  unfold IsLeap at hlength
  unfold marchStart
  omega

theorem marchStart_le (h : year ≤ year') : marchStart year ≤ marchStart year' := by
  unfold marchStart
  omega

/-- A day is in one year only. -/
theorem march_unique (hday : day < yearLength (year + 1)) (hday' : day' < yearLength (year' + 1))
    (h : marchStart year + day = marchStart year' + day') : year = year' ∧ day = day' := by
  have hnext := marchStart_succ year
  have hnext' := marchStart_succ year'
  -- The days of the earlier year are over when the later one begins.
  rcases lt_trichotomy year year' with hlt | rfl | hgt
  · have := marchStart_le (Int.add_one_le_iff.mpr hlt)
    omega
  · exact ⟨rfl, by omega⟩
  · have := marchStart_le (Int.add_one_le_iff.mpr hgt)
    omega

/-- In a cycle the capped counts find a year and a day that the year has. -/
theorem yearOfCycle_spec (cycle : Int) (hday : day < cycleDays) :
    (yearOfCycle day).2 < yearLength (cycle * 400 + (yearOfCycle day).1 + 1) ∧
      cycle * cycleDays + day
        = marchStart (cycle * 400 + (yearOfCycle day).1) + (yearOfCycle day).2 := by
  -- The counts of the definition, one name for each.
  obtain ⟨century, hcentury⟩ : ∃ century, min 3 (day / 36524) = century := ⟨_, rfl⟩
  obtain ⟨inCentury, hinCentury⟩ : ∃ rest, day - century * 36524 = rest := ⟨_, rfl⟩
  obtain ⟨four, hfour⟩ : ∃ four, inCentury / 1461 = four := ⟨_, rfl⟩
  obtain ⟨inFour, hinFour⟩ : ∃ rest, inCentury - four * 1461 = rest := ⟨_, rfl⟩
  obtain ⟨last, hlast⟩ : ∃ last, min 3 (inFour / 365) = last := ⟨_, rfl⟩
  have hcounts : yearOfCycle day = (century * 100 + four * 4 + last, inFour - last * 365) := by
    rw [yearOfCycle, hcentury, hinCentury, hfour, hinFour, hlast]
  rw [hcounts]
  simp only
  unfold cycleDays at hday ⊢
  constructor
  -- A day that is one too many for the other years is the last one of a leap year.
  · have hlength := yearLength_cases
      (cycle * 400 + ((century * 100 + four * 4 + last : Nat) : Int) + 1)
    unfold IsLeap at hlength
    omega
  -- The leap years that have passed are counted by the parts of the cycle.
  · have hfours : (cycle * 400 + ((century * 100 + four * 4 + last : Nat) : Int)) / 4
        = cycle * 100 + (century * 25 + four) := by omega
    have hcenturies : (cycle * 400 + ((century * 100 + four * 4 + last : Nat) : Int)) / 100
        = cycle * 4 + century := by omega
    have hcycles : (cycle * 400 + ((century * 100 + four * 4 + last : Nat) : Int)) / 400
        = cycle := by omega
    rw [marchStart, hfours, hcenturies, hcycles]
    omega

/-- Every day is in a year, and its date is that of the day in the year. -/
theorem exists_march (days : Int) :
    ∃ year : Int, ∃ day : Nat, day < yearLength (year + 1) ∧
      days + marchEpoch = marchStart year + day ∧ Date.ofDays days = Date.ofMarch year day := by
  have hcycle : (0 : Int) < cycleDays := by decide
  have hmod := Int.emod_nonneg (days + marchEpoch) hcycle.ne'
  have hless := Int.emod_lt_of_pos (days + marchEpoch) hcycle
  have hin : ((days + marchEpoch) % cycleDays).toNat < cycleDays := by omega
  rcases yearOfCycle_spec ((days + marchEpoch) / cycleDays) hin with ⟨hlength, hstart⟩
  rw [Int.toNat_of_nonneg hmod, Int.ediv_mul_add_emod] at hstart
  exact ⟨_, _, hlength, hstart, rfl⟩

theorem ofDays_march {days : Int} (year : Int) (day : Nat) (hday : day < yearLength (year + 1))
    (h : days + marchEpoch = marchStart year + day) : Date.ofDays days = Date.ofMarch year day := by
  rcases exists_march days with ⟨year', day', hday', h', hdate⟩
  rcases march_unique hday' hday (h'.symm.trans h) with ⟨rfl, rfl⟩
  exact hdate

/-! ### Months -/

/-- The day on which a month begins, both counted from March. Five months take
    153 days. -/
def monthStart (month : Nat) : Nat := (153 * month + 2) / 5

/-- The days of a month that is counted from March. -/
def lengthFromMarch (year : Int) (month : Nat) : Nat :=
  monthLength (Date.inMonth year month 0).year (Date.inMonth year month 0).month

theorem monthStart_lt_succ (month : Nat) : monthStart month < monthStart (month + 1) := by
  unfold monthStart
  omega

/-- Every month begins within the year. -/
theorem monthStart_lt (year : Int) {month : Nat} (h : month ≤ 11) :
    monthStart month < yearLength year := by
  have hlength := yearLength_cases year
  unfold monthStart
  omega

/-- A month ends where the next one begins, and the last one with the year. -/
theorem monthStart_succ (year : Int) {month : Nat} (h : month ≤ 11) :
    monthStart month + lengthFromMarch year month
      = if month = 11 then yearLength (year + 1) else monthStart (month + 1) := by
  by_cases hlast : month = 11
  · subst hlast
    rw [if_pos rfl]
    change 337 + (if IsLeap (year + 1) then 29 else 28) = _
    unfold yearLength
    split_ifs <;> rfl
  · rw [if_neg hlast]
    have hless : month < 11 := by omega
    clear h hlast
    interval_cases month <;> rfl

theorem lengthFromMarch_le (year : Int) {month : Nat} (h : month ≤ 11) :
    monthStart month + lengthFromMarch year month ≤ monthStart (month + 1) := by
  rw [monthStart_succ year h]
  split_ifs with hlast
  · have hlength := yearLength_cases (year + 1)
    subst hlast
    change yearLength (year + 1) ≤ 367
    omega
  · exact le_rfl

theorem ofMarch_eq (month : Nat) (hlow : monthStart month ≤ day)
    (hhigh : day < monthStart (month + 1)) :
    Date.ofMarch year day = Date.inMonth year month (day - monthStart month) := by
  unfold monthStart at *
  have hmonth : (5 * day + 2) / 153 = month := by omega
  unfold Date.ofMarch monthOfYear
  simp only [hmonth]

/-- Every day of a year is in a month. -/
theorem exists_month (hday : day < yearLength (year + 1)) :
    ∃ month ≤ 11, monthStart month ≤ day ∧ day < monthStart month + lengthFromMarch year month ∧
      Date.ofMarch year day = Date.inMonth year month (day - monthStart month) := by
  have hlength := yearLength_cases (year + 1)
  -- The month is guessed from the average length of a month.
  obtain ⟨month, hmonth⟩ : ∃ month, month = (5 * day + 2) / 153 := ⟨_, rfl⟩
  have hle : month ≤ 11 := by omega
  have hlow : monthStart month ≤ day := by
    unfold monthStart
    omega
  have hhigh : day < monthStart (month + 1) := by
    unfold monthStart
    omega
  refine ⟨month, hle, hlow, ?_, ofMarch_eq month hlow hhigh⟩
  rw [monthStart_succ year hle]
  split_ifs
  · exact hday
  · exact hhigh

theorem valid_inMonth {month : Nat} (hmonth : month ≤ 11)
    (hday : day < lengthFromMarch year month) : (Date.inMonth year month day).Valid := by
  unfold lengthFromMarch at hday
  refine ⟨?_, ?_, Nat.succ_pos day, hday⟩
  · unfold Date.inMonth
    split_ifs <;> simp only <;> omega
  · unfold Date.inMonth
    split_ifs <;> simp only <;> omega

/-- The day after a day in a month is in the month as well, or it is the first
    day of the next month. -/
theorem next_inMonth {month : Nat} (hmonth : month ≤ 11) (day : Nat) :
    (Date.inMonth year month day).next
      = if day + 1 < lengthFromMarch year month then Date.inMonth year month (day + 1)
        else if month = 11 then Date.inMonth (year + 1) 0 0
        else Date.inMonth year (month + 1) 0 := by
  unfold Date.next
  change (if day + 1 < lengthFromMarch year month then _ else _) = _
  by_cases hmore : day + 1 < lengthFromMarch year month
  · rw [if_pos hmore, if_pos hmore]
    rfl
  · rw [if_neg hmore, if_neg hmore]
    clear hmore
    -- The year changes behind the tenth of the months, which is December.
    unfold Date.inMonth
    interval_cases month <;> simp

/-- The date of the next day is the day after the date. -/
theorem ofDays_succ (days : Int) : Date.ofDays (days + 1) = (Date.ofDays days).next := by
  rcases exists_march days with ⟨year, day, hday, hdays, hdate⟩
  rcases exists_month hday with ⟨month, hmonth, hlow, hhigh, hinMonth⟩
  have hend := monthStart_succ year hmonth
  have hle := lengthFromMarch_le year hmonth
  rw [hdate, hinMonth, next_inMonth hmonth]
  by_cases hlast : month = 11
  · rw [if_pos hlast] at hend ⊢
    by_cases hmore : day - monthStart month + 1 < lengthFromMarch year month
    · rw [if_pos hmore, ofDays_march year (day + 1) (by omega) (by push_cast; omega),
        ofMarch_eq month (by omega) (by omega), Nat.sub_add_comm hlow]
    -- The year is over with the month.
    · have hstart := marchStart_succ year
      have hfirst : 0 < yearLength (year + 1 + 1) := monthStart_lt _ (Nat.zero_le 11)
      rw [if_neg hmore, ofDays_march (year + 1) 0 hfirst (by push_cast; omega)]
      rfl
  · rw [if_neg hlast] at hend ⊢
    have hin := monthStart_lt (year + 1) (show month + 1 ≤ 11 by omega)
    rw [ofDays_march year (day + 1) (by omega) (by push_cast; omega)]
    by_cases hmore : day - monthStart month + 1 < lengthFromMarch year month
    · rw [if_pos hmore, ofMarch_eq month (by omega) (by omega), Nat.sub_add_comm hlow]
    · have hnext := monthStart_lt_succ (month + 1)
      rw [if_neg hmore, ofMarch_eq (month + 1) (by omega) (by omega),
        Nat.sub_eq_zero_of_le (by omega)]

/-! ### Dates of days -/

theorem valid_ofDays (days : Int) : (Date.ofDays days).Valid := by
  rcases exists_march days with ⟨year, day, hday, hdays, hdate⟩
  rcases exists_month hday with ⟨month, hmonth, hlow, hhigh, hinMonth⟩
  rw [hdate, hinMonth]
  exact valid_inMonth hmonth (by omega)

/-- Dates are in the order of their days. -/
theorem before_ofDays {days days' : Int} (h : days < days') :
    (Date.ofDays days).Before (Date.ofDays days') := by
  obtain ⟨n, rfl⟩ : ∃ n : Nat, days' = days + n + 1 := ⟨(days' - days - 1).toNat, by omega⟩
  clear h
  induction n with
  | zero =>
      rw [Nat.cast_zero, add_zero, ofDays_succ]
      exact Date.before_next _
  | succ n ih =>
      rw [Nat.cast_succ, ← add_assoc, ofDays_succ (days + n + 1)]
      exact ih.trans (Date.before_next _)

/-- A date from 1970 on is as many days away as it is the date of. -/
theorem elapsed_ofDays (days : Nat) :
    1970 ≤ (Date.ofDays days).year ∧ (Date.ofDays days).elapsed = days := by
  induction days with
  | zero => exact ⟨by decide, by decide⟩
  | succ days ih =>
      rw [Nat.cast_succ, ofDays_succ]
      have hlater := Date.before_next (Date.ofDays days)
      refine ⟨?_, ?_⟩
      · unfold Date.Before at hlater
        omega
      · rw [Date.elapsed_next (valid_ofDays days) ih.1, ih.2]

end March

end Calendar

end NodeWatch
