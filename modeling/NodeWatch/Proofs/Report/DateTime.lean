import NodeWatch.Proofs.Double.Bounds
import NodeWatch.Proofs.Report.Gregorian
import NodeWatch.Proofs.Text.FixedWidth

/-!
# Dates with a Time of Day

A point in time is shown as a date with a time of day. From 1970 on, as long as
years have four digits, every part of the text is a field of a fixed width. The
text names a moment of the calendar, and the moment is as many seconds after the
beginning of 1970 as were given. The weightiest part is in front, so such texts
are in the order of the moments they name, and the later one is the greater
text.

The seconds are doubles and are turned into milliseconds before the calendar
sees them. These are integers far below `2 ^ 53`, so no rounding takes place and
the calendar gets back exactly the seconds.

## Main definitions

* `Moment`, `Moment.ofSeconds`: A date and a time of day.
* `Moment.Stamp`: The text of a moment.
* `lastSecond`: The last second of the years with four digits.

## Theorems

* `Moment.Stamp.lt`: Texts of moments are in the order of the moments.
* `Moment.before_ofSeconds`, `Moment.elapsed_ofSeconds`: The moments of seconds.
* `dateTime_eq`: What is shown is a moment.
* `stamp_dateTime`: How it is shown.
* `dateTime_of_seconds`: What the text of a number of seconds says.
-/

namespace NodeWatch

open Calendar (Date)

namespace Report

/-- A date and a time of day. -/
structure Moment where
  date : Date
  hour : Nat
  minute : Nat
  second : Nat
deriving DecidableEq, Repr

namespace Moment

/-- A date of the calendar, and a time that a day has. -/
structure Valid (t : Moment) : Prop where
  date : t.date.Valid
  hour : t.hour < 24
  minute : t.minute < 60
  second : t.second < 60

/-- The seconds since the beginning of 1970. -/
def elapsed (t : Moment) : Nat :=
  t.date.elapsed * 86400 + t.hour * 3600 + t.minute * 60 + t.second

/-- The order of moments: by dates, then by hours, minutes and seconds. -/
def Before (t u : Moment) : Prop :=
  t.date.Before u.date ∨ t.date = u.date ∧ (t.hour < u.hour ∨ t.hour = u.hour ∧
    (t.minute < u.minute ∨ t.minute = u.minute ∧ t.second < u.second))

/-- The text of a moment: `1970-01-01 00:00:00`. The year has four digits, and
    every other part has two. -/
def Stamp (t : Moment) (text : Text) : Prop :=
  ∃ year month day hour minute second : Text,
    Text.Field 4 t.date.year.toNat year ∧ Text.Field 2 t.date.month month ∧
    Text.Field 2 t.date.day day ∧ Text.Field 2 t.hour hour ∧
    Text.Field 2 t.minute minute ∧ Text.Field 2 t.second second ∧
    text = year ++ ascii '-' :: (month ++ ascii '-' :: (day ++ ascii ' ' ::
      (hour ++ ascii ':' :: (minute ++ ascii ':' :: second))))

section Order

variable {t u : Moment} {s s' : Text}

theorem Stamp.length (h : t.Stamp s) : s.length = 19 := by
  rcases h with ⟨year, month, day, hour, minute, second, hY, hM, hD, hh, hm, hs, rfl⟩
  simp only [List.length_append, List.length_cons, hY.length, hM.length, hD.length, hh.length,
    hm.length, hs.length]

/-- Texts of moments are in the order of the moments. -/
theorem Stamp.lt (h : t.Stamp s) (h' : u.Stamp s') (hyear : 0 ≤ t.date.year)
    (hbefore : t.Before u) : s < s' := by
  rcases h with ⟨year, month, day, hour, minute, second, hY, hM, hD, hh, hm, hs, rfl⟩
  rcases h' with ⟨year', month', day', hour', minute', second', hY', hM', hD', hh', hm', hs', rfl⟩
  have hparts := hbefore.imp_right fun h => And.intro (congrArg Date.year h.1)
    (And.intro (congrArg Date.month h.1) (And.intro (congrArg Date.day h.1) h.2))
  unfold Date.Before at hparts
  -- One part after the other decides, or it is the same in both texts.
  refine hY.mark_lt hY' ?_
  by_cases hyears : t.date.year < u.date.year
  · exact .inl (by omega)
  refine .inr ⟨by omega, hM.mark_lt hM' ?_⟩
  by_cases hmonths : t.date.month < u.date.month
  · exact .inl hmonths
  refine .inr ⟨by omega, hD.mark_lt hD' ?_⟩
  by_cases hdays : t.date.day < u.date.day
  · exact .inl hdays
  refine .inr ⟨by omega, hh.mark_lt hh' ?_⟩
  by_cases hhours : t.hour < u.hour
  · exact .inl hhours
  refine .inr ⟨by omega, hm.mark_lt hm' ?_⟩
  by_cases hminutes : t.minute < u.minute
  · exact .inl hminutes
  · have hlast := hs.lt_of_value hs' (by omega) [] []
    rw [List.append_nil, List.append_nil] at hlast
    exact .inr ⟨by omega, hlast⟩

end Order

/-! ### Moments of seconds -/

/-- The moment that is a number of seconds after the beginning of 1970. -/
def ofSeconds (n : Nat) : Moment :=
  ⟨Date.ofDays (n / 86400 : Nat), n % 86400 / 3600, n % 86400 / 60 % 60, n % 86400 % 60⟩

theorem valid_ofSeconds (n : Nat) : (ofSeconds n).Valid := by
  refine ⟨Calendar.valid_ofDays _, ?_, ?_, ?_⟩ <;>
    · unfold ofSeconds
      simp only
      omega

/-- The moment is as many seconds away as it is the moment of. -/
theorem elapsed_ofSeconds (n : Nat) :
    1970 ≤ (ofSeconds n).date.year ∧ (ofSeconds n).elapsed = n := by
  have hdays := Calendar.elapsed_ofDays (n / 86400)
  refine ⟨hdays.1, ?_⟩
  unfold elapsed ofSeconds
  simp only [hdays.2]
  omega

/-- Moments are in the order of the seconds. -/
theorem before_ofSeconds {m n : Nat} (h : m < n) : (ofSeconds m).Before (ofSeconds n) := by
  by_cases hdays : m / 86400 < n / 86400
  · exact .inl (Calendar.before_ofDays (Int.ofNat_lt.mpr hdays))
  · have hsame : m / 86400 = n / 86400 := by omega
    unfold ofSeconds Before
    simp only [hsame, true_and]
    exact .inr (by omega)

end Moment

/-! ### What is shown -/

/-- The last second of the years with four digits. -/
def lastSecond : Nat := 253402300799

section Shown

variable {x : Double} {n : Nat}

/-- From 1970 on the years have four digits until the last second of them. -/
theorem year_le (h : n ≤ lastSecond) : (Moment.ofSeconds n).date.year ≤ 9999 := by
  unfold lastSecond at h
  have hlast : Date.ofDays (2932896 : Int) = ⟨9999, 12, 31⟩ := by decide
  by_cases hday : n / 86400 = 2932896
  · unfold Moment.ofSeconds
    simp only [hday]
    rw [Nat.cast_ofNat, hlast]
  · have hearlier : ((n / 86400 : Nat) : Int) < 2932896 := by omega
    have hbefore := Calendar.before_ofDays hearlier
    rw [hlast] at hbefore
    unfold Date.Before at hbefore
    unfold Moment.ofSeconds
    simp only at hbefore ⊢
    omega

/-- The point in time is computed without rounding. -/
theorem instant?_of_seconds (hx : x.toInt? = some (n : Int)) (hn : n ≤ lastSecond) :
    Calendar.instant? (x * 1000) = some (n * 1000 : Int) := by
  unfold lastSecond at hn
  have hthousand : (1000 : Double).toInt? = some 1000 := Double.toInt?_ofNat (k := 1000) (by decide)
  have hfits : (n * 1000 : Int).natAbs < twoPow 53 := by
    rw [twoPow_eq]
    omega
  have hms := Double.toInt?_mul hx hthousand hfits
  have hfarthest := Double.toInt?_ofInt (n := Calendar.farthest) (by decide)
  have hreach : ¬ Double.ofInt Calendar.farthest < (x * 1000).abs := by
    rw [Double.lt_iff hfarthest (Double.toInt?_abs hms), Calendar.farthest, Calendar.dayMs]
    omega
  rw [Calendar.instant?, Double.truncInt?_of_toInt? hms]
  simp only [if_neg hreach]

/-- The parts of a date and a time of day, in order. -/
theorem date_append_clock (d : Date) (s : Nat) : date d ++ ascii ' ' :: clockOfSeconds s
    = Text.ofInt d.year ++ ascii '-' :: (twoDigits d.month ++ ascii '-' :: (twoDigits d.day ++
      ascii ' ' :: (twoDigits (s / 3600) ++ ascii ':' :: (twoDigits (s / 60 % 60) ++
        ascii ':' :: twoDigits (s % 60))))) := by
  unfold date clockOfSeconds
  simp only [List.append_assoc, List.cons_append]

/-- What is shown are the parts of the moment. -/
theorem dateTime_eq (hx : x.toInt? = some (n : Int)) (hn : n ≤ lastSecond) :
    dateTime x = Text.ofInt (Moment.ofSeconds n).date.year ++ ascii '-' ::
      (twoDigits (Moment.ofSeconds n).date.month ++ ascii '-' ::
      (twoDigits (Moment.ofSeconds n).date.day ++ ascii ' ' ::
      (twoDigits (Moment.ofSeconds n).hour ++ ascii ':' ::
      (twoDigits (Moment.ofSeconds n).minute ++ ascii ':' ::
        twoDigits (Moment.ofSeconds n).second)))) := by
  have hinstant := instant?_of_seconds hx hn
  have hday : (n * 1000 : Int) / Calendar.dayMs = (n / 86400 : Nat) := by
    unfold Calendar.dayMs
    omega
  have hsecond : secondsOfDay (n * 1000 : Int) = n % 86400 := by
    unfold secondsOfDay Calendar.dayMs
    omega
  unfold dateTime clock
  simp only [hinstant, hday, hsecond]
  exact date_append_clock (Moment.ofSeconds n).date (n % 86400)

theorem field_twoDigits {k : Nat} (hk : k < 100) : Text.Field 2 k (twoDigits k) :=
  Text.field_padStart (by decide) hk

/-- The text names the moment. -/
theorem stamp_dateTime (hx : x.toInt? = some (n : Int)) (hn : n ≤ lastSecond) :
    (Moment.ofSeconds n).Stamp (dateTime x) := by
  have hvalid := Moment.valid_ofSeconds n
  have hlow := (Moment.elapsed_ofSeconds n).1
  have hhigh := year_le hn
  have hmonth := hvalid.date.month_le
  have hday := hvalid.date.day_lt
  have hhour := hvalid.hour
  have hyear : Text.ofInt (Moment.ofSeconds n).date.year
      = Text.ofNat (Moment.ofSeconds n).date.year.toNat := by
    conv_lhs => rw [← Int.toNat_of_nonneg (show 0 ≤ (Moment.ofSeconds n).date.year by omega)]
    rfl
  refine ⟨_, _, _, _, _, _, Text.field_ofNat (by omega) (by omega),
    field_twoDigits (by omega), field_twoDigits (by omega), field_twoDigits (by omega),
    field_twoDigits (hvalid.minute.trans (by decide)),
    field_twoDigits (hvalid.second.trans (by decide)), ?_⟩
  rw [dateTime_eq hx hn, hyear]

end Shown

section Seconds

variable {x : Double} {n : Int}

/-- What the text of a number of seconds says, from the beginning of 1970 to the
    end of the years with four digits. It has nineteen units, namely the fields
    of a moment with their marks. The moment is one of the calendar, and it is
    that number of seconds away. Of two such texts that of the lesser number
    comes first. -/
theorem dateTime_of_seconds (hx : x.toInt? = some n) (hlow : 0 ≤ n) (hhigh : n ≤ 253402300799) :
    (dateTime x).length = 19 ∧
      (∃ t : Moment, t.Stamp (dateTime x) ∧ t.Valid ∧ 1970 ≤ t.date.year ∧ t.elapsed = n) ∧
      ∀ (y : Double) (m : Int), y.toInt? = some m → n < m → m ≤ 253402300799 →
        dateTime x < dateTime y := by
  obtain ⟨k, rfl⟩ := Int.eq_ofNat_of_zero_le hlow
  have hk : k ≤ lastSecond := by
    unfold lastSecond
    omega
  have hstamp := stamp_dateTime hx hk
  have helapsed := Moment.elapsed_ofSeconds k
  refine ⟨hstamp.length, ⟨_, hstamp, Moment.valid_ofSeconds k, helapsed.1, ?_⟩, ?_⟩
  · rw [helapsed.2]
  · intro y m hy hless hm
    obtain ⟨l, rfl⟩ := Int.eq_ofNat_of_zero_le (hlow.trans hless.le)
    have hl : l ≤ lastSecond := by
      unfold lastSecond
      omega
    have hbefore := Moment.before_ofSeconds (Int.ofNat_lt.mp hless)
    exact hstamp.lt (stamp_dateTime hy hl) (by omega) hbefore

/-- The last second of a leap day and the second after it. -/
theorem dateTime_of_seconds_leap :
    (951868799 : Double).toInt? = some 951868799 ∧ (951868800 : Double).toInt? = some 951868800 ∧
      dateTime 951868799 = "2000-02-29 23:59:59" ∧ dateTime 951868800 = "2000-03-01 00:00:00" ∧
      (∃ t : Moment, t.Stamp "2000-02-29 23:59:59" ∧ t.Valid ∧ 1970 ≤ t.date.year ∧
        t.elapsed = (951868799 : Int)) ∧
      ("2000-02-29 23:59:59" : Text) < "2000-03-01 00:00:00" := by
  have hx : (951868799 : Double).toInt? = some 951868799 := by decide +kernel
  have hy : (951868800 : Double).toInt? = some 951868800 := by decide +kernel
  have hbefore : dateTime 951868799 = "2000-02-29 23:59:59" := by decide +kernel
  have hafter : dateTime 951868800 = "2000-03-01 00:00:00" := by decide +kernel
  obtain ⟨-, hmoment, horder⟩ := dateTime_of_seconds hx (by decide) (by decide)
  have hless := horder 951868800 951868800 hy (by decide) (by decide)
  rw [hbefore] at hmoment hless
  rw [hafter] at hless
  exact ⟨hx, hy, hbefore, hafter, hmoment, hless⟩

end Seconds

end Report

end NodeWatch
