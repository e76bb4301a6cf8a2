/-!
# Calendar dates

Days of the proleptic Gregorian calendar, numbered from 1970-01-01. Years are counted from
March while converting, so that the leap day comes last and a year is a fixed pattern of months.

## Main definitions

- `Date`: a year, a month and a day of the month.
- `Date.ofDayNumber`, `Date.dayNumber`: between dates and day numbers.
- `Date.isValid`: whether the calendar has the date.

## Main statements

- `Date.dayNumber_ofDayNumber`: the date of a day number has that day number.
- `Date.isValid_ofDayNumber`: the calendar has the date of every day number.
-/

namespace Statechart

/-! ## Dates -/

/-- A date as written: nothing says yet that the month and day exist. -/
structure Date where
  year : Int
  month : Nat
  day : Nat
deriving DecidableEq, Repr, Inhabited

namespace Date

/-- Whether a year has a twenty-ninth of February. -/
def isLeapYear (year : Int) : Bool :=
  year % 4 = 0 && (year % 100 ≠ 0 || year % 400 = 0)

/-- The number of days of a month, zero for a month that does not exist. -/
def monthLength (year : Int) (month : Nat) : Nat :=
  if month = 2 then (if isLeapYear year then 29 else 28)
  else if month = 4 ∨ month = 6 ∨ month = 9 ∨ month = 11 then 30
  else if 1 ≤ month ∧ month ≤ 12 then 31
  else 0

/-- Whether the calendar has the date. -/
def isValid (d : Date) : Bool :=
  1 ≤ d.day && d.day ≤ monthLength d.year d.month

/-! ## Within an era

An era is four hundred years of 146097 days, a year runs from March to February, and its
months are numbered from zero.
-/

/-- Days of an era before a year of it. -/
def daysBeforeYear (year : Nat) : Nat :=
  365 * year + year / 4 - year / 100

/-- The year of an era that holds a day of it: centuries of 36524 days, the last a day longer,
then spans of four years, then years of 365 days, the last of four a day longer. -/
def yearOfDay (day : Nat) : Nat :=
  let century := min 3 (day / 36524)
  let dayOfCentury := day - 36524 * century
  let span := dayOfCentury / 1461
  let dayOfSpan := dayOfCentury - 1461 * span
  100 * century + 4 * span + min 3 (dayOfSpan / 365)

/-- Days of a year before a month of it. -/
def daysBeforeMonth (month : Nat) : Nat :=
  (153 * month + 2) / 5

/-- The month of a year that holds a day of it. -/
def monthOfDay (day : Nat) : Nat :=
  (5 * day + 2) / 153

/-! ## Day numbers -/

/-- Days from 0000-03-01 to 1970-01-01. -/
def epochShift : Int := 719468

/-- Days in four hundred years. -/
def daysPerEra : Int := 146097

/-- The date of the day of a month of a year of an era. -/
def ofEra (era : Int) (year month day : Nat) : Date :=
  if month < 10 then ⟨400 * era + year, month + 3, day + 1⟩
  else ⟨400 * era + year + 1, month - 9, day + 1⟩

/-- The date of a day number, counted from 1970-01-01. -/
def ofDayNumber (n : Int) : Date :=
  let day := ((n + epochShift) % daysPerEra).toNat
  let year := yearOfDay day
  let dayOfYear := day - daysBeforeYear year
  let month := monthOfDay dayOfYear
  ofEra ((n + epochShift) / daysPerEra) year month (dayOfYear - daysBeforeMonth month)

/-- The year that began in the March before a date. -/
def marchYear (d : Date) : Int :=
  if d.month ≤ 2 then d.year - 1 else d.year

/-- The month of a date, counted from March. -/
def marchMonth (d : Date) : Nat :=
  if d.month ≤ 2 then d.month + 9 else d.month - 3

/-- The number of the day, counted from 1970-01-01. -/
def dayNumber (d : Date) : Int :=
  (d.marchYear / 400) * daysPerEra + daysBeforeYear (d.marchYear % 400).toNat
    + daysBeforeMonth d.marchMonth + d.day - 1 - epochShift

/-! ## The date of a day number

A year, a month and a day found one after the other leave nothing over, since each of them is
found by rounding down and the next one counts what is left.
-/

theorem daysBeforeYear_parts {century span year : Nat} (hs : span ≤ 24)
    (hy : year ≤ 3) : daysBeforeYear (100 * century + 4 * span + year) =
      36524 * century + 1461 * span + 365 * year := by
  simp only [daysBeforeYear]; omega

/-- The year of a day begins on or before it and has at most 366 days. -/
theorem yearOfDay_bounds {day : Nat} (h : day < 146097) :
    yearOfDay day < 400 ∧ daysBeforeYear (yearOfDay day) ≤ day ∧
      day ≤ daysBeforeYear (yearOfDay day) + 365 := by
  simp only [yearOfDay]
  generalize hc : min 3 (day / 36524) = c
  generalize hs : (day - 36524 * c) / 1461 = s
  generalize hy : min 3 ((day - 36524 * c - 1461 * s) / 365) = y
  have hdays := @daysBeforeYear_parts c s y (by omega) (by omega)
  omega

/-- The month of a day begins on or before it. -/
theorem monthOfDay_bounds {day : Nat} (h : day ≤ 365) :
    monthOfDay day < 12 ∧ daysBeforeMonth (monthOfDay day) ≤ day := by
  simp only [monthOfDay, daysBeforeMonth]; omega

theorem marchYear_ofEra (era : Int) {year month day : Nat} (h : month < 12) :
    (ofEra era year month day).marchYear = 400 * era + year := by
  by_cases hm : month < 10
  · simp only [ofEra, marchYear, hm, if_true]; split <;> omega
  · simp only [ofEra, marchYear, hm, if_false]; split <;> omega

theorem marchMonth_ofEra (era : Int) {year month day : Nat} (h : month < 12) :
    (ofEra era year month day).marchMonth = month := by
  by_cases hm : month < 10
  · simp only [ofEra, marchMonth, hm, if_true]; split <;> omega
  · simp only [ofEra, marchMonth, hm, if_false]; split <;> omega

theorem day_ofEra (era : Int) (year month day : Nat) :
    (ofEra era year month day).day = day + 1 := by
  simp only [ofEra]; split <;> rfl

/-- The date of a day number has that day number. -/
theorem dayNumber_ofDayNumber (n : Int) : (ofDayNumber n).dayNumber = n := by
  simp only [ofDayNumber]
  -- The era, the year of it, and the month of that year are found one after the other.
  generalize he : (n + epochShift) / daysPerEra = era
  generalize hd : ((n + epochShift) % daysPerEra).toNat = day
  have hday : day < 146097 := by simp only [epochShift, daysPerEra] at hd; omega
  obtain ⟨hy, hle, hge⟩ := yearOfDay_bounds hday
  generalize yearOfDay day = year at hy hle hge ⊢
  obtain ⟨hm, hml⟩ := @monthOfDay_bounds (day - daysBeforeYear year) (by omega)
  generalize monthOfDay (day - daysBeforeYear year) = month at hm hml ⊢
  simp only [dayNumber, marchYear_ofEra era hm, marchMonth_ofEra era hm, day_ofEra]
  have hera : (400 * era + (year : Int)) / 400 = era := by omega
  have hyear : ((400 * era + (year : Int)) % 400).toNat = year := by omega
  rw [hera, hyear]
  simp only [epochShift, daysPerEra] at he hd ⊢
  omega

/-! ## The calendar has every day -/

/-- A year that has a three hundred and sixty-sixth day ends in a leap day. -/
theorem isLeapYear_of_last {day : Nat} (h : day < 146097)
    (last : day = daysBeforeYear (yearOfDay day) + 365) (era : Int) :
    isLeapYear (400 * era + yearOfDay day + 1) = true := by
  simp only [yearOfDay] at last ⊢
  generalize hc : min 3 (day / 36524) = c at last ⊢
  generalize hs : (day - 36524 * c) / 1461 = s at last ⊢
  generalize hy : min 3 ((day - 36524 * c - 1461 * s) / 365) = y at last ⊢
  rw [daysBeforeYear_parts (by omega) (by omega)] at last
  -- The last of four years is one day longer, unless it is the last of a century but the last.
  have hy3 : y = 3 := by omega
  have hcs : s < 24 ∨ c = 3 ∧ s = 24 := by omega
  simp only [isLeapYear, Bool.and_eq_true, Bool.or_eq_true, decide_eq_true_eq]
  omega

/-- The months of a year are as long as the calendar has them. -/
theorem isValid_ofEra {day year : Nat} {era : Int} (h : day ≤ 365)
    (last : day = 365 → isLeapYear (400 * era + year + 1) = true) :
    (ofEra era year (monthOfDay day) (day - daysBeforeMonth (monthOfDay day))).isValid = true := by
  obtain ⟨hm, hml⟩ := monthOfDay_bounds h
  have next : day < daysBeforeMonth (monthOfDay day + 1) := by
    simp only [monthOfDay, daysBeforeMonth]; omega
  generalize monthOfDay day = month at hm hml next ⊢
  simp only [daysBeforeMonth] at hml next ⊢
  -- February is the last month, and the only one whose length depends on the year.
  by_cases february : month = 11
  · subst february
    by_cases leap : day = 365
    · simp [isValid, ofEra, monthLength, last leap, leap]
    · have short : 28 ≤ monthLength (400 * era + year + 1) 2 := by
        simp only [monthLength, if_true]
        split <;> omega
      simp [isValid, ofEra]
      omega
  · have others : month = 0 ∨ month = 1 ∨ month = 2 ∨ month = 3 ∨ month = 4 ∨ month = 5 ∨
        month = 6 ∨ month = 7 ∨ month = 8 ∨ month = 9 ∨ month = 10 := by omega
    rcases others with rfl | rfl | rfl | rfl | rfl | rfl | rfl | rfl | rfl | rfl | rfl
    all_goals
      simp [isValid, ofEra, monthLength]
      omega

/-- The calendar has the date of every day number. -/
theorem isValid_ofDayNumber (n : Int) : (ofDayNumber n).isValid = true := by
  simp only [ofDayNumber]
  generalize (n + epochShift) / daysPerEra = era
  generalize hd : ((n + epochShift) % daysPerEra).toNat = day
  have hday : day < 146097 := by simp only [epochShift, daysPerEra] at hd; omega
  obtain ⟨-, hle, hge⟩ := yearOfDay_bounds hday
  refine isValid_ofEra (by omega) fun last => isLeapYear_of_last hday ?_ era
  omega

end Date

end Statechart
