/-!
# The calendar

Dates of the proleptic Gregorian calendar and the count of days since 1 January 1970. Years are
counted from March within cycles of 400 years, so that the leap day comes last.
-/

namespace RecordMapping

/-- A date; months and days count from one. -/
structure Date where
  year : Int
  month : Nat
  day : Nat
deriving DecidableEq, Repr

namespace Date

/-- Whether a year has a 29 February. -/
def isLeapYear (year : Int) : Bool :=
  year % 4 = 0 && (year % 100 ≠ 0 || year % 400 = 0)

/-- The count of days in a month. -/
def daysInMonth (year : Int) (month : Nat) : Nat :=
  if month = 2 then (if isLeapYear year then 29 else 28)
  else if month = 4 ∨ month = 6 ∨ month = 9 ∨ month = 11 then 30
  else 31

/-- Whether the month and the day exist. -/
def isValid (date : Date) : Bool :=
  1 ≤ date.month && date.month ≤ 12 && 1 ≤ date.day &&
    date.day ≤ daysInMonth date.year date.month

/-- The count of days from 1 March of the year 0 to 1 January 1970. -/
def epochOffset : Int := 719468

/-- The count of days in 400 years. -/
def cycleDays : Nat := 146097

/-- The year within a cycle of 400 years, and the day within the year, of a day of the cycle. The
last century, and the last of each four years, have one day more than the others. -/
def ofCycleDay (dayOfCycle : Nat) : Nat × Nat :=
  let century := min (dayOfCycle / 36524) 3
  let dayOfCentury := dayOfCycle - 36524 * century
  let dayOfFourYears := dayOfCentury % 1461
  let yearOfFour := min (dayOfFourYears / 365) 3
  (100 * century + 4 * (dayOfCentury / 1461) + yearOfFour, dayOfFourYears - 365 * yearOfFour)

/-- The month counted from March and the day, counted from zero, of a day of the year. The lengths
31, 30, 31, 30, 31 repeat. -/
def ofYearDay (dayOfYear : Nat) : Nat × Nat :=
  let month := (5 * dayOfYear + 2) / 153
  (month, dayOfYear - (153 * month + 2) / 5)

/-- The date that lies the given count of days after 1 January 1970. -/
def ofDays (days : Int) : Date :=
  let shifted := days + epochOffset
  let (yearOfCycle, dayOfYear) := ofCycleDay (shifted % cycleDays).toNat
  let (monthOfYear, day) := ofYearDay dayOfYear
  let year := shifted / cycleDays * 400 + yearOfCycle
  if monthOfYear < 10 then ⟨year, monthOfYear + 3, day + 1⟩
  else ⟨year + 1, monthOfYear - 9, day + 1⟩

/-- The count of days from 1 January 1970 to a date. -/
def toDays (date : Date) : Int :=
  let year := if date.month ≤ 2 then date.year - 1 else date.year
  let cycle := year / 400
  let yearOfCycle := (year % 400).toNat
  let monthOfYear := (date.month + 9) % 12
  let dayOfYear := (153 * monthOfYear + 2) / 5 + (date.day - 1)
  let dayOfCycle := yearOfCycle * 365 + yearOfCycle / 4 - yearOfCycle / 100 + dayOfYear
  cycle * cycleDays + dayOfCycle - epochOffset

theorem ofCycleDay_days (dayOfCycle : Nat) (inCycle : dayOfCycle < 146097) :
    (ofCycleDay dayOfCycle).1 < 400 ∧
      (ofCycleDay dayOfCycle).2 < 366 ∧
      (ofCycleDay dayOfCycle).1 * 365 + (ofCycleDay dayOfCycle).1 / 4 -
        (ofCycleDay dayOfCycle).1 / 100 + (ofCycleDay dayOfCycle).2 = dayOfCycle := by
  simp only [ofCycleDay]
  generalize isCentury : min (dayOfCycle / 36524) 3 = century
  generalize isDayOfCentury : dayOfCycle - 36524 * century = dayOfCentury
  generalize isFourYears : dayOfCentury / 1461 = fourYears
  generalize isDayOfFourYears : dayOfCentury % 1461 = dayOfFourYears
  generalize isYearOfFour : min (dayOfFourYears / 365) 3 = yearOfFour
  have centuryBound : century ≤ 3 ∧ dayOfCentury ≤ 36524 := by omega
  have fourYearsBound : fourYears ≤ 24 := by omega
  have leapDays : (100 * century + 4 * fourYears + yearOfFour) / 4 = 25 * century + fourYears := by
    omega
  have centuries : (100 * century + 4 * fourYears + yearOfFour) / 100 = century := by omega
  rw [leapDays, centuries]
  omega

theorem ofYearDay_days (dayOfYear : Nat) (inYear : dayOfYear < 366) :
    (ofYearDay dayOfYear).1 < 12 ∧
      (153 * (ofYearDay dayOfYear).1 + 2) / 5 + (ofYearDay dayOfYear).2 = dayOfYear := by
  simp only [ofYearDay]
  omega

/-- A date tells the count of days that it was made from. -/
theorem toDays_ofDays (days : Int) : (ofDays days).toDays = days := by
  have inCycle : ((days + epochOffset) % cycleDays).toNat < 146097 := by
    simp only [cycleDays]
    omega
  obtain ⟨yearBound, dayBound, cycle⟩ := ofCycleDay_days _ inCycle
  obtain ⟨monthBound, year⟩ := ofYearDay_days _ dayBound
  simp only [ofDays]
  generalize ofCycleDay ((days + epochOffset) % cycleDays).toNat = cycleDay at *
  generalize ofYearDay cycleDay.2 = yearDay at *
  have yearOfCycle : (((days + epochOffset) / cycleDays * 400 + cycleDay.1) % 400).toNat =
      cycleDay.1 := by
    omega
  have cycles : ((days + epochOffset) / cycleDays * 400 + cycleDay.1) / 400 =
      (days + epochOffset) / cycleDays := by
    omega
  have split : (days + epochOffset) / cycleDays * cycleDays +
      ((days + epochOffset) % cycleDays).toNat = days + epochOffset := by
    simp only [cycleDays]
    omega
  split
  · next early =>
    have notInNextYear : ¬ yearDay.1 + 3 ≤ 2 := by omega
    have month : (yearDay.1 + 3 + 9) % 12 = yearDay.1 := by omega
    simp only [toDays, if_neg notInNextYear, month, yearOfCycle, cycles]
    omega
  · next late =>
    have inNextYear : yearDay.1 - 9 ≤ 2 := by omega
    have month : (yearDay.1 - 9 + 9) % 12 = yearDay.1 := by omega
    simp only [toDays, if_pos inNextYear, month, Int.add_sub_cancel, yearOfCycle, cycles]
    omega

end Date

end RecordMapping
