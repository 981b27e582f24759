import Mathlib.Tactic.SplitIfs
import RecordMapping.Time.Calendar

/-!
# Dates that exist

Every day has a date that exists: its month and its day lie within the bounds, those of a 29
February too, since the last day of a year of 366 days that is counted from March lies in a leap
year.
-/

namespace RecordMapping.Date

theorem dayOfCycle_lt (days : Int) : ((days + epochOffset) % cycleDays).toNat < 146097 := by
  simp only [cycleDays]
  omega

/-- The 366th day of a year that is counted from March is a 29 February. -/
theorem isLeapYear_of_lastDay {dayOfCycle : Nat} (inCycle : dayOfCycle < 146097)
    (last : (ofCycleDay dayOfCycle).2 = 365) (cycle : Int) :
    isLeapYear (cycle * 400 + (ofCycleDay dayOfCycle).1 + 1) = true := by
  revert last
  simp only [ofCycleDay]
  generalize isCentury : min (dayOfCycle / 36524) 3 = century
  generalize isDayOfCentury : dayOfCycle - 36524 * century = dayOfCentury
  generalize isFourYears : dayOfCentury / 1461 = fourYears
  generalize isDayOfFourYears : dayOfCentury % 1461 = dayOfFourYears
  generalize isYearOfFour : min (dayOfFourYears / 365) 3 = yearOfFour
  intro last
  have ofFour : yearOfFour = 3 := by omega
  have ofCentury : fourYears = 24 → century = 3 := by omega
  have few : fourYears ≤ 24 := by omega
  simp only [isLeapYear, Bool.and_eq_true, Bool.or_eq_true, decide_eq_true_eq]
  omega

/-- The date of a day exists. -/
theorem isValid_ofDays (days : Int) : (ofDays days).isValid = true := by
  have inCycle := dayOfCycle_lt days
  have leap last := isLeapYear_of_lastDay inCycle last ((days + epochOffset) / cycleDays)
  obtain ⟨-, dayBound, -⟩ := ofCycleDay_days _ inCycle
  simp only [ofDays]
  generalize ofCycleDay ((days + epochOffset) % cycleDays).toNat = cycleDay at *
  have month : (ofYearDay cycleDay.2).1 = (5 * cycleDay.2 + 2) / 153 := rfl
  have day : (ofYearDay cycleDay.2).2 = cycleDay.2 - (153 * (ofYearDay cycleDay.2).1 + 2) / 5 := rfl
  generalize ofYearDay cycleDay.2 = yearDay at *
  split
  case isTrue early =>
    simp only [isValid, daysInMonth, Bool.and_eq_true, decide_eq_true_eq]
    split_ifs <;> omega
  case isFalse late =>
    -- January and February end the year that is counted from March, and begin the next one
    simp only [isValid, daysInMonth, Bool.and_eq_true, decide_eq_true_eq]
    split_ifs with february isLeap
    · omega
    · have notLast : cycleDay.2 ≠ 365 := fun last => isLeap (leap last)
      omega
    all_goals omega

theorem bounds_of_isValid {date : Date} (valid : date.isValid = true) :
    1 ≤ date.month ∧ date.month ≤ 12 ∧ date.day ≤ 31 := by
  simp only [isValid, Bool.and_eq_true, decide_eq_true_eq] at valid
  obtain ⟨⟨⟨first, last⟩, -⟩, inMonth⟩ := valid
  refine ⟨first, last, ?_⟩
  unfold daysInMonth at inMonth
  split_ifs at inMonth <;> omega

/-- The year of a day is counted in cycles of 400 years. -/
theorem year_ofDays (days : Int) :
    ∃ yearOfCycle : Nat, yearOfCycle ≤ 400 ∧
      (ofDays days).year = (days + epochOffset) / cycleDays * 400 + yearOfCycle := by
  have inCycle := dayOfCycle_lt days
  obtain ⟨yearBound, -⟩ := ofCycleDay_days _ inCycle
  simp only [ofDays]
  split
  · exact ⟨_, Nat.le_of_lt yearBound, rfl⟩
  · exact ⟨_, yearBound, by rw [Int.natCast_succ, Int.add_assoc]⟩

end RecordMapping.Date
