import Mathlib.Algebra.Group.Nat.Defs
import RecordMapping.Proofs.Time.Calendar
import RecordMapping.Time.Timestamp

/-!
# The texts of moments

A text of a moment is made of numbers, which are runs of digits, with other characters between them.
A leap second at the end of a minute has the number 60. One within a minute has the number of the
second after it, and so the same text: `Timestamp.written` takes the one for the other, and nothing
of the text changes by that (`Timestamp.text_written`).
-/

namespace RecordMapping

/-! ## Numbers among other characters -/

theorem toList_padded (width number : Nat) :
    (padded width number).toList =
      List.replicate (width - (Nat.toDigits 10 number).length) '0' ++ Nat.toDigits 10 number := by
  have digits : (toString number).toList = Nat.toDigits 10 number := Nat.toList_repr
  simp only [padded, String.toList_append, String.toList_ofList, ← digits, String.length_toList]

theorem isDigit_of_mem_padded {width number : Nat} {c : Char}
    (member : c ∈ (padded width number).toList) : c.isDigit = true := by
  rw [toList_padded, List.mem_append] at member
  rcases member with zero | digit
  · rw [List.eq_of_mem_replicate zero]
    rfl
  · exact Nat.isDigit_of_mem_toDigits (by omega) (by omega) digit

theorem ofDigitChars_replicate_zero (count : Nat) :
    Nat.ofDigitChars 10 (List.replicate count '0') 0 = 0 := by
  induction count with
  | zero => rfl
  | succ count ih => exact ih

/-- A number is read from its digits, with any count of zeros in front. -/
theorem ofDigitChars_padded (width number : Nat) :
    Nat.ofDigitChars 10 (padded width number).toList 0 = number := by
  rw [toList_padded, Nat.ofDigitChars_append, ofDigitChars_replicate_zero,
    Nat.ofDigitChars_toDigits (by omega) (by omega)]

theorem length_padded {width number : Nat} (positive : 0 < width) (fits : number < 10 ^ width) :
    (padded width number).toList.length = width := by
  have short := (Nat.length_toDigits_le_iff (by omega) positive).mpr fits
  rw [toList_padded, List.length_append, List.length_replicate]
  omega

theorem padded_ne_nil (width number : Nat) : (padded width number).toList ≠ [] := by
  rw [toList_padded]
  simp [Nat.toDigits_ne_nil]

namespace Timestamp

/-! ## Years and fractions -/

/-- The sign of a year decides what stands in front of its digits. -/
theorem toList_yearText (year : Int) :
    ∃ number : Nat,
      (year = number ∧ number < 10 ^ 4 ∧ (yearText year).toList = (padded 4 number).toList) ∨
      (year = number ∧ (yearText year).toList = '+' :: (padded 4 number).toList) ∨
      (year = -number ∧ (yearText year).toList = '-' :: (padded 4 number).toList) := by
  unfold yearText
  split
  case isTrue plain =>
    exact ⟨year.toNat, .inl ⟨by omega, by omega, rfl⟩⟩
  case isFalse =>
    refine ⟨year.natAbs, .inr ?_⟩
    split
    case isTrue negative => exact .inr ⟨by omega, by simp [String.toList_append]⟩
    case isFalse positive => exact .inl ⟨by omega, by simp [String.toList_append]⟩

/-- A fraction that is not zero is a count of some unit, with as many places as the unit asks
for. -/
theorem toList_fractionText {nanoseconds : Nat} (fits : nanoseconds < 1000000000) :
    (nanoseconds = 0 ∧ (fractionText nanoseconds).toList = []) ∨
      ∃ width unit count, (fractionText nanoseconds).toList = '.' :: (padded width count).toList ∧
        nanoseconds = count * unit ∧ 0 < width ∧ count < 10 ^ width ∧
        10 ^ width * unit = 1000000000 := by
  unfold fractionText
  split
  case isTrue zero => exact .inl ⟨zero, rfl⟩
  case isFalse =>
    right
    split
    case isTrue =>
      exact ⟨3, 1000000, nanoseconds / 1000000, by simp [String.toList_append], by omega,
        by omega, by omega, rfl⟩
    case isFalse =>
      split
      case isTrue =>
        exact ⟨6, 1000, nanoseconds / 1000, by simp [String.toList_append], by omega, by omega,
          by omega, rfl⟩
      case isFalse =>
        exact ⟨9, 1, nanoseconds, by simp [String.toList_append], by omega, by omega, by omega,
          rfl⟩

/-! ## The whole text -/

/-- The number of the second that is written, which is 60 for a leap second. -/
def writtenSecond (moment : Timestamp) : Nat :=
  (moment.seconds % 86400).toNat % 60 + (if 1000000000 ≤ moment.nanoseconds then 1 else 0)

/-- The nanoseconds that are written, within the second or within the leap second. -/
def writtenFraction (moment : Timestamp) : Nat :=
  if 1000000000 ≤ moment.nanoseconds then moment.nanoseconds - 1000000000 else moment.nanoseconds

theorem toList_text (moment : Timestamp) :
    (moment.text "Z").toList =
      (yearText (Date.ofDays (moment.seconds / 86400)).year).toList ++
        '-' :: ((padded 2 (Date.ofDays (moment.seconds / 86400)).month).toList ++
        '-' :: ((padded 2 (Date.ofDays (moment.seconds / 86400)).day).toList ++
        'T' :: ((padded 2 ((moment.seconds % 86400).toNat / 3600)).toList ++
        ':' :: ((padded 2 ((moment.seconds % 86400).toNat / 60 % 60)).toList ++
        ':' :: ((padded 2 moment.writtenSecond).toList ++
          ((fractionText moment.writtenFraction).toList ++ ['Z'])))))) := by
  simp [text, writtenSecond, writtenFraction, String.toList_append]

theorem writtenFraction_lt (moment : Timestamp) : moment.writtenFraction < 1000000000 := by
  have bound := moment.nanoseconds_lt
  unfold writtenFraction
  split <;> omega

/-! ## Leap seconds -/

/-- If the moment lies in a leap second, this one ends a minute. -/
def LeapEndsMinute (moment : Timestamp) : Prop :=
  1000000000 ≤ moment.nanoseconds → moment.seconds % 60 = 59

instance (moment : Timestamp) : Decidable moment.LeapEndsMinute :=
  inferInstanceAs (Decidable (_ → _))

/-- The moment that the text is read as. A leap second within a minute is taken for the second after
it; every other moment stays as it is. -/
def written (moment : Timestamp) : Timestamp :=
  if within : 1000000000 ≤ moment.nanoseconds ∧ moment.seconds % 60 ≠ 59 then
    { seconds := moment.seconds + 1
      nanoseconds := moment.nanoseconds - 1000000000
      nanoseconds_lt := Nat.lt_of_le_of_lt (Nat.sub_le _ _) moment.nanoseconds_lt
      first_le := Int.le_add_one moment.first_le
      le_last := by
        have last := moment.le_last
        omega }
  else moment

theorem written_of_leapEndsMinute {moment : Timestamp} (leap : moment.LeapEndsMinute) :
    moment.written = moment :=
  dif_neg fun within => within.2 (leap within.1)

theorem leapEndsMinute_written (moment : Timestamp) : moment.written.LeapEndsMinute := by
  unfold written
  split
  case isTrue within =>
    have bound := moment.nanoseconds_lt
    intro isLeap
    simp only at isLeap
    omega
  case isFalse without =>
    intro isLeap
    exact Decidable.of_not_not fun within => without ⟨isLeap, within⟩

/-- A leap second within a minute has the text of the second after it: the day, the hour and the
minute stay the same. -/
theorem text_written (moment : Timestamp) (zone : String) :
    moment.written.text zone = moment.text zone := by
  unfold written
  split
  case isTrue within =>
    obtain ⟨isLeap, inMinute⟩ := within
    -- second 59 alone would carry over into the minute
    have bound := moment.nanoseconds_lt
    have days : (moment.seconds + 1) / 86400 = moment.seconds / 86400 := by omega
    have ofDay : ((moment.seconds + 1) % 86400).toNat = (moment.seconds % 86400).toNat + 1 := by
      omega
    have early : ((moment.seconds % 86400).toNat + 1) % 60 =
        (moment.seconds % 86400).toNat % 60 + 1 := by omega
    have hours : ((moment.seconds % 86400).toNat + 1) / 3600 =
        (moment.seconds % 86400).toNat / 3600 := by omega
    have minutes : ((moment.seconds % 86400).toNat + 1) / 60 =
        (moment.seconds % 86400).toNat / 60 := by omega
    have noLeap : ¬ 1000000000 ≤ moment.nanoseconds - 1000000000 := by omega
    simp only [text, days, ofDay, early, hours, minutes, isLeap, noLeap, decide_true, decide_false,
      ↓reduceIte, Bool.false_eq_true, Nat.add_zero]
  case isFalse => rfl

/-! ## The length of the text -/

theorem length_padded_le (width : Nat) {number : Nat} (fits : number < 10 ^ 9) :
    (padded width number).toList.length ≤ width + 9 := by
  have short := (Nat.length_toDigits_le_iff (by omega) (by omega)).mpr fits
  rw [toList_padded, List.length_append, List.length_replicate]
  omega

theorem length_yearText_le {year : Int} (fits : year.natAbs < 10 ^ 9) :
    (yearText year).toList.length ≤ 14 := by
  obtain ⟨number, spelled⟩ := toList_yearText year
  have digits : (padded 4 number).toList.length ≤ 13 := by
    apply length_padded_le 4
    rcases spelled with ⟨rfl, -⟩ | ⟨rfl, -⟩ | ⟨rfl, -⟩ <;> omega
  rcases spelled with ⟨-, -, text⟩ | ⟨-, text⟩ | ⟨-, text⟩
  · rw [text]
    exact Nat.le_succ_of_le digits
  · rw [text]
    exact Nat.succ_le_succ digits
  · rw [text]
    exact Nat.succ_le_succ digits

theorem length_fractionText_le {nanoseconds : Nat} (fits : nanoseconds < 1000000000) :
    (fractionText nanoseconds).toList.length ≤ 10 := by
  rcases toList_fractionText fits with ⟨-, text⟩ | ⟨width, unit, count, text, -, wide, small, whole⟩
  · rw [text]
    exact Nat.zero_le 10
  · rw [text, List.length_cons, length_padded wide small]
    have divides : 10 ^ width ∣ 10 ^ 9 := ⟨unit, whole.symm⟩
    have bounded := (Nat.pow_dvd_pow_iff_le_right (by omega)).mp divides
    omega

/-- The supported moments lie on dates with small numbers. -/
theorem date_small (moment : Timestamp) :
    (Date.ofDays (moment.seconds / 86400)).year.natAbs < 10 ^ 9 ∧
      (Date.ofDays (moment.seconds / 86400)).month < 10 ^ 9 ∧
      (Date.ofDays (moment.seconds / 86400)).day < 10 ^ 9 := by
  obtain ⟨-, month, day⟩ := Date.bounds_of_isValid (Date.isValid_ofDays (moment.seconds / 86400))
  obtain ⟨yearOfCycle, yearBound, year⟩ := Date.year_ofDays (moment.seconds / 86400)
  have first := moment.first_le
  have last := moment.le_last
  rw [year, Date.epochOffset, Date.cycleDays]
  omega

theorem length_text_le (moment : Timestamp) : (moment.text "Z").toList.length ≤ 100 := by
  obtain ⟨year, month, day⟩ := moment.date_small
  have years := length_yearText_le year
  have months := length_padded_le 2 month
  have days := length_padded_le 2 day
  have hours : (padded 2 ((moment.seconds % 86400).toNat / 3600)).toList.length ≤ 11 :=
    length_padded_le 2 (by omega)
  have minutes : (padded 2 ((moment.seconds % 86400).toNat / 60 % 60)).toList.length ≤ 11 :=
    length_padded_le 2 (by omega)
  have seconds : (padded 2 moment.writtenSecond).toList.length ≤ 11 := by
    apply length_padded_le 2
    unfold writtenSecond
    split <;> omega
  have fractions := length_fractionText_le moment.writtenFraction_lt
  rw [toList_text]
  simp only [List.length_append, List.length_cons, List.length_nil]
  omega

end Timestamp

end RecordMapping
