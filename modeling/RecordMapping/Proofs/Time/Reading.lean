import RecordMapping.Proofs.Time.Timestamp
import RecordMapping.Time.Reading

/-!
# Moments read back from their texts

The numbers in the text of a moment are runs of digits, each of which ends at a character that is
none, and every reader stops there. So the text is read back from the left, field by field, as the
moment that it was written for (`Timestamp.ofText?_text`). A leap second within a minute has the
text of the second after it and is read as this one, so two moments have one text if and only if
they agree up to that (`Timestamp.text_eq_iff`).
-/

namespace RecordMapping

namespace Timestamp

namespace Reading

variable {limit : Nat} {c : Char} {rest : List Char}

/-! ## Numbers -/

theorem isBlank_of_isDigit (digit : c.isDigit = true) : Text.isBlank c = false := by
  have bounds : 48 ≤ c.toNat ∧ c.toNat ≤ 57 := Char.isDigit_iff_toNat.mp digit
  simp only [Text.isBlank, Bool.or_eq_false_iff, Bool.and_eq_false_iff, decide_eq_false_iff_not,
    beq_eq_false_iff_ne]
  omega

theorem dropBlank_cons (ink : Text.isBlank c = false) :
    Text.dropBlank (c :: rest) = c :: rest := by
  rw [Text.dropBlank, List.dropWhile_cons, ink]
  rfl

/-- A number is read up to the first character that is no digit. -/
theorem number_append {digits : List Char} (run : ∀ d ∈ digits, d.isDigit = true)
    (present : digits ≠ []) (short : digits.length ≤ limit) (ends : c.isDigit = false) :
    number limit (digits ++ c :: rest) = some (Nat.ofDigitChars 10 digits 0, c :: rest) := by
  have taken : ((digits ++ c :: rest).take limit).takeWhile Char.isDigit = digits := by
    rw [List.take_append, List.take_of_length_le short, List.takeWhile_append_of_pos run]
    cases limit - digits.length with
    | zero => exact List.append_nil _
    | succ => rw [List.take_succ_cons, List.takeWhile_cons_of_neg (by simp [ends]), List.append_nil]
  have value : digits.foldl (fun n c => n * 10 + (c.toNat - 0x30)) 0 =
      Nat.ofDigitChars 10 digits 0 := by
    simp [Nat.ofDigitChars, Nat.mul_comm]
  simp only [number, taken, value, List.isEmpty_eq_false_iff.mpr present, Bool.false_eq_true,
    ↓reduceIte, List.drop_left]

/-- The first character of a number is a digit. -/
theorem padded_eq_cons (width number : Nat) :
    ∃ d digits, (padded width number).toList = d :: digits ∧ d.isDigit = true := by
  obtain ⟨d, digits, spelled⟩ := List.exists_cons_of_ne_nil (padded_ne_nil width number)
  exact ⟨d, digits, spelled, isDigit_of_mem_padded (spelled ▸ List.mem_cons_self)⟩

theorem dropBlank_padded (width number : Nat) :
    Text.dropBlank ((padded width number).toList ++ rest) =
      (padded width number).toList ++ rest := by
  obtain ⟨d, digits, spelled, digit⟩ := padded_eq_cons width number
  rw [spelled]
  exact dropBlank_cons (isBlank_of_isDigit digit)

theorem number_padded {width value : Nat} (short : (padded width value).toList.length ≤ limit)
    (ends : c.isDigit = false) :
    number limit ((padded width value).toList ++ c :: rest) = some (value, c :: rest) := by
  rw [number_append (fun _ => isDigit_of_mem_padded) (padded_ne_nil width value) short ends,
    ofDigitChars_padded]

/-- A number with as many digits as it may have. -/
theorem number_padded_self {width value : Nat} (positive : 0 < width) (fits : value < 10 ^ width)
    (ends : c.isDigit = false) :
    number width ((padded width value).toList ++ c :: rest) = some (value, c :: rest) :=
  number_padded (Nat.le_of_eq (length_padded positive fits)) ends

theorem bounded_padded {value least greatest : Nat} (above : least ≤ value)
    (below : value ≤ greatest) (fits : value < 10 ^ 2) (ends : c.isDigit = false)
    (ink : Text.isBlank c = false) :
    bounded 2 least greatest ((padded 2 value).toList ++ c :: rest) = some (value, c :: rest) := by
  rw [bounded, dropBlank_padded, number_padded_self (by omega) fits ends]
  simp only [Option.bind_eq_bind, Option.bind_some, above, below, and_self, ↓reduceIte,
    dropBlank_cons ink]

/-! ## Years and dates -/

theorem year_yearText (value : Int) :
    year ((yearText value).toList ++ '-' :: rest) = some (value, '-' :: rest) := by
  obtain ⟨number, ⟨rfl, small, text⟩ | ⟨rfl, text⟩ | ⟨rfl, text⟩⟩ := toList_yearText value
  · obtain ⟨d, digits, spelled, digit⟩ := padded_eq_cons 4 number
    rw [text, year, dropBlank_padded]
    split
    case h_1 same =>
      rw [spelled] at same
      obtain ⟨rfl, -⟩ := List.cons.inj same
      exact absurd digit (by decide)
    case h_2 same =>
      rw [spelled] at same
      obtain ⟨rfl, -⟩ := List.cons.inj same
      exact absurd digit (by decide)
    case h_3 =>
      rw [number_padded_self (c := '-') (by omega) small rfl]
      rfl
  -- behind a sign all that is left may be digits
  all_goals
    have short : (padded 4 number).toList.length ≤
        ((padded 4 number).toList ++ '-' :: rest).length := by
      rw [List.length_append]
      exact Nat.le_add_right _ _
    rw [text, year, List.cons_append, dropBlank_cons rfl]
    simp only
    rw [number_padded short rfl]
    rfl

/-- A date that exists is read back. -/
theorem date_append {value : Date} (valid : value.isValid = true) (ends : c.isDigit = false) :
    date ((yearText value.year).toList ++ '-' :: ((padded 2 value.month).toList ++
      '-' :: ((padded 2 value.day).toList ++ c :: rest))) = some (value, c :: rest) := by
  obtain ⟨first, last, day⟩ := Date.bounds_of_isValid valid
  have dash : Text.dropBlank ('-' :: ((padded 2 value.month).toList ++
      '-' :: ((padded 2 value.day).toList ++ c :: rest))) = '-' :: ((padded 2 value.month).toList ++
      '-' :: ((padded 2 value.day).toList ++ c :: rest)) := dropBlank_cons rfl
  simp only [date, year_yearText, dash, expect, ↓reduceIte, Option.bind_eq_bind, Option.bind_some,
    bounded_padded (c := '-') first last (by omega) rfl rfl, dropBlank_padded,
    number_padded_self (by omega) (by omega : value.day < 10 ^ 2) ends, valid]

/-! ## Fractions -/

theorem fraction_fractionText {nanoseconds : Nat} (fits : nanoseconds < 1000000000) :
    fraction ((fractionText nanoseconds).toList ++ ['Z']) = some (nanoseconds, ['Z']) := by
  rcases toList_fractionText fits with
    ⟨rfl, text⟩ | ⟨width, unit, count, text, spelled, wide, small, whole⟩
  · rw [text]
    rfl
  · have divides : 10 ^ width ∣ 10 ^ 9 := ⟨unit, whole.symm⟩
    have short := (Nat.pow_dvd_pow_iff_le_right (by omega)).mp divides
    have isUnit : unit = 10 ^ (9 - width) := by
      apply Nat.eq_of_mul_eq_mul_left (Nat.pow_pos (by omega) : 0 < 10 ^ width)
      rw [whole, ← Nat.pow_add, Nat.add_sub_cancel' short]
    have length := length_padded wide small
    have places : ((padded width count).toList ++ ['Z']).length - ['Z'].length = width := by
      rw [List.length_append, length, Nat.add_sub_cancel]
    rw [text, List.cons_append, fraction]
    simp only [number_padded (c := 'Z') (length ▸ short) rfl, Option.bind_eq_bind,
      Option.bind_some, places]
    rw [spelled, isUnit]
    rfl

/-- Whatever the fraction, the digits of the second end before it. -/
theorem number_second {second nanoseconds : Nat} (small : second < 10 ^ 2)
    (fits : nanoseconds < 1000000000) :
    number 2 ((padded 2 second).toList ++ ((fractionText nanoseconds).toList ++ ['Z'])) =
      some (second, (fractionText nanoseconds).toList ++ ['Z']) := by
  rcases toList_fractionText fits with ⟨-, text⟩ | ⟨width, unit, count, text, -⟩
  · rw [text]
    exact number_padded_self (by omega) small rfl
  · rw [text]
    exact number_padded_self (by omega) small rfl

end Reading

/-! ## The whole text -/

theorem ofUnix?_eq_some {moment : Timestamp} (leap : moment.LeapEndsMinute) :
    ofUnix? moment.seconds moment.nanoseconds = some moment := by
  rw [ofUnix?, dif_pos ⟨moment.nanoseconds_lt, leap, moment.first_le, moment.le_last⟩]

/-- The minute of a moment starts within the supported years too. -/
theorem ofUnix?_minute (moment : Timestamp) :
    ∃ start, ofUnix? (moment.seconds - moment.seconds % 60) 0 = some start := by
  have first := moment.first_le
  have last := moment.le_last
  have bounds : -8334601228800 ≤ moment.seconds - moment.seconds % 60 ∧
      moment.seconds - moment.seconds % 60 ≤ 8210266876799 := by omega
  exact ⟨_, dif_pos ⟨by omega, by omega, bounds⟩⟩

/-- The counts that are read are those of the moment: second 60 is its leap second. -/
theorem ofUnix?_written {moment : Timestamp} (leap : moment.LeapEndsMinute) :
    (if moment.writtenSecond = 60 then
        ofUnix? (moment.seconds - moment.seconds % 60 + 59 - 0)
          (moment.writtenFraction + 1000000000)
      else
        ofUnix? (moment.seconds - moment.seconds % 60 + moment.writtenSecond - 0)
          moment.writtenFraction) = some moment := by
  unfold writtenSecond writtenFraction
  by_cases isLeap : 1000000000 ≤ moment.nanoseconds
  · have lastSecond := leap isLeap
    have sixty : (moment.seconds % 86400).toNat % 60 + 1 = 60 := by omega
    have seconds : moment.seconds - moment.seconds % 60 + 59 - 0 = moment.seconds := by omega
    rw [if_pos isLeap, if_pos isLeap, if_pos sixty, seconds, Nat.sub_add_cancel isLeap,
      ofUnix?_eq_some leap]
  · have notSixty : (moment.seconds % 86400).toNat % 60 + 0 ≠ 60 := by omega
    have seconds : moment.seconds - moment.seconds % 60 +
        ((moment.seconds % 86400).toNat % 60 + 0 : Nat) - 0 = moment.seconds := by omega
    rw [if_neg isLeap, if_neg isLeap, if_neg notSixty, seconds, ofUnix?_eq_some leap]

/-- A moment is read back, if leap seconds end minutes. -/
theorem ofText?_of_leapEndsMinute {moment : Timestamp} (leap : moment.LeapEndsMinute) :
    ofText? (moment.text "Z") = some moment := by
  have valid := Date.isValid_ofDays (moment.seconds / 86400)
  have hour : (moment.seconds % 86400).toNat / 3600 ≤ 23 := by omega
  have minute : (moment.seconds % 86400).toNat / 60 % 60 ≤ 59 := by omega
  have second : moment.writtenSecond ≤ 60 := by
    unfold writtenSecond
    split <;> omega
  have number := Reading.number_second (Nat.lt_of_le_of_lt second (by omega))
    moment.writtenFraction_lt
  have zone : Reading.zone (Text.dropBlank ['Z']) = some (0, []) := by decide
  have ofMinute : moment.seconds / 86400 * 86400 + ((moment.seconds % 86400).toNat / 3600 * 3600 +
      (moment.seconds % 86400).toNat / 60 % 60 * 60 : Nat) =
        moment.seconds - moment.seconds % 60 := by omega
  obtain ⟨start, supported⟩ := moment.ofUnix?_minute
  -- the fields are read in the order of the text, each up to the character behind it
  rw [ofText?, toList_text, Reading.moment, Reading.date_append (c := 'T') valid rfl]
  simp only [Option.bind_eq_bind, Option.bind_some, true_or, ↓reduceIte,
    Reading.bounded_padded (c := ':') (Nat.zero_le _) hour (by omega) rfl rfl,
    Reading.bounded_padded (c := ':') (Nat.zero_le _) minute (by omega) rfl rfl,
    Reading.expect, Reading.dropBlank_padded, number,
    Reading.fraction_fractionText moment.writtenFraction_lt, zone, Date.toDays_ofDays]
  rw [if_pos ⟨second, rfl⟩, ofMinute, supported]
  exact ofUnix?_written leap

/-- **A moment is read back from its text, but for leap seconds within a minute**, which are taken
for the second after them. -/
theorem ofText?_text (moment : Timestamp) : ofText? (moment.text "Z") = some moment.written := by
  rw [← text_written]
  exact ofText?_of_leapEndsMinute moment.leapEndsMinute_written

/-- **The text of a moment tells the moment, but for leap seconds within a minute.** -/
theorem text_eq_iff {first second : Timestamp} :
    first.text "Z" = second.text "Z" ↔ first.written = second.written := by
  constructor
  · intro same
    have read : some first.written = some second.written := by
      rw [← ofText?_text, same, ofText?_text]
    exact Option.some.inj read
  · intro same
    rw [← first.text_written, same, second.text_written]

end Timestamp

end RecordMapping
