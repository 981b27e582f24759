import RecordMapping.Text.Blank

/-! # Texts without blanks -/

namespace RecordMapping.Text

theorem dropBlank_eq_self {characters : List Char}
    (inked : ∀ c ∈ characters, isBlank c = false) : dropBlank characters = characters := by
  cases characters with
  | nil => rfl
  | cons c rest => rw [dropBlank, List.dropWhile_cons, inked c List.mem_cons_self]; rfl

theorem trimBlank_eq_self {characters : List Char}
    (inked : ∀ c ∈ characters, isBlank c = false) : trimBlank characters = characters := by
  have reversed : ∀ c ∈ characters.reverse, isBlank c = false := fun c member =>
    inked c (List.mem_reverse.mp member)
  rw [trimBlank, dropBlank_eq_self inked, dropBlank_eq_self reversed, List.reverse_reverse]

end RecordMapping.Text
