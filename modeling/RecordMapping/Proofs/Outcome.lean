import Mathlib.Logic.Basic
import RecordMapping.Error

/-!
# Results of computations that may fail

Which steps a success is made of, and which errors a computation may report.
-/

namespace RecordMapping

variable {ε ε' α β : Type}

theorem bind_eq_ok_iff {first : Except ε α} {next : α → Except ε β} {result : β} :
    first >>= next = .ok result ↔ ∃ value, first = .ok value ∧ next value = .ok result := by
  cases first with
  | error error =>
      change Except.error error = .ok result ↔ _
      simp only [reduceCtorEq, false_and, exists_false]
  | ok value =>
      change next value = .ok result ↔ _
      simp only [Except.ok.injEq, exists_eq_left']

theorem bind_eq_error_iff {first : Except ε α} {next : α → Except ε β} {fault : ε} :
    first >>= next = .error fault ↔
      first = .error fault ∨ ∃ value, first = .ok value ∧ next value = .error fault := by
  cases first with
  | error error =>
      change Except.error error = .error fault ↔ _
      simp only [Except.error.injEq, reduceCtorEq, false_and, exists_false, or_false]
  | ok value =>
      change next value = .error fault ↔ _
      simp only [reduceCtorEq, Except.ok.injEq, exists_eq_left', false_or]

theorem check_bind_eq_ok_iff {check : Except ε Unit} {next : Unit → Except ε β} {result : β} :
    check >>= next = .ok result ↔ check = .ok () ∧ next () = .ok result := by
  rw [bind_eq_ok_iff]
  exact ⟨fun ⟨(), passed, rest⟩ => ⟨passed, rest⟩, fun ⟨passed, rest⟩ => ⟨(), passed, rest⟩⟩

theorem mapError_eq_ok_iff {outcome : Except ε α} {change : ε → ε'} {result : α} :
    outcome.mapError change = .ok result ↔ outcome = .ok result := by
  cases outcome with
  | ok value =>
      change Except.ok value = .ok result ↔ _
      rw [Except.ok.injEq, Except.ok.injEq]
  | error cause =>
      change Except.error (change cause) = .ok result ↔ _
      simp only [reduceCtorEq]

theorem mapError_eq_error_iff {outcome : Except ε α} {change : ε → ε'} {fault : ε'} :
    outcome.mapError change = .error fault ↔
      ∃ cause, outcome = .error cause ∧ change cause = fault := by
  cases outcome with
  | ok value =>
      change Except.ok value = .error fault ↔ _
      simp only [reduceCtorEq, false_and, exists_false]
  | error cause =>
      change Except.error (change cause) = .error fault ↔ _
      simp only [Except.error.injEq, exists_eq_left']

/-! ## Reported errors -/

/-- Whether an error says that a record would be given a parent a second time. -/
def MappingError.isRebuild : MappingError → Bool
  | .internal (.ancestryRebuilt _ _) => true
  | _ => false

/-- An outcome reports no error but the allowed ones. -/
def Reports (allowed : MappingError → Prop) (outcome : Outcome α) : Prop :=
  ∀ error, outcome = .error error → allowed error

variable {allowed : MappingError → Prop}

theorem reports_ok (value : α) : Reports allowed (.ok value) := by
  rintro _ ⟨⟩

theorem reports_error {error : MappingError} (permitted : allowed error) :
    Reports allowed (.error error : Outcome α) := by
  rintro _ ⟨⟩
  exact permitted

theorem reports_bind {first : Outcome α} {next : α → Outcome β} (reported : Reports allowed first)
    (reportedNext : ∀ value, first = .ok value → Reports allowed (next value)) :
    Reports allowed (first >>= next) := by
  cases first with
  | ok value => exact reportedNext value rfl
  | error error => exact reports_error (reported error rfl)

theorem reports_mapError {outcome : Except ε α} {change : ε → MappingError}
    (permitted : ∀ cause, allowed (change cause)) :
    Reports allowed (outcome.mapError change) := by
  intro error failed
  obtain ⟨cause, -, rfl⟩ := mapError_eq_error_iff.mp failed
  exact permitted cause

end RecordMapping
