import RecordMapping.Proofs.Draft.FailedFields
import RecordMapping.Proofs.Draft.InPlace
import RecordMapping.Proofs.Draft.KeyParts

/-!
# Calls that leave no trace

The value of a field of the key is taken whole or not at all, and null gives nothing to take. So a
call is void that fills a field of the key with null or in vain, that names no field, or that assigns
a key in vain (`DraftCall.IsVoid`): it leaves the draft as it was, and the rest of the run is the same
as without it (`Draft.void_call_leaves_no_trace`). This holds of the rules for keys however they are
carried out, at once or piece by piece.
-/

namespace RecordMapping

open Attempt

/-! ## Null in fields of the key -/

namespace Draft

variable {draft after : Draft} {field : Field} {value : FieldValue}

theorem applyParent_none (applied : draft.applyParent none = .ok after) : after = draft := by
  unfold applyParent at applied
  cases found : draft.record.parent? with
  | none =>
      rw [found] at applied
      exact (Except.ok.inj applied).symm
  | some parent =>
      rw [found] at applied
      simp only at applied
      split at applied
      case isTrue => contradiction
      case isFalse => exact (Except.ok.inj applied).symm

theorem wholeKey_of_null (null : value.bare = .null) : wholeKey field value = .ok none := by
  rw [wholeKey, null]

theorem identifiedKey_of_null (null : value.bare = .null) :
    draft.identifiedKey field value = .ok none := by
  rw [identifiedKey, null]

theorem setPrimaryKey_of_null (null : value.bare = .null)
    (set : draft.setPrimaryKey field value = .ok after) : after = draft := by
  simp only [setPrimaryKey, wholeKey_of_null null, identifiedKey_of_null null, null,
    FieldValue.isNull, bind_eq_ok_iff] at set
  obtain ⟨form, -, applied⟩ := set
  cases form with
  | id => exact applyPrimaryKey_none .derived applied
  | name => contradiction
  | key => exact applyPrimaryKey_none .whole applied
  | token => exact applyPrimaryKey_none .whole applied

theorem setIdentifier_of_null (null : value.bare = .null)
    (set : draft.setIdentifier field value = .ok after) : after = draft := by
  simp only [setIdentifier, identifiedKey_of_null null, bind_eq_ok_iff] at set
  obtain ⟨_, -, _, given, applied⟩ := set
  obtain rfl := Except.ok.inj given
  exact applyPrimaryKey_none .derived applied

theorem setParentField_of_null (null : value.bare = .null)
    (set : draft.setParentField field value = .ok after) : after = draft := by
  simp only [setParentField, wholeKey_of_null null, bind_eq_ok_iff] at set
  obtain ⟨_, -, _, given, applied⟩ := set
  obtain rfl := Except.ok.inj given
  exact applyParent_none applied

/-- Null gives a field of the key nothing, whether it is accepted or refused. -/
theorem setInKey_of_null (null : value.bare = .null)
    (set : draft.setInKey field value = .ok after) : after = draft := by
  unfold setInKey at set
  split at set
  case h_1 => exact setPrimaryKey_of_null null set
  case h_2 => exact setParentField_of_null null set
  case h_3 => exact setIdentifier_of_null null set

end Draft

/-! ## Void calls -/

namespace Attempt

variable {σ : Type} {change : σ → Outcome σ} {state : σ}

theorem update_leaves (same : ∀ next, change state = .ok next → next = state) :
    ((update change).outcome state).2 = state := by
  unfold outcome update
  cases changed : change state with
  | ok next => exact same next changed
  | error error => rfl

theorem update_leaves_of_error {error : MappingError}
    (refused : ((update change).outcome state).1 = .error error) :
    ((update change).outcome state).2 = state := by
  apply update_leaves
  intro next changed
  rw [outcome, update, changed] at refused
  contradiction

end Attempt

namespace DraftCall

variable {mapper : Mapper} {call : DraftCall} {draft : Draft}

/-- The call with the rules for keys carried out piece by piece. -/
def stepwise (mapper : Mapper) : DraftCall → Attempt Draft Unit
  | fillField knownKey position value => mapper.fillFieldInPlace knownKey position value
  | assignKey key => Draft.InPlace.assignKey key
  | call => call.attempt mapper

theorem stepwise_eq (mapper : Mapper) (call : DraftCall) :
    call.stepwise mapper = call.attempt mapper := by
  cases call with
  | fillField knownKey position value => exact mapper.fillFieldInPlace_eq knownKey position value
  | assignKey key => exact Draft.InPlace.assignKey_eq key
  | fillFields | placeInGroup | resolve => rfl

/-- Whether the call fails. -/
def IsRefused (mapper : Mapper) (draft : Draft) (call : DraftCall) : Prop :=
  ∃ error, ((call.attempt mapper).outcome draft).1 = .error error

/-- Whether the call gives the draft nothing: it names no field, or it fails for a part of the key
or fills it with null. -/
def IsVoid (mapper : Mapper) (draft : Draft) : DraftCall → Prop
  | fillField knownKey position value =>
      draft.schema.fields.length ≤ position ∨
        ∃ field, draft.schema.field position = .ok field ∧ field.isInKey = true ∧
          (value.bare = .null ∨ (fillField knownKey position value).IsRefused mapper draft)
  | assignKey key => (assignKey key).IsRefused mapper draft
  | _ => False

/-- **A void call leaves the draft as it was.** -/
theorem left_of_isVoid (void : call.IsVoid mapper draft) : call.left mapper draft = draft := by
  cases call with
  | fillField knownKey position value =>
      rcases void with outside | ⟨field, found, inKey, nothing⟩
      · have absent : draft.schema.field position =
            .error (.invalidMetadata (.noFieldAt draft.schema.name position)) := by
          rw [ClassSchema.field, List.getElem?_eq_none outside]
        change ((mapper.fillField knownKey position value).outcome draft).2 = draft
        rw [outcome, Mapper.fillField_of_absent mapper knownKey value absent]
      · have filled : (mapper.fillField knownKey position value).outcome draft =
            (update fun draft => draft.setInKey field value).outcome draft := by
          rw [outcome, Mapper.fillField_of_inKey mapper knownKey value found inKey, outcome]
        change ((mapper.fillField knownKey position value).outcome draft).2 = draft
        rw [filled]
        rcases nothing with null | ⟨error, refused⟩
        · exact update_leaves fun after set => Draft.setInKey_of_null null set
        · change ((mapper.fillField knownKey position value).outcome draft).1 = .error error
            at refused
          exact update_leaves_of_error (filled ▸ refused)
  | assignKey key =>
      obtain ⟨error, refused⟩ := void
      exact update_leaves_of_error refused
  | fillFields | placeInGroup | resolve => exact void.elim

end DraftCall

/-! ## Runs without a void call -/

namespace Draft

variable {mapper : Mapper} {calls : List DraftCall} {start : Draft} {call : DraftCall}
  {count later : Nat}

/-- What the call at a place of a run answers. -/
def answer (mapper : Mapper) (calls : List DraftCall) (start : Draft) (count : Nat) :
    Option (Outcome Unit) :=
  calls[count]?.map fun call => ((call.attempt mapper).outcome (start.moment mapper calls count)).1

theorem take_eraseIdx (calls : List DraftCall) (count : Nat) :
    (calls.eraseIdx count).take count = calls.take count := by
  apply List.ext_getElem?
  intro place
  rw [List.getElem?_take, List.getElem?_take]
  split
  case isTrue before => exact List.getElem?_eraseIdx_of_lt before
  case isFalse => rfl

/-- The rest of a run does not see a call that left the draft as it was. The induction is on the
later moment. -/
theorem moment_eraseIdx
    (same : start.moment mapper calls (count + 1) = start.moment mapper calls count)
    (ordered : count ≤ later) :
    start.moment mapper (calls.eraseIdx count) later = start.moment mapper calls (later + 1) := by
  induction ordered with
  | refl =>
      rw [same, moment, moment, take_eraseIdx]
  | @step later ordered ih =>
      have shifted : (calls.eraseIdx count)[later]? = calls[later + 1]? :=
        List.getElem?_eraseIdx_of_ge ordered
      cases found : calls[later + 1]? with
      | none =>
          rw [moment_succ_of_none found, moment_succ_of_none (shifted.trans found), ih]
      | some call => rw [moment_succ found, moment_succ (shifted.trans found), ih]

/-- **A void call leaves no trace.** The draft is the same after it as before, also if the rules for
keys are carried out piece by piece, and every later call finds the same draft and answers the same
as in the run without it. -/
theorem void_call_leaves_no_trace (found : calls[count]? = some call)
    (void : call.IsVoid mapper (start.moment mapper calls count)) :
    start.moment mapper calls (count + 1) = start.moment mapper calls count ∧
      ((call.stepwise mapper).outcome (start.moment mapper calls count)).2 =
        start.moment mapper calls count ∧
      ∀ later, count ≤ later →
        start.moment mapper (calls.eraseIdx count) later =
            start.moment mapper calls (later + 1) ∧
          start.answer mapper (calls.eraseIdx count) later =
            start.answer mapper calls (later + 1) := by
  have left := DraftCall.left_of_isVoid void
  have same : start.moment mapper calls (count + 1) = start.moment mapper calls count := by
    rw [moment_succ found, left]
  refine ⟨same, ?_, fun later ordered => ?_⟩
  · rw [DraftCall.stepwise_eq]
    exact left
  · have moments := moment_eraseIdx same ordered
    refine ⟨moments, ?_⟩
    rw [answer, answer, List.getElem?_eraseIdx_of_ge ordered, moments]

/-- A second number is refused, and the book comes below its library as if it had not been given. -/
theorem void_call_leaves_no_trace_book :
    let calls : List DraftCall := [.fillField (fun _ => none) 0 (.int 5),
      .fillField (fun _ => none) 0 (.int 6), .fillField (fun _ => none) 1 (.key library)]
    newBook.moment bookMapper (calls.eraseIdx 1) 2 = newBook.moment bookMapper calls 3 := by
  intro calls
  have numbered : newBook.moment bookMapper calls 1 =
      newBook.withKey ⟨[], "Book", some (.id 5)⟩ (some .derived) none := rfl
  have refused : (DraftCall.fillField (fun _ => none) 0 (.int 6)).IsRefused bookMapper
      (newBook.moment bookMapper calls 1) := by
    rw [numbered]
    exact ⟨.immutableKey "Book" ⟨[], "Book", some (.id 5)⟩ (some ⟨[], "Book", some (.id 6)⟩), rfl⟩
  have void : (DraftCall.fillField (fun _ => none) 0 (.int 6)).IsVoid bookMapper
      (newBook.moment bookMapper calls 1) :=
    .inr ⟨{ name := "id", type := .long, isPrimaryKey := true }, rfl, rfl, .inr refused⟩
  have found : calls[1]? = some (.fillField (fun _ => none) 0 (.int 6)) := rfl
  exact ((void_call_leaves_no_trace found void).2.2 2 (by decide)).1

end Draft

end RecordMapping
