import RecordMapping.Proofs.Draft.KeyParts
import RecordMapping.Proofs.Value.Plain

/-!
# Fields for the number or the name of an entity

A field of the key may be said to hold the number of the entity, or its name. Its declared type is
checked, but whether a value is a number or a name is asked of the value alone. So a value that is
neither is refused (`Mapper.fillField_identifies`), and what the record gets is the identifier that
the value is, be it of the sort that the field is said to hold or of the other one.
-/

namespace RecordMapping

open Attempt

/-- The number or the name that a value is. -/
def FieldValue.identifier? (value : FieldValue) : Option Identifier :=
  match value.bare with
  | .int id => some (.id id)
  | .text name => some (.name name)
  | _ => none

namespace Field

/-- Whether the field is said to hold the number of the entity. -/
def holdsNumber (field : Field) : Bool :=
  (field.role = .primaryKey && field.type = .long) || field.role = .primaryKeyId

/-- Whether the field is said to hold the name of the entity. -/
def holdsName (field : Field) : Bool :=
  (field.role = .primaryKey && field.type = .string && !field.isEncodedKey) ||
    field.role = .primaryKeyName

/-- Whether an identifier is of the sort that the field is said to hold. -/
def suits (field : Field) : Identifier → Bool
  | .id _ => field.holdsNumber
  | .name _ => field.holdsName

/-- Whether the field lets null stand for an identifier that is not known yet. -/
def isOptional (field : Field) : Bool :=
  !(field.role = .primaryKey && field.holdsName)

/-- Whether a value is what the field is said to hold, or null where that may stand for it. -/
def Accepts (field : Field) (value : FieldValue) : Prop :=
  (value.bare = .null ∧ field.isOptional = true) ∨
    ∃ identifier, value.identifier? = some identifier ∧ field.suits identifier = true

/-- Whether a value is an identifier of the sort that the field, though its type fits its role, is
not said to hold. -/
structure Crosses (field : Field) (value : FieldValue) (identifier : Identifier) : Prop where
  typed : ∃ form, field.keyForm = .ok form
  given : value.identifier? = some identifier
  other : field.suits identifier = false

variable {field : Field}

theorem givesIdentifier_of_holds (held : field.holdsNumber = true ∨ field.holdsName = true) :
    field.givesIdentifier = true := by
  unfold holdsNumber holdsName at held
  unfold givesIdentifier
  cases role : field.role <;> simp [role] at held ⊢

/-- The form of such a field is a number or a name, or its type does not fit its role. -/
theorem keyForm_of_holds (held : field.holdsNumber = true ∨ field.holdsName = true) :
    (∃ fault, field.keyForm = .error (field.unsupported fault)) ∨ field.keyForm = .ok .id ∨
      field.keyForm = .ok .name := by
  unfold holdsNumber holdsName at held
  unfold keyForm
  cases role : field.role <;> cases type : field.type <;> simp [role, type] at held ⊢
  simp [held]

end Field

namespace KeyPart

variable {field : Field} {value : FieldValue}

/-- A value is null, an identifier, or neither. -/
theorem ofIdentifier_cases (field : Field) (value : FieldValue) :
    (value.bare = .null ∧ value.identifier? = none ∧ ofIdentifier field value = .ok .missing) ∨
      (∃ identifier, value.identifier? = some identifier ∧ value.bare ≠ .null ∧
        ofIdentifier field value = .ok (.identifier identifier)) ∨
      (value.identifier? = none ∧ value.bare ≠ .null ∧
        ∃ fault, ofIdentifier field value = .error (field.unsupported fault)) := by
  unfold ofIdentifier FieldValue.identifier?
  cases value.bare <;> simp

theorem ofField_of_error {error : MappingError} (failed : field.keyForm = .error error)
    (className : String) (value : FieldValue) : ofField className field value = .error error := by
  unfold ofField ofPrimaryKey
  rw [failed]
  split <;> rfl

theorem ofField_of_holds {form : KeyForm} (held : field.holdsNumber = true ∨ field.holdsName = true)
    (typed : field.keyForm = .ok form) (className : String) (value : FieldValue) :
    ofField className field value =
      if field.isOptional = false ∧ value.bare.isNull = true then
        .error (.invalidPrimaryKey className field.name)
      else ofIdentifier field value := by
  unfold Field.holdsNumber Field.holdsName at held
  unfold ofField ofPrimaryKey Field.isOptional Field.holdsName
  rw [typed]
  unfold Field.keyForm at typed
  cases role : field.role <;> cases type : field.type <;> simp [role, type] at held typed ⊢
  case primaryKey.long =>
    obtain rfl := typed
    rfl
  case primaryKey.string =>
    simp only [held, Bool.false_eq_true, ↓reduceIte] at typed
    obtain rfl := typed
    simp only [held, true_and]
    rfl
  case primaryKeyName.string => rfl
  case primaryKeyId.long => rfl

/-- A part that such a field gives is read off the value alone. -/
theorem ofField_ok {className : String} {part : KeyPart}
    (held : field.holdsNumber = true ∨ field.holdsName = true)
    (read : ofField className field value = .ok part) :
    (∃ form, field.keyForm = .ok form) ∧
      (part = .missing ∨ ∃ identifier, value.identifier? = some identifier ∧
        part = .identifier identifier) := by
  cases typed : field.keyForm with
  | error error =>
      rw [ofField_of_error typed] at read
      contradiction
  | ok form =>
      rw [ofField_of_holds held typed] at read
      split at read
      case isTrue => contradiction
      case isFalse =>
        refine ⟨⟨form, rfl⟩, ?_⟩
        rcases ofIdentifier_cases field value with
          ⟨-, -, missing⟩ | ⟨identifier, given, -, taken⟩ | ⟨-, -, fault, unread⟩
        · exact .inl (Except.ok.inj (read.symm.trans missing))
        · exact .inr ⟨identifier, given, Except.ok.inj (read.symm.trans taken)⟩
        · exact nomatch read.symm.trans unread

end KeyPart

namespace Mapper

variable {mapper : Mapper} {knownKey : Reference → Option Key} {draft after : Draft} {field : Field}
  {position : Nat} {value : FieldValue} {identifier : Identifier}

/-- What is neither accepted nor an identifier of the other sort is refused. -/
theorem fillField_refuses (found : draft.schema.field position = .ok field)
    (held : field.holdsNumber = true ∨ field.holdsName = true)
    (straight : ∀ identifier, ¬ field.Crosses value identifier) (foreign : ¬ field.Accepts value) :
    ∃ error, (mapper.fillField knownKey position value).Fails draft error draft ∧
      ((∃ fault, error = field.unsupported fault) ∨
        value.bare = .null ∧ field.isOptional = false ∧
          error = .invalidPrimaryKey draft.schema.name field.name) := by
  have fails {error : MappingError}
      (refused : KeyPart.ofField draft.schema.name field value = .error error) :
      (mapper.fillField knownKey position value).Fails draft error draft := by
    rw [Fails,
      fillField_of_keyField mapper knownKey value found (Field.givesIdentifier_of_holds held),
      Attempt.update, refused]
    rfl
  cases typed : field.keyForm with
  | error error =>
      refine ⟨error, fails (KeyPart.ofField_of_error typed draft.schema.name value), .inl ?_⟩
      rcases Field.keyForm_of_holds held with ⟨fault, mistyped⟩ | form | form
      · exact ⟨fault, Except.error.inj (typed.symm.trans mistyped)⟩
      · rw [typed] at form
        contradiction
      · rw [typed] at form
        contradiction
  | ok form =>
      have read := KeyPart.ofField_of_holds held typed draft.schema.name value
      rcases KeyPart.ofIdentifier_cases field value with
        ⟨null, -, -⟩ | ⟨identifier, given, -, -⟩ | ⟨-, notNull, fault, unread⟩
      · have required : field.isOptional = false := by
          cases optional : field.isOptional with
          | false => rfl
          | true => exact (foreign (.inl ⟨null, optional⟩)).elim
        rw [if_pos ⟨required, FieldValue.isNull_iff.mpr null⟩] at read
        exact ⟨_, fails read, .inr ⟨null, required, rfl⟩⟩
      · cases suits : field.suits identifier with
        | true => exact (foreign (.inr ⟨identifier, given, suits⟩)).elim
        | false => exact (straight identifier ⟨⟨form, typed⟩, given, suits⟩).elim
      · rw [if_neg fun missing => notNull (FieldValue.isNull_iff.mp missing.2), unread] at read
        exact ⟨_, fails read, .inl ⟨fault, rfl⟩⟩

/-- What such a field completes a key with is the identifier that the value is. -/
theorem fillField_completes (found : draft.schema.field position = .ok field)
    (held : field.holdsNumber = true ∨ field.holdsName = true)
    (filled : (mapper.fillField knownKey position value).Gives draft () after)
    (incomplete : draft.key.isComplete = false) (complete : after.key.isComplete = true) :
    ∃ identifier, value.identifier? = some identifier ∧ after.key.identifier = some identifier ∧
      ((∀ other, ¬ field.Crosses value other) → field.suits identifier = true) := by
  rw [Gives,
    fillField_of_keyField mapper knownKey value found (Field.givesIdentifier_of_holds held),
    update_eq_ok_iff, bind_eq_ok_iff] at filled
  obtain ⟨part, read, applied⟩ := filled
  obtain ⟨typed, rfl | ⟨identifier, given, rfl⟩⟩ := KeyPart.ofField_ok held read
  · obtain rfl := Draft.applyPrimaryKey_none .derived applied
    rw [incomplete] at complete
    contradiction
  · obtain ⟨key, built, rfl⟩ := (Draft.applyPart_identifier_iff incomplete).mp applied
    refine ⟨identifier, given, (Key.build_ok built).2.2, fun straight => ?_⟩
    cases suits : field.suits identifier with
    | true => rfl
    | false => exact (straight identifier ⟨typed, given, suits⟩).elim

/-- An identifier of the other sort is taken like one of the right sort. -/
theorem fillField_of_crosses (mapper : Mapper) (knownKey : Reference → Option Key)
    (found : draft.schema.field position = .ok field)
    (held : field.holdsNumber = true ∨ field.holdsName = true)
    (crossed : field.Crosses value identifier) :
    mapper.fillField knownKey position value draft =
      Attempt.update (fun draft => draft.applyPart (.identifier identifier)) draft := by
  obtain ⟨⟨form, typed⟩, given, -⟩ := crossed
  have read : KeyPart.ofField draft.schema.name field value = .ok (.identifier identifier) := by
    rw [KeyPart.ofField_of_holds held typed]
    rcases KeyPart.ofIdentifier_cases field value with
      ⟨-, none, -⟩ | ⟨other, found, notNull, taken⟩ | ⟨none, -⟩
    · exact nomatch given.symm.trans none
    · obtain rfl := Option.some.inj (given.symm.trans found)
      rw [if_neg fun missing => notNull (FieldValue.isNull_iff.mp missing.2), taken]
    · exact nomatch given.symm.trans none
  rw [fillField_of_keyField mapper knownKey value found (Field.givesIdentifier_of_holds held),
    Attempt.update, Attempt.update, read]
  rfl

/-- **A field for a number or a name takes an identifier or refuses the value.** As long as no name
is given for a number, and no number for a name, it takes what it is said to hold and null where that
may stand for it, refuses all else with the draft left alone, and completes a key with the number or
the name that it was given. A name for a number, or a number for a name, is treated as the other
field would treat it, and completes the key with an identifier of the other sort. -/
theorem fillField_identifies (found : draft.schema.field position = .ok field)
    (held : field.holdsNumber = true ∨ field.holdsName = true) :
    ((∀ identifier, ¬ field.Crosses value identifier) → ¬ field.Accepts value →
      ∃ error, (mapper.fillField knownKey position value).Fails draft error draft ∧
        ((∃ fault, error = field.unsupported fault) ∨
          value.bare = .null ∧ field.isOptional = false ∧
            error = .invalidPrimaryKey draft.schema.name field.name)) ∧
    (∀ after, (mapper.fillField knownKey position value).Gives draft () after →
      draft.key.isComplete = false → after.key.isComplete = true →
      ∃ identifier, value.identifier? = some identifier ∧ after.key.identifier = some identifier ∧
        ((∀ other, ¬ field.Crosses value other) → field.suits identifier = true)) ∧
    ∀ identifier, field.Crosses value identifier →
      mapper.fillField knownKey position value draft =
          Attempt.update (fun draft => draft.applyPart (.identifier identifier)) draft ∧
        (draft.key.isComplete = false →
          ∀ key, Key.build draft.record.parent? draft.record.kind identifier = .ok key →
            (mapper.fillField knownKey position value).Gives draft ()
              (draft.withKey key (some .derived) draft.parentOrigin)) := by
  refine ⟨fillField_refuses found held, fun _ => fillField_completes found held, ?_⟩
  intro identifier crossed
  have taken := fillField_of_crosses mapper knownKey found held crossed
  refine ⟨taken, fun incomplete key built => ?_⟩
  rw [Gives, taken, update_eq_ok_iff]
  exact (Draft.applyPart_identifier_iff incomplete).mpr ⟨key, built, rfl⟩

/-- The number of a book is its id, and bytes are no number. -/
theorem fillField_identifies_book :
    (∃ error, (bookMapper.fillField (fun _ => none) 0 (.bytes [1])).Fails newBook error newBook) ∧
      (bookMapper.fillField (fun _ => none) 0 (.tracked (.int 5))).Gives newBook ()
        (newBook.withKey ⟨[], "Book", some (.id 5)⟩ (some .derived) none) ∧
      ∃ identifier, (FieldValue.tracked (.int 5)).identifier? = some identifier ∧
        (newBook.withKey ⟨[], "Book", some (.id 5)⟩ (some .derived) none).key.identifier =
          some identifier := by
  have found : newBook.schema.field 0 = .ok { name := "id", type := .long, isPrimaryKey := true } :=
    rfl
  have filled : (bookMapper.fillField (fun _ => none) 0 (.tracked (.int 5))).Gives newBook ()
      (newBook.withKey ⟨[], "Book", some (.id 5)⟩ (some .derived) none) := rfl
  refine ⟨?_, filled, ?_⟩
  · have foreign : ¬ Field.Accepts { name := "id", type := .long, isPrimaryKey := true }
        (.bytes [1]) := by
      rintro (⟨null, -⟩ | ⟨identifier, given, -⟩)
      · exact nomatch null
      · exact nomatch given
    have straight (identifier : Identifier) : ¬ Field.Crosses
        { name := "id", type := .long, isPrimaryKey := true } (.bytes [1]) identifier :=
      fun crossed => nomatch crossed.given
    obtain ⟨error, failed, -⟩ := (fillField_identifies found (.inl rfl)).1 straight foreign
    exact ⟨error, failed⟩
  · obtain ⟨identifier, given, held, -⟩ :=
      (fillField_identifies found (.inl rfl)).2.1 _ filled rfl rfl
    exact ⟨identifier, given, held⟩

/-- A book whose id is a number is given a name instead. -/
theorem not_fillField_identifies_book :
    let field : Field := { name := "id", type := .long, isPrimaryKey := true }
    let named := newBook.withKey ⟨[], "Book", some (.name "x")⟩ (some .derived) none
    bookMapper.insert book = .ok newBook ∧ newBook.schema.field 0 = .ok field ∧
      field.keyForm = .ok .id ∧
      (bookMapper.fillField (fun _ => none) 0 (.text "x")).Gives newBook () named ∧
      ¬ ∃ fault, (bookMapper.fillField (fun _ => none) 0 (.text "x")).Fails newBook
        (field.unsupported fault) newBook := by
  intro field named
  have taken : (bookMapper.fillField (fun _ => none) 0 (.text "x")).Gives newBook () named := rfl
  refine ⟨rfl, rfl, rfl, taken, ?_⟩
  rintro ⟨fault, failed⟩
  exact nomatch taken.symm.trans failed

end Mapper

end RecordMapping
