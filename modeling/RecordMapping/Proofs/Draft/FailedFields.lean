import RecordMapping.Proofs.Draft.Leaves

/-!
# What a failed field leaves in the record

A field of the key, or one without an embedded object, leaves the record alone when it fails. An
embedded object is stored leaf by leaf without looking ahead, so that its record keeps the
properties of the leaves before the one that fails, and those only (`Mapper.putsBeforeError`).
-/

namespace RecordMapping

open Attempt

theorem Field.isInKey_eq_false_iff (field : Field) :
    field.isInKey = false ↔ field.role = .relation ∨ field.role = .regular := by
  unfold isInKey keyFlags role
  cases field.isPrimaryKey <;> cases field.isParentKey <;> cases field.isKeyName <;>
    cases field.isKeyId <;> cases field.relation <;> simp

/-- Applies the value of a field of the key by the part that the field plays. -/
def Draft.setInKey (draft : Draft) (field : Field) (value : FieldValue) : Outcome Draft :=
  match field.role with
  | .primaryKey => draft.setPrimaryKey field value
  | .parentKey => draft.setParentField field value
  | _ => draft.setIdentifier field value

/-- What is reached in the value of the field at a position. The rules for fields of the key reach
nothing. -/
def Draft.reachedAt (draft : Draft) (position : Nat) (value : FieldValue) : List (Outcome Leaf) :=
  match draft.schema.field position with
  | .ok field => if field.isInKey then [] else field.leaves draft.operation none position value
  | .error _ => []

namespace Mapper

variable {mapper : Mapper} {knownKey : Reference → Option Key} {draft next final : Draft}
  {error : MappingError} {position : Nat} {value : FieldValue} {field : Field}

/-- The properties that are put on the way to the first error. -/
def putsBeforeError (mapper : Mapper) (knownKey : Reference → Option Key) (draft : Draft) :
    List (Outcome Leaf) → List Property
  | [] => []
  | reached :: rest =>
      match reached >>= mapper.putOf knownKey draft with
      | .ok put => put.toList ++ putsBeforeError mapper knownKey draft rest
      | .error _ => []

theorem putsBeforeError_eq_of_sameSetting (same : draft.SameSetting next)
    (reached : List (Outcome Leaf)) :
    mapper.putsBeforeError knownKey next reached = mapper.putsBeforeError knownKey draft reached := by
  induction reached with
  | nil => rfl
  | cons first rest ih => simp only [putsBeforeError, putOf_eq_of_sameSetting same, ih]

/-- **A failure keeps what was put before it.** The induction is on what is reached; each leaf that
is stored leaves the setting as it was, by which the rest was listed. -/
theorem record_of_failed_each {reached : List (Outcome Leaf)}
    (failed : (each reached (mapper.storeReached knownKey)).Fails draft error final) :
    final.record = draft.record.putAll (mapper.putsBeforeError knownKey draft reached) := by
  induction reached generalizing draft with
  | nil => exact (not_fails_pure failed).elim
  | cons first rest ih =>
      rcases Fails.bind failed with failedFirst | ⟨_, middle, done, failedRest⟩
      · obtain ⟨refused, same⟩ := storeReached_fails failedFirst
        rw [putsBeforeError, refused]
        exact same
      · obtain ⟨leaf, put, rfl, given, rfl⟩ := storeReached_gives done
        have given' : (.ok leaf >>= mapper.putOf knownKey draft) = .ok put := given
        rw [ih failedRest, putsBeforeError, given', Record.putAll_append,
          putsBeforeError_eq_of_sameSetting (draft.sameSetting_put _ _)]
        rfl

/-- A field without an embedded object puts its property last. -/
theorem record_of_failed_bare {embedding : Option (Embedding Field)} (bare : field.embedding = none)
    (failed : (mapper.storeField knownKey embedding position field value).Fails draft error final) :
    final.record = draft.record := by
  rw [Fails, storeField_eq_each, Field.leaves_of_bare bare] at failed
  by_cases written : field.isWrittenBy draft.operation = true
  · rw [if_pos written, each_singleton] at failed
    exact (storeReached_fails failed).2
  · rw [if_neg written] at failed
    exact (not_fails_pure failed).elim

/-! ## Fields of the class -/

theorem fillField_of_absent (mapper : Mapper) (knownKey : Reference → Option Key)
    (value : FieldValue) (absent : draft.schema.field position = .error error) :
    mapper.fillField knownKey position value draft = .error error draft := by
  unfold fillField
  rw [get_bind, absent]
  rfl

/-- The value of a field of the key goes through one rule, which makes a draft or fails. -/
theorem fillField_of_inKey (mapper : Mapper) (knownKey : Reference → Option Key)
    (value : FieldValue) (found : draft.schema.field position = .ok field)
    (inKey : field.isInKey = true) :
    mapper.fillField knownKey position value draft =
      Attempt.update (fun draft => draft.setInKey field value) draft := by
  rw [fillField_eq found]
  have notPlain : ¬ (field.role = .relation ∨ field.role = .regular) := by
    rw [← Field.isInKey_eq_false_iff, inKey]
    exact Bool.noConfusion
  unfold Draft.setInKey
  cases role : field.role with
  | primaryKey => rfl
  | parentKey => rfl
  | primaryKeyName => rfl
  | primaryKeyId => rfl
  | regular => exact (notPlain (.inr role)).elim
  | relation => exact (notPlain (.inl role)).elim

theorem fillField_of_not_inKey (mapper : Mapper) (knownKey : Reference → Option Key)
    (value : FieldValue) (found : draft.schema.field position = .ok field)
    (plain : field.isInKey = false) :
    mapper.fillField knownKey position value draft =
      mapper.storeField knownKey none position field value draft := by
  rw [fillField_eq found]
  rcases field.isInKey_eq_false_iff.mp plain with role | role
  · rw [role]
  · rw [role]

/-- **A failed field leaves the record as it was, but for the leaves before the failing one.** A
field without an embedded object has none. -/
theorem record_of_failed_fillField
    (failed : (mapper.fillField knownKey position value).Fails draft error final) :
    final.record =
        draft.record.putAll (mapper.putsBeforeError knownKey draft (draft.reachedAt position value)) ∧
      ∀ field, draft.schema.field position = .ok field → field.embedding = none →
        final.record = draft.record := by
  unfold Draft.reachedAt
  cases found : draft.schema.field position with
  | error cause =>
      rw [Fails, fillField_of_absent mapper knownKey value found] at failed
      obtain ⟨rfl, rfl⟩ := EStateM.Result.error.inj failed
      refine ⟨rfl, ?_⟩
      intro field present
      contradiction
  | ok field =>
      by_cases inKey : field.isInKey = true
      · rw [Fails, fillField_of_inKey mapper knownKey value found inKey] at failed
        obtain rfl := Fails.update failed
        refine ⟨?_, fun _ _ _ => rfl⟩
        simp only
        rw [if_pos inKey]
        rfl
      · rw [Bool.not_eq_true] at inKey
        rw [Fails, fillField_of_not_inKey mapper knownKey value found inKey] at failed
        have listed := failed
        rw [storeField_eq_each] at listed
        simp only [inKey, Bool.false_eq_true, ↓reduceIte]
        refine ⟨record_of_failed_each listed, ?_⟩
        rintro _ ⟨⟩ bare
        exact record_of_failed_bare bare failed

end Mapper

/-! ## An address without its city, as an example -/

def addressClass : Schema where
  name := "Address"
  kind := "Address"
  inheritance := .newTable
  isEmbeddable := true
  fields := [
    { name := "street", type := .string },
    { name := "city", type := .string, nullPolicy := .refuse }]

def personClass : Schema where
  name := "Person"
  kind := "Person"
  inheritance := .newTable
  isEmbeddable := false
  fields := [
    { name := "id", type := .long, isPrimaryKey := true },
    { name := "address", type := .list, embedding := some ⟨addressClass, []⟩ }]

def personMapper : Mapper where
  settings := {}
  schema? name := if name = "Person" then some personClass else none

/-- The draft of a new person. -/
def newPerson : Draft where
  object := ⟨⟨1⟩, "Person"⟩
  schema := personClass
  operation := .insert
  record := ⟨⟨[], "Person", none⟩, []⟩

/-- An address with a street, and with null for the city, which is mandatory. -/
def streetOnly : FieldValue :=
  .embedded [.text "Abbey Road", .null]

/-- The city is refused when the street has been put. -/
theorem Mapper.record_of_failed_fillField_address :
    ∃ final, (personMapper.fillField (fun _ => none) 1 streetOnly).Fails newPerson
      (.mandatoryFieldNull "Address.city" .field) final ∧
      final.record = newPerson.record.putAll [⟨"street", .text "Abbey Road", true⟩] := by
  have failed : (personMapper.fillField (fun _ => none) 1 streetOnly).Fails newPerson
      (.mandatoryFieldNull "Address.city" .field)
      (newPerson.putAll [⟨"street", .text "Abbey Road", true⟩]) := rfl
  exact ⟨_, failed, (record_of_failed_fillField failed).1⟩

/-- A failed field does not always leave the record as it was. -/
theorem Mapper.not_record_of_failed_address :
    personMapper.insert newPerson.object = .ok newPerson ∧
      ∃ final, (personMapper.fillField (fun _ => none) 1 streetOnly).Fails newPerson
        (.mandatoryFieldNull "Address.city" .field) final ∧ final.record ≠ newPerson.record := by
  refine ⟨rfl, _, rfl, ?_⟩
  intro same
  have count := congrArg Record.size same
  contradiction

end RecordMapping
