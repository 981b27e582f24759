import RecordMapping.Draft.Population
import RecordMapping.Proofs.Draft.Key

/-!
# Filling a draft, as turns

Storing a property or noting a relation leaves the key alone, whatever is stored. So the value of a
field turns the key by the rule for the field's part in the key, if it turns it at all.
-/

namespace RecordMapping

open Attempt

/-- The errors that packing a value may report; how values are packed is given to the mapper. -/
def Mapper.PackingFails (mapper : Mapper) (error : MappingError) : Prop :=
  ∃ field value, mapper.conversion.pack field value = .error error

theorem Field.refuseNull_reports {field : Field} {className : String} {value : FieldValue} :
    Reports (·.isRebuild = false) (field.refuseNull className value) := by
  unfold refuseNull
  split
  · split
    · exact reports_error rfl
    · exact reports_ok _
  · exact reports_ok _

theorem ClassSchema.field_reports {schema : Schema} {position : Nat} :
    Reports (·.isRebuild = false) (schema.field position) := by
  unfold field
  split
  · exact reports_ok _
  · exact reports_error rfl

namespace Draft

variable {draft : Draft} {knownKey : Reference → Option Key} {relation : Relation}

/-- Properties have no part in the key. -/
theorem Turn.put {loses : Prop} (draft : Draft) (property : String) (indexed : Bool)
    (value : Value) : Turn loses draft (draft.put property indexed value) :=
  ⟨rfl, rfl, rfl, .kept rfl rfl⟩

theorem checkChild_reports {key : Key} :
    Reports (·.isRebuild = false) (draft.checkChild relation key) := by
  unfold checkChild
  split
  · exact reports_error rfl
  · exact reports_ok _

theorem presentKey_reports {child : Reference} :
    Reports (·.isRebuild = false) (draft.presentKey knownKey relation child) := by
  unfold presentKey
  split
  · exact reports_ok _
  · exact reports_bind checkChild_reports fun _ _ => reports_ok _

theorem presentKeys_reports {children : List Reference} :
    Reports (·.isRebuild = false) (draft.presentKeys knownKey relation children) := by
  induction children with
  | nil => exact reports_ok _
  | cons child rest ih =>
      exact reports_bind presentKey_reports fun _ _ => reports_bind ih fun _ _ => reports_ok _

theorem presentValue_reports {className : String} {field : Field} {value : FieldValue} :
    Reports (·.isRebuild = false)
      (draft.presentValue knownKey className field relation value) := by
  unfold presentValue
  split
  · exact reports_bind Field.refuseNull_reports fun _ _ => reports_ok _
  · split
    · exact reports_bind presentKey_reports fun _ _ => reports_ok _
    · exact reports_error rfl
  · split
    · exact reports_error rfl
    · exact reports_bind presentKeys_reports fun _ _ => reports_ok _
  · exact reports_error rfl

end Draft

namespace Conversion

mutual

theorem storedItem_reports {field : Field} : (value : FieldValue) →
    Reports (·.isRebuild = false) (storedItem field value)
  | .null => reports_ok _
  | .bool _ => reports_ok _
  | .int _ => reports_ok _
  | .float _ => reports_ok _
  | .text _ => reports_ok _
  | .bytes _ => reports_ok _
  | .dateTime _ => reports_ok _
  | .key _ => reports_ok _
  | .tracked inner => by
      rw [storedItem]
      exact storedItem_reports inner
  | .list items => by
      rw [storedItem]
      exact reports_bind (storedItems_reports items) fun _ _ => reports_ok _
  | .object _ => reports_error rfl
  | .embedded _ => reports_error rfl

theorem storedItems_reports {field : Field} : (items : List FieldValue) →
    Reports (·.isRebuild = false) (storedItems field items)
  | [] => reports_ok _
  | item :: rest => by
      rw [storedItems]
      exact reports_bind (storedItem_reports item) fun _ _ =>
        reports_bind (storedItems_reports rest) fun _ _ => reports_ok _

end

theorem stored_reports {conversion : Conversion} {field : Field} {value : FieldValue} :
    Reports (·.isRebuild = false) (conversion.stored field value) := by
  unfold stored
  split
  · exact reports_ok _
  · exact storedItem_reports _

end Conversion

namespace Mapper

variable {mapper : Mapper} {knownKey : Reference → Option Key} {draft : Draft} {loses : Prop}
  {reported : MappingError → Prop}

theorem embeddedValues_reports {field : Field} {schema : Schema} {value : FieldValue} :
    Reports (·.isRebuild = false) (embeddedValues field schema value) := by
  unfold embeddedValues
  split
  · exact reports_ok _
  · split
    · exact reports_error rfl
    · exact reports_ok _
  · exact reports_error rfl

theorem storedValue_reports (packing : ∀ error, mapper.PackingFails error → reported error)
    {field : Field} {value : FieldValue} :
    Reports (Draft.RebuildOnly reported draft) (mapper.storedValue field value) := by
  unfold storedValue
  split
  · unfold Conversion.packed
    split
    · exact reports_ok _
    · apply reports_bind
      · intro error failed _ _
        exact packing error ⟨_, _, failed⟩
      · exact fun _ _ => reports_ok _
  · exact Conversion.stored_reports.spared

theorem noteRelation_keeps {embedding : Option (Embedding Field)} {position : Nat} {field : Field}
    {relation : Relation} {value : FieldValue} :
    (mapper.noteRelation knownKey embedding position field relation value).Keeps
      (Draft.keyLaw loses reported) draft := by
  unfold noteRelation
  apply keeps_bind (keeps_modify (Draft.Turn.withPending draft _))
  intro _ noted _
  apply keeps_get_bind
  split
  · apply keeps_outcome_bind Draft.presentValue_reports.spared
    intro stored _
    exact keeps_set (Draft.Turn.put _ _ _ _)
  · exact keeps_pure ()

theorem storeLeaf_keeps (packing : ∀ error, mapper.PackingFails error → reported error)
    {embedding : Option (Embedding Field)} {position : Nat} {field : Field} {value : FieldValue} :
    (mapper.storeLeaf knownKey embedding position field value).Keeps
      (Draft.keyLaw loses reported) draft := by
  unfold storeLeaf
  split
  · exact noteRelation_keeps
  · apply keeps_get_bind
    apply keeps_outcome_bind Field.refuseNull_reports.spared
    intro _ _
    apply keeps_outcome_bind (storedValue_reports packing)
    intro stored _
    exact keeps_set (Draft.Turn.put _ _ _ _)

mutual

theorem storeField_keeps (packing : ∀ error, mapper.PackingFails error → reported error)
    {embedding : Option (Embedding Field)} {position : Nat} :
    (field : Field) → (value : FieldValue) → (draft : Draft) →
      (mapper.storeField knownKey embedding position field value).Keeps
        (Draft.keyLaw loses reported) draft
  | ⟨attributes, none⟩, value, draft => by
      rw [storeField]
      apply keeps_get_bind
      split
      · exact storeLeaf_keeps packing
      · exact keeps_pure ()
  | ⟨attributes, some ⟨⟨name, kind, inheritance, isEmbeddable, fields⟩, overrides⟩⟩, value,
      draft => by
      rw [storeField]
      apply keeps_get_bind
      split
      · apply keeps_outcome_bind embeddedValues_reports.spared
        intro values _
        exact storeFields_keeps packing fields values draft
      · exact keeps_pure ()

theorem storeFields_keeps (packing : ∀ error, mapper.PackingFails error → reported error)
    {embedding : Option (Embedding Field)} {position : Nat} :
    (fields : List Field) → (values : List FieldValue) → (draft : Draft) →
      (mapper.storeFields knownKey embedding position fields values).Keeps
        (Draft.keyLaw loses reported) draft
  | [], _, _ => keeps_pure ()
  | field :: rest, values, draft => by
      rw [storeFields]
      apply keeps_bind (storeField_keeps packing field _ draft)
      intro _ next _
      exact storeFields_keeps packing rest _ next

end

end Mapper

/-! ## Fields of the class -/

/-- The drafts that lose their identifier when the field at a position is filled. -/
def Draft.LosesKeyAt (draft : Draft) (position : Nat) (value : FieldValue) : Prop :=
  ∃ field, draft.schema.field position = .ok field ∧ field.role = .parentKey ∧
    draft.LosesKeyTo field value

namespace Mapper

variable {mapper : Mapper} {knownKey : Reference → Option Key} {draft : Draft}
  {reported : MappingError → Prop} {provide : Nat → Outcome FieldValue}

/-- Which rule the value of a field is stored by. -/
theorem fillField_eq {position : Nat} {value : FieldValue} {field : Field}
    (found : draft.schema.field position = .ok field) :
    mapper.fillField knownKey position value draft =
      (match field.role with
      | .primaryKey => Attempt.update fun draft => draft.setPrimaryKey field value
      | .parentKey => Attempt.update fun draft => draft.setParentField field value
      | .primaryKeyName => Attempt.update fun draft => draft.setIdentifier field value
      | .primaryKeyId => Attempt.update fun draft => draft.setIdentifier field value
      | _ => mapper.storeField knownKey none position field value : Attempt Draft Unit) draft := by
  have asked : (liftM (draft.schema.field position) : Attempt Draft Field) draft =
      .ok field draft := by
    rw [found]
    rfl
  unfold fillField
  exact (get_bind _).trans (bind_of_ok asked)

/-- **One field turns the key once.** -/
theorem fillField_keeps (packing : ∀ error, mapper.PackingFails error → reported error)
    {position : Nat} {value : FieldValue} :
    (mapper.fillField knownKey position value).Keeps
      (Draft.keyLaw (draft.LosesKeyAt position value) reported) draft := by
  unfold fillField
  apply keeps_get_bind
  apply keeps_outcome_bind ClassSchema.field_reports.spared
  intro field found
  split
  case h_1 => exact keeps_update Draft.setPrimaryKey_governs
  case h_2 role =>
    apply keeps_update
    exact Draft.governs_mono Draft.setParentField_governs fun lost => ⟨field, found, role, lost⟩
  case h_3 => exact keeps_update Draft.setIdentifier_governs
  case h_4 => exact keeps_update Draft.setIdentifier_governs
  case h_5 => exact storeField_keeps packing field value draft

/-- The converse: where the identifier is lost, the key is left incomplete. -/
theorem fillField_of_losesKey (mapper : Mapper) (knownKey : Reference → Option Key)
    {position : Nat} {value : FieldValue} (sound : draft.IsSound)
    (lost : draft.LosesKeyAt position value) :
    ∃ after, mapper.fillField knownKey position value draft = .ok () after ∧
      after.key.isComplete = false := by
  obtain ⟨field, found, role, lostTo⟩ := lost
  obtain ⟨after, filled, incomplete⟩ := Draft.setParentField_of_losesKey sound lostTo
  refine ⟨after, ?_, incomplete⟩
  rw [fillField_eq found, role]
  exact update_eq_ok_iff.mpr filled

/-- Whether some field loses the identifier when several fields are filled in order: those before
it are filled, and then it is given a value that takes the identifier away. -/
def LosesKeyAmong (mapper : Mapper) (knownKey : Reference → Option Key)
    (provide : Nat → Outcome FieldValue) (positions : List Nat) (draft : Draft) : Prop :=
  ∃ earlier position later value filled, positions = earlier ++ position :: later ∧
    mapper.fillFields knownKey provide earlier draft = .ok () filled ∧
    provide position = .ok value ∧ filled.LosesKeyAt position value

theorem fillFields_cons_of_ok {position : Nat} {positions : List Nat} {value : FieldValue}
    {filled : Draft} (provided : provide position = .ok value)
    (done : mapper.fillField knownKey position value draft = .ok () filled) :
    mapper.fillFields knownKey provide (position :: positions) draft =
      mapper.fillFields knownKey provide positions filled := by
  have step : (do
      let value ← (liftM (provide position) : Attempt Draft FieldValue)
      mapper.fillField knownKey position value) draft = .ok () filled := by
    rw [provided]
    exact done
  exact bind_of_ok step

theorem losesKeyAmong_cons {position : Nat} {positions : List Nat} {value : FieldValue}
    {filled : Draft} (provided : provide position = .ok value)
    (done : mapper.fillField knownKey position value draft = .ok () filled)
    (lost : mapper.LosesKeyAmong knownKey provide positions filled) :
    mapper.LosesKeyAmong knownKey provide (position :: positions) draft := by
  obtain ⟨earlier, at', later, given, reached, rfl, before, providedAt, lostAt⟩ := lost
  refine ⟨position :: earlier, at', later, given, reached, rfl, ?_, providedAt, lostAt⟩
  rw [fillFields_cons_of_ok provided done]
  exact before

/-- **Several fields turn the key once.** The induction is on the fields; each turn is one of the
whole, because a field that loses the identifier is one of those that are filled. -/
theorem fillFields_keeps {positions : List Nat}
    (packing : ∀ error, mapper.PackingFails error → reported error)
    (providing : ∀ position error, provide position = .error error → reported error) :
    (mapper.fillFields knownKey provide positions).Keeps
      (Draft.keyLaw (mapper.LosesKeyAmong knownKey provide positions draft) reported) draft := by
  induction positions generalizing draft with
  | nil => exact keeps_pure ()
  | cons position rest ih =>
      apply keeps_bind
      · apply keeps_outcome_bind
        · exact fun error failed _ _ => providing position error failed
        · intro value provided
          apply (fillField_keeps packing).mono
          intro lost
          exact ⟨[], position, rest, value, draft, rfl, rfl, provided, lost⟩
      · intro _ filled done
        obtain ⟨value, middle, asked, filledField⟩ := Gives.bind done
        obtain ⟨provided, rfl⟩ := asked.lift
        exact ih.mono fun lost => losesKeyAmong_cons provided filledField lost

end Mapper

end RecordMapping
