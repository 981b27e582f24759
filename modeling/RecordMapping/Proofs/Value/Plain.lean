import RecordMapping.Draft.Resolution
import RecordMapping.Proofs.Attempt

/-!
# Values without wrappers

`FieldValue.plain` takes the wrappers off a value at every depth. What a mapper reads of a value is the
same with and without them: its type, the objects that it refers to, the key or the part of a key that
it holds, and its stored form. Only packing sees the wrappers inside a value, but not the outer ones.
-/

namespace RecordMapping

namespace FieldValue

mutual

/-- The value without wrappers, at every depth. -/
def plain : FieldValue → FieldValue
  | .tracked inner => inner.plain
  | .list items => .list (plainItems items)
  | .embedded values => .embedded (plainItems values)
  | value => value

/-- The values of a list without wrappers. -/
def plainItems : List FieldValue → List FieldValue
  | [] => []
  | item :: rest => item.plain :: plainItems rest

end

theorem isNull_iff {value : FieldValue} : value.isNull = true ↔ value = .null := by
  cases value <;> simp [isNull]

theorem plainItems_eq_map (items : List FieldValue) : plainItems items = items.map plain := by
  induction items with
  | nil => rfl
  | cons item rest ih => rw [plainItems, ih, List.map_cons]

/-- Only what is in a list or an embedded object loses wrappers once the outer ones are off. -/
theorem plain_cases (value : FieldValue) :
    value.plain = value.bare ∨
      (∃ items, value.bare = .list items ∧ value.plain = .list (items.map plain)) ∨
      ∃ values, value.bare = .embedded values ∧ value.plain = .embedded (values.map plain) := by
  match value with
  | .tracked inner => exact inner.plain_cases
  | .list items => exact .inr (.inl ⟨items, rfl, by rw [plain, plainItems_eq_map]⟩)
  | .embedded values => exact .inr (.inr ⟨values, rfl, by rw [plain, plainItems_eq_map]⟩)
  | .null | .bool _ | .int _ | .float _ | .text _ | .bytes _ | .dateTime _ | .key _ | .object _ =>
      exact .inl rfl

theorem bare_bare (value : FieldValue) : value.bare.bare = value.bare := by
  match value with
  | .tracked inner => exact inner.bare_bare
  | .null | .bool _ | .int _ | .float _ | .text _ | .bytes _ | .dateTime _ | .key _ | .object _
  | .list _ | .embedded _ => rfl

theorem bare_plain (value : FieldValue) : value.plain.bare = value.plain := by
  rcases value.plain_cases with same | ⟨items, -, plain⟩ | ⟨values, -, plain⟩
  · rw [same, bare_bare]
  · rw [plain, bare]
    nofun
  · rw [plain, bare]
    nofun

theorem plain_bare (value : FieldValue) : value.bare.plain = value.plain := by
  match value with
  | .tracked inner => exact inner.plain_bare
  | .null | .bool _ | .int _ | .float _ | .text _ | .bytes _ | .dateTime _ | .key _ | .object _
  | .list _ | .embedded _ => rfl

theorem typeLabel_bare (value : FieldValue) : value.bare.typeLabel = value.typeLabel := by
  match value with
  | .tracked inner => exact inner.typeLabel_bare
  | .null | .bool _ | .int _ | .float _ | .text _ | .bytes _ | .dateTime _ | .key _ | .object _
  | .list _ | .embedded _ => rfl

theorem object?_plain (value : FieldValue) : value.plain.object? = value.object? := by
  unfold object?
  rw [bare_plain]
  rcases value.plain_cases with same | ⟨items, found, plain⟩ | ⟨values, found, plain⟩
  · rw [same]
  · rw [plain, found]
  · rw [plain, found]

theorem filterMap_object?_plain (items : List FieldValue) :
    (items.map plain).filterMap object? = items.filterMap object? := by
  have same : object? ∘ plain = object? := funext object?_plain
  rw [List.filterMap_map, same]

theorem referents_plain (value : FieldValue) : value.plain.referents = value.referents := by
  unfold referents
  rw [bare_plain]
  rcases value.plain_cases with same | ⟨items, found, plain⟩ | ⟨values, found, plain⟩
  · rw [same]
  · rw [plain, found]
    exact filterMap_object?_plain items
  · rw [plain, found]

theorem isNull_plain (value : FieldValue) : value.plain.bare.isNull = value.bare.isNull := by
  rw [bare_plain]
  rcases value.plain_cases with same | ⟨items, found, plain⟩ | ⟨values, found, plain⟩
  · rw [same]
  · rw [plain, found, isNull, isNull] <;> nofun
  · rw [plain, found, isNull, isNull] <;> nofun

end FieldValue

/-! ## What is read of a value -/

theorem Field.refuseNull_plain (field : Field) (className : String) (value : FieldValue) :
    field.refuseNull className value.plain = field.refuseNull className value := by
  rw [refuseNull, refuseNull, value.isNull_plain]

namespace Conversion

mutual

theorem storedItem_plain (field : Field) :
    (value : FieldValue) → storedItem field value.plain = storedItem field value
  | .tracked inner => by rw [FieldValue.plain, storedItem, storedItem_plain field inner]
  | .list items => by rw [FieldValue.plain, storedItem, storedItem, storedItems_plain field items]
  | .embedded values => by rw [FieldValue.plain, storedItem, storedItem]
  | .null | .bool _ | .int _ | .float _ | .text _ | .bytes _ | .dateTime _ | .key _ | .object _ => rfl

theorem storedItems_plain (field : Field) :
    (items : List FieldValue) →
      storedItems field (FieldValue.plainItems items) = storedItems field items
  | [] => rfl
  | item :: rest => by
      rw [FieldValue.plainItems, storedItems, storedItems, storedItem_plain field item,
        storedItems_plain field rest]

end

theorem stored_plain (conversion : Conversion) (field : Field) (value : FieldValue) :
    conversion.stored field value.plain = conversion.stored field value := by
  unfold stored
  rw [value.bare_plain]
  rcases value.plain_cases with same | ⟨items, found, plain⟩ | ⟨values, found, plain⟩
  · rw [same]
  · rw [plain, found, ← FieldValue.plainItems_eq_map]
    exact storedItem_plain field (.list items)
  · rw [plain, found]
    rfl

theorem packed_bare (conversion : Conversion) (field : Field) (value : FieldValue) :
    conversion.packed field value.bare = conversion.packed field value := by
  rw [packed, packed, value.bare_bare]

end Conversion

namespace Draft

theorem wholeKey_plain (field : Field) (value : FieldValue) :
    wholeKey field value.plain = wholeKey field value := by
  unfold wholeKey
  rw [value.bare_plain]
  rcases value.plain_cases with same | ⟨items, found, plain⟩ | ⟨values, found, plain⟩
  · rw [same]
  · rw [plain, found]
    rfl
  · rw [plain, found]
    rfl

theorem identifiedKey_plain (draft : Draft) (field : Field) (value : FieldValue) :
    draft.identifiedKey field value.plain = draft.identifiedKey field value := by
  unfold identifiedKey
  rw [value.bare_plain]
  rcases value.plain_cases with same | ⟨items, found, plain⟩ | ⟨values, found, plain⟩
  · rw [same]
  · rw [plain, found]
    rfl
  · rw [plain, found]
    rfl

theorem setPrimaryKey_plain (draft : Draft) (field : Field) (value : FieldValue) :
    draft.setPrimaryKey field value.plain = draft.setPrimaryKey field value := by
  simp only [setPrimaryKey, wholeKey_plain, identifiedKey_plain, value.isNull_plain]

theorem setIdentifier_plain (draft : Draft) (field : Field) (value : FieldValue) :
    draft.setIdentifier field value.plain = draft.setIdentifier field value := by
  simp only [setIdentifier, identifiedKey_plain]

theorem setParentField_plain (draft : Draft) (field : Field) (value : FieldValue) :
    draft.setParentField field value.plain = draft.setParentField field value := by
  simp only [setParentField, wholeKey_plain]

theorem presentValue_plain (draft : Draft) (knownKey : Reference → Option Key) (className : String)
    (field : Field) (relation : Relation) (value : FieldValue) :
    draft.presentValue knownKey className field relation value.plain =
      draft.presentValue knownKey className field relation value := by
  unfold presentValue
  rw [value.bare_plain]
  rcases value.plain_cases with same | ⟨items, found, plain⟩ | ⟨values, found, plain⟩
  · rw [same]
  · simp only [plain, found, FieldValue.filterMap_object?_plain]
  · rw [plain, found]
    rfl

theorem checkChildren_plain (draft : Draft) (knownKey : Reference → Option Key)
    (relation : Relation) (value : FieldValue) :
    draft.checkChildren knownKey relation value.plain =
      draft.checkChildren knownKey relation value := by
  rw [checkChildren, checkChildren, value.referents_plain]

theorem childKeys_plain {World : Type} (framework : Framework World) (draft : Draft)
    (pending : Pending) :
    childKeys framework draft { pending with value := pending.value.plain } =
      childKeys framework draft pending := by
  unfold childKeys relatedValue
  simp only [pending.value.bare_plain]
  rcases pending.value.plain_cases with same | ⟨items, found, plain⟩ | ⟨values, found, plain⟩
  · rw [same]
  · simp only [plain, found, FieldValue.filterMap_object?_plain]
  · rw [plain, found]
    rfl

end Draft

end RecordMapping
