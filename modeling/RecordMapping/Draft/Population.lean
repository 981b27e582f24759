import RecordMapping.Attempt
import RecordMapping.Draft.Key

/-!
# Filling a draft with the values of fields

The value of each field goes into the record by the field's role: parts of the key to the rules for
keys, other values to properties. The fields of an embedded object become properties of the same
record, whatever parts of a key they are said to be. Relations are noted for later; where a new
record can already know the keys of the related objects, they are written at once.
-/

namespace RecordMapping

/-- Whether an operation writes the field. -/
def Field.isWrittenBy (field : Field) : Operation → Bool
  | .insert => field.isInsertable
  | .update => field.isUpdateable

namespace Draft

/-- Refuses an owned object whose key does not lie right below the key of the record. -/
def checkChild (draft : Draft) (relation : Relation) (key : Key) : Outcome Unit :=
  if relation.owned ∧ key.parent? ≠ some draft.key then
    .error (.ownedChildReparenting key draft.key)
  else .ok ()

/-- The key of a related object that has one already. -/
def presentKey (draft : Draft) (knownKey : Reference → Option Key) (relation : Relation)
    (child : Reference) : Outcome (Option Key) :=
  match knownKey child with
  | none => .ok none
  | some key => do
      draft.checkChild relation key
      return some key

/-- The keys of the related objects that have one already, in order. -/
def presentKeys (draft : Draft) (knownKey : Reference → Option Key) (relation : Relation) :
    List Reference → Outcome (List Key)
  | [] => .ok []
  | child :: rest => do
      let key ← draft.presentKey knownKey relation child
      let keys ← presentKeys draft knownKey relation rest
      return key.toList ++ keys

/-- What can be stored of a relation before the record has its key. -/
def presentValue (draft : Draft) (knownKey : Reference → Option Key) (className : String)
    (field : Field) (relation : Relation) (value : FieldValue) : Outcome Value :=
  match value.bare with
  | .null => do
      field.refuseNull className .null
      return .null
  | .object child =>
      if relation.isSingle then do
        return ((← draft.presentKey knownKey relation child).map Value.key).getD .null
      else .error (field.unsupported (.notRelated "object"))
  | .list items =>
      if relation.isSingle then .error (field.unsupported (.notRelated "list"))
      else do
        return Value.ofKeys
          (← draft.presentKeys knownKey relation (items.filterMap FieldValue.object?))
  | other => .error (field.unsupported (.notRelated other.typeLabel))

/-- The name of the class whose field is being stored. -/
def classNameIn (draft : Draft) (embedding : Option (Embedding Field)) : String :=
  (embedding.map fun embedding => embedding.schema.name).getD draft.schema.name

/-- The draft with a property set. -/
def put (draft : Draft) (property : String) (indexed : Bool) (value : Value) : Draft :=
  { draft with record := draft.record.put property value indexed }

end Draft

namespace Mapper

/-- The property of a field, within an embedded object or not. -/
def propertyIn (mapper : Mapper) (embedding : Option (Embedding Field)) (field : Field) :
    String :=
  (embedding.bind fun embedding => embedding.override? field.name).getD
    (mapper.propertyOf field)

/-- The values of an embedded object, none for null. -/
def embeddedValues (field : Field) (schema : Schema) (value : FieldValue) :
    Outcome (List FieldValue) :=
  match value.bare with
  | .null => .ok []
  | .embedded values =>
      if schema.fields.length < values.length then
        .error (field.unsupported
          (.tooManyEmbedded schema.name schema.fields.length values.length))
      else .ok values
  | other => .error (field.unsupported (.notEmbedded other.typeLabel))

/-- Whether the keys that related objects have already are stored when a relation is noted. The
keys of an array are stored once the record has its own. -/
def storesAtOnce (mapper : Mapper) (operation : Operation) (relation : Relation) : Bool :=
  !mapper.skips relation && operation = .insert && !relation.isArray

variable (mapper : Mapper) (knownKey : Reference → Option Key)

/-- Notes a relation for later, and stores what is known of it. -/
def noteRelation (embedding : Option (Embedding Field)) (position : Nat) (field : Field)
    (relation : Relation) (value : FieldValue) : Attempt Draft Unit := do
  let property := mapper.propertyIn embedding field
  let noted : Pending :=
    { field, relation, property, value,
      position := if embedding.isNone then some position else none }
  modify fun draft => { draft with pending := draft.pending ++ [noted] }
  let draft ← get
  if mapper.storesAtOnce draft.operation relation then
    let stored ←
      draft.presentValue knownKey (draft.classNameIn embedding) field relation value
    set (draft.put property field.isIndexed stored)

/-- The stored form of the value of a field that is neither a relation nor embedded. -/
def storedValue (field : Field) (value : FieldValue) : Outcome Value :=
  if field.isPacked then mapper.conversion.packed field value
  else mapper.conversion.stored field value

/-- Stores the value of a field without an embedded object. Packed values are never indexed, and
a relation that is packed is no relation. -/
def storeLeaf (embedding : Option (Embedding Field)) (position : Nat) (field : Field)
    (value : FieldValue) : Attempt Draft Unit := do
  match if field.isPacked then none else field.relation with
  | some relation => mapper.noteRelation knownKey embedding position field relation value
  | none =>
      let draft ← get
      field.refuseNull (draft.classNameIn embedding) value
      let stored ← mapper.storedValue field value
      set (draft.put (mapper.propertyIn embedding field)
        (field.isIndexed && !field.isPacked) stored)

mutual

/-- Stores the value of a field of the class, or of an embedded object within it. -/
def storeField (embedding : Option (Embedding Field)) (position : Nat) :
    Field → FieldValue → Attempt Draft Unit
  | ⟨attributes, none⟩, value => do
      let field : Field := ⟨attributes, none⟩
      if field.isWrittenBy (← get).operation then
        mapper.storeLeaf knownKey embedding position field value
  | ⟨attributes, some ⟨⟨name, kind, inheritance, isEmbeddable, fields⟩, overrides⟩⟩, value => do
      let inner : Embedding Field := ⟨⟨name, kind, inheritance, isEmbeddable, fields⟩, overrides⟩
      let field : Field := ⟨attributes, some inner⟩
      if field.isWrittenBy (← get).operation then
        let values ← embeddedValues field inner.schema value
        storeFields (some inner) 0 fields values

/-- Stores the values of the fields of an embedded object, null where there is no value. -/
def storeFields (embedding : Option (Embedding Field)) (position : Nat) :
    List Field → List FieldValue → Attempt Draft Unit
  | [], _ => pure ()
  | field :: rest, values => do
      storeField embedding position field (values.headD .null)
      storeFields embedding (position + 1) rest values.tail

end

/-- Stores the value of the field at a position of the class. -/
def fillField (position : Nat) (value : FieldValue) : Attempt Draft Unit := do
  let field ← (← get).schema.field position
  match field.role with
  | .primaryKey => Attempt.update fun draft => draft.setPrimaryKey field value
  | .parentKey => Attempt.update fun draft => draft.setParentField field value
  | .primaryKeyName => Attempt.update fun draft => draft.setIdentifier field value
  | .primaryKeyId => Attempt.update fun draft => draft.setIdentifier field value
  | _ => mapper.storeField knownKey none position field value

/-- Stores the values that are provided for fields of the class, in the order of the given
positions. -/
def fillFields (provide : Nat → Outcome FieldValue) (positions : List Nat) :
    Attempt Draft Unit :=
  Attempt.each positions fun position => do
    let value ← provide position
    mapper.fillField knownKey position value

end Mapper

end RecordMapping
