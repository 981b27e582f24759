import RecordMapping.Error
import RecordMapping.Schema.Relation
import RecordMapping.Value.Field

/-!
# Descriptions of fields

`Field` says how the values of one field of a class are stored. A field may hold an embedded
object, whose class is described in full, so that descriptions are trees; `Embedding` names the
properties of the embedded fields that this owner calls differently.

* `Field.role` is the part that a field plays in building a record.
* `Field.keyForm` is the form in which a field of the key holds a key.
* `Field.refuseNull` applies the two rules that forbid null.
-/

namespace RecordMapping

/-- What a field makes of null. -/
inductive NullPolicy where
  | accept
  | refuse
  /-- A default may take the place of null, which is accepted here. -/
  | default
deriving DecidableEq, Repr

/-- The column that a field is stored in. -/
structure Column where
  name : Option String := none
  allowsNull : Option Bool := none
deriving DecidableEq, Repr

/-- Which tables hold the objects of a class with subclasses. -/
inductive Inheritance where
  | newTable
  | superclassTable
  | subclassTable
  | completeTable
deriving DecidableEq, Repr

/-- Whether a relation may refer to an object of a subclass of its declared class. -/
def Inheritance.supportsPolymorphism : Inheritance → Bool
  | .newTable => true
  | .superclassTable => true
  | _ => false

/-- What is said of a field itself, apart from an embedded object in it. -/
structure FieldAttributes where
  name : String
  type : DeclaredType
  isPrimaryKey : Bool := false
  isParentKey : Bool := false
  isKeyName : Bool := false
  isKeyId : Bool := false
  /-- A text that holds a whole key as its token. -/
  isEncodedKey : Bool := false
  nullPolicy : NullPolicy := .accept
  column : Option Column := none
  /-- The value is stored whole, as bytes. -/
  isPacked : Bool := false
  /-- Text in the field is kept out of the index. -/
  isLargeText : Bool := false
  isIndexed : Bool := true
  isInsertable : Bool := true
  isUpdateable : Bool := true
  relation : Option Relation := none
deriving DecidableEq, Repr

/-- The accepted description of a class whose fields are described by `φ`. -/
structure ClassSchema (φ : Type) where
  name : String
  kind : String
  inheritance : Inheritance
  /-- Objects of the class may occur in fields of others only, and need no key. -/
  isEmbeddable : Bool
  fields : List φ

/-- An embedded object: its class, and the properties of its fields that are named here. -/
structure Embedding (φ : Type) where
  schema : ClassSchema φ
  /-- Pairs of a field's name and its property. -/
  overrides : List (String × String)

/-- The description of a field. -/
structure Field extends FieldAttributes where
  embedding : Option (Embedding Field) := none

/-- The accepted description of a class. -/
abbrev Schema := ClassSchema Field

/-- The property that an embedding names for a field of its class; the last pair counts. -/
def Embedding.override? {φ : Type} (embedding : Embedding φ) (fieldName : String) :
    Option String :=
  (embedding.overrides.reverse.find? fun pair => pair.1 = fieldName).map Prod.snd

/-- The form in which a field of the key holds a key. -/
inductive KeyForm where
  /-- The number of the entity itself. -/
  | id
  /-- A whole key. -/
  | key
  /-- A whole key as its token. -/
  | token
  /-- The name of the entity itself. -/
  | name
deriving DecidableEq, Repr

namespace Field

/-- The field with its null values refused. -/
def refusingNull (field : Field) : Field :=
  { field with nullPolicy := .refuse }

/-- The field with a setting of its column changed. -/
def modifyColumn (field : Field) (change : Column → Column) : Field :=
  { field with column := some (change (field.column.getD {})) }

/-- The field with a column that forbids null. -/
def inNonNullColumn (field : Field) : Field :=
  field.modifyColumn fun column => { column with allowsNull := some false }

/-- The field with a column of the given name. -/
def inColumn (field : Field) (name : String) : Field :=
  field.modifyColumn fun column => { column with name := some name }

/-- The field's name with that of its class. -/
def qualifiedName (field : Field) (className : String) : String :=
  className ++ "." ++ field.name

/-- The parts of the key that the field is said to be. -/
def keyFlags (field : Field) : List Bool :=
  [field.isPrimaryKey, field.isParentKey, field.isKeyName, field.isKeyId]

/-- Whether the field is said to be a part of the key. -/
def isInKey (field : Field) : Bool :=
  field.keyFlags.any id

/-- The part that the field plays in building a record. -/
def role (field : Field) : Role :=
  if field.isPrimaryKey then .primaryKey
  else if field.isParentKey then .parentKey
  else if field.isKeyName then .primaryKeyName
  else if field.isKeyId then .primaryKeyId
  else if field.relation.isSome then .relation
  else .regular

/-- The property of the field unless something else names it: that of its column, or its own
name. -/
def columnName (field : Field) : String :=
  (field.column.bind Column.name).getD field.name

/-- The error for a value that does not fit the field. -/
def unsupported (field : Field) (fault : TypeFault) : MappingError :=
  .unsupportedFieldType field.name fault

/-- The form in which the field holds a key, if its type fits its role. -/
def keyForm (field : Field) : Outcome KeyForm :=
  match field.role, field.type with
  | .primaryKey, .long => .ok .id
  | .primaryKey, .key => .ok .key
  | .primaryKey, .string => .ok (if field.isEncodedKey then .token else .name)
  | .parentKey, .key => .ok .key
  | .parentKey, .string => .ok .token
  | .primaryKeyName, .string => .ok .name
  | .primaryKeyId, .long => .ok .id
  | role, type => .error (field.unsupported (.roleMismatch role type))

/-- The rule that forbids null in the field; the field's own comes before the column's. -/
def nullBan? (field : Field) : Option NullBan :=
  if field.nullPolicy = .refuse then some .field
  else if field.column.bind Column.allowsNull = some false then some .column
  else none

/-- Refuses null where a rule of the field forbids it. -/
def refuseNull (field : Field) (className : String) (value : FieldValue) : Outcome Unit :=
  if value.bare.isNull then
    match field.nullBan? with
    | some rule => .error (.mandatoryFieldNull (field.qualifiedName className) rule)
    | none => .ok ()
  else .ok ()

end Field

end RecordMapping
