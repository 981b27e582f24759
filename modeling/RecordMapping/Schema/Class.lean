import RecordMapping.Key.Build
import RecordMapping.Schema.Field

/-!
# Descriptions of classes

`ClassDescription.build` accepts a description when its kind can be the kind of a key, no field
plays several parts in the key, no relation is part of the key, there is at most one primary key
and one parent key, and a class of its own has a primary key. Of several faults the one met first
counts, the fields being looked at in order.
-/

namespace RecordMapping

/-- The description of a class as it is given. -/
structure ClassDescription where
  name : String
  /-- The kind of the class's records, which is its name if none is given. -/
  kind : Option String := none
  inheritance : Inheritance := .newTable
  isEmbeddable : Bool := false
  fields : List Field := []

/-- Refuses a field whose part in the key is ambiguous. -/
def Field.checkKeyFlags (field : Field) (className : String) : Except SchemaFault Unit :=
  if 1 < field.keyFlags.count true then .error (.severalKeyRoles (field.qualifiedName className))
  else if field.relation.isSome ∧ field.isInKey then
    .error (.relationInKey (field.qualifiedName className))
  else .ok ()

namespace ClassDescription

/-- Checks fields in order, given whether a primary key and a parent key have been met. Tells
whether there is a primary key. -/
def checkFields (className : String) :
    (hasPrimary hasParent : Bool) → List Field → Except SchemaFault Bool
  | hasPrimary, _, [] => .ok hasPrimary
  | hasPrimary, hasParent, field :: rest => do
      field.checkKeyFlags className
      match field.role with
      | .primaryKey =>
          if hasPrimary then .error (.severalPrimaryKeys className)
          else checkFields className true hasParent rest
      | .parentKey =>
          if hasParent then .error (.severalParentKeys className)
          else checkFields className hasPrimary true rest
      | _ => checkFields className hasPrimary hasParent rest

/-- The kind of the class's records. -/
def effectiveKind (description : ClassDescription) : String :=
  description.kind.getD description.name

/-- Refuses a description that is not consistent. -/
def check (description : ClassDescription) : Except SchemaFault Unit := do
  (Kind.check description.effectiveKind).mapError .invalidKind
  let hasPrimary ← checkFields description.name false false description.fields
  if !hasPrimary && !description.isEmbeddable then .error (.noPrimaryKey description.name)

/-- The class that a consistent description describes. -/
def build (description : ClassDescription) : Outcome Schema := do
  description.check.mapError .invalidMetadata
  return {
    name := description.name
    kind := description.effectiveKind
    inheritance := description.inheritance
    isEmbeddable := description.isEmbeddable
    fields := description.fields }

end ClassDescription

namespace ClassSchema

/-- The field at a position. -/
def field (schema : Schema) (position : Nat) : Outcome Field :=
  match schema.fields[position]? with
  | some field => .ok field
  | none => .error (.invalidMetadata (.noFieldAt schema.name position))

/-- The first field of the given name. -/
def fieldNamed? (schema : Schema) (name : String) : Option Field :=
  schema.fields.find? fun field => field.name = name

/-- The first position of a field of the given name. -/
def positionNamed? (schema : Schema) (name : String) : Option Nat :=
  schema.fields.findIdx? fun field => field.name = name

/-- The positions of the fields that play the given part, in order. -/
def positionsOf (schema : Schema) (role : Role) : List Nat :=
  (List.range schema.fields.length).filter fun position =>
    (schema.fields[position]?).any fun field => field.role = role

/-- The position of the first field that plays the given part. -/
def positionOf? (schema : Schema) (role : Role) : Option Nat :=
  schema.fields.findIdx? fun field => field.role = role

/-- The field that is the primary key, if there is one. -/
def primaryKey? (schema : Schema) : Option Field :=
  schema.fields.find? fun field => field.role = .primaryKey

/-- The field that holds the parent's key, if there is one. -/
def parentKey? (schema : Schema) : Option Field :=
  schema.fields.find? fun field => field.role = .parentKey

/-- All positions of fields. -/
def positions (schema : Schema) : List Nat :=
  List.range schema.fields.length

end ClassSchema

/-- Described classes, at most one of each name. -/
structure Catalog where
  schemas : List Schema := []

namespace Catalog

/-- The class of the given name. -/
def find? (catalog : Catalog) (name : String) : Option Schema :=
  catalog.schemas.find? fun schema => schema.name = name

/-- Adds a class, in the place of one of the same name. -/
def register (catalog : Catalog) (schema : Schema) : Catalog :=
  ⟨schema :: catalog.schemas.filter fun other => other.name ≠ schema.name⟩

/-- The count of classes. -/
def size (catalog : Catalog) : Nat :=
  catalog.schemas.length

end Catalog

end RecordMapping
