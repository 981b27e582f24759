import RecordMapping.Mapper.Conversion
import RecordMapping.Schema.Class
import RecordMapping.Settings.Basic

/-!
# Mappers

A mapper holds what all mappings share: the settings, the classes, the names of properties and the
conversion of values.
-/

namespace RecordMapping

/-- What all mappings share. -/
structure Mapper where
  settings : Settings
  /-- The class of a name. -/
  schema? : String → Option Schema
  conversion : Conversion := { textLimit := settings.textLimit }
  /-- The property of a field that no embedding names otherwise. -/
  propertyOf : Field → String := Field.columnName

namespace Mapper

/-- A mapper with the given settings, once they are checked. -/
def new (settings : Settings) (schema? : String → Option Schema) : Outcome Mapper := do
  settings.check
  return { settings, schema? }

/-- The mapper with another way of packing values. -/
def packingWith (mapper : Mapper)
    (pack : Field → FieldValue → Outcome (List UInt8)) : Mapper :=
  { mapper with conversion := { mapper.conversion with pack } }

/-- The mapper with other names of properties. -/
def naming (mapper : Mapper) (propertyOf : Field → String) : Mapper :=
  { mapper with propertyOf }

/-- The class of a name. -/
def schema (mapper : Mapper) (className : String) : Outcome Schema :=
  match mapper.schema? className with
  | some schema => .ok schema
  | none => .error (.unknownClass className)

/-- Whether the keys of the objects of a relation are kept out of the record: the objects are
owned, and either this generation of records does not hold such keys or the other side does. -/
def skips (mapper : Mapper) (relation : Relation) : Bool :=
  relation.owned && (!mapper.settings.keepsChildKeys || relation.isStoredElsewhere)

end Mapper

end RecordMapping
