/-!
# Declared types and roles of fields

The declared type says which values a field was made for; the role says what part the field plays
when a record is built from its object.
-/

namespace RecordMapping

/-- The declared type of a field. -/
inductive DeclaredType where
  | long
  | integer
  | double
  | boolean
  | string
  | key
  | bytes
  | dateTime
  | list
  /-- A reference to an object of the named class. -/
  | object (className : String)
deriving DecidableEq, Repr

/-- The type as it is written in messages; a reference is written as its class. -/
def DeclaredType.display : DeclaredType → String
  | .long => "Long"
  | .integer => "Integer"
  | .double => "Double"
  | .boolean => "Boolean"
  | .string => "String"
  | .key => "Key"
  | .bytes => "Bytes"
  | .dateTime => "DateTime"
  | .list => "List"
  | .object className => className

/-- The part that a field plays in building a record. -/
inductive Role where
  /-- The whole key, or the one identifier of the entity. -/
  | primaryKey
  /-- The key of the parent. -/
  | parentKey
  /-- The name within the primary key, whose kind is that of the class. -/
  | primaryKeyName
  /-- The number within the primary key, whose kind is that of the class. -/
  | primaryKeyId
  /-- A property of the record. -/
  | regular
  /-- A property that holds the keys of other entities. -/
  | relation
deriving DecidableEq, Repr

/-- The role as it is written in messages. -/
def Role.display : Role → String
  | .primaryKey => "PrimaryKey"
  | .parentKey => "ParentKey"
  | .primaryKeyName => "PrimaryKeyName"
  | .primaryKeyId => "PrimaryKeyId"
  | .regular => "Regular"
  | .relation => "Relation"

end RecordMapping
