import RecordMapping.Key.Basic
import RecordMapping.Number.Binary64
import RecordMapping.Object.Reference
import RecordMapping.Time.Timestamp

/-!
# Field values

`FieldValue` is what a field of an object can hold. A value may sit in any number of wrappers that
track changes; `FieldValue.bare` takes the outer ones off.
-/

namespace RecordMapping

/-- The value of a field of an object. -/
inductive FieldValue where
  | null
  | bool (value : Bool)
  | int (value : Int64)
  | float (value : Binary64)
  | text (value : String)
  | bytes (value : List UInt8)
  | dateTime (value : Timestamp)
  | key (value : Key)
  /-- A value whose changes are tracked. -/
  | tracked (inner : FieldValue)
  | list (items : List FieldValue)
  | object (value : Reference)
  /-- The fields of an embedded object, in the order of its class. -/
  | embedded (values : List FieldValue)

namespace FieldValue

/-- Whether the value is null and not in a wrapper. -/
def isNull : FieldValue → Bool
  | .null => true
  | _ => false

/-- The value inside the outer wrappers. -/
def bare : FieldValue → FieldValue
  | .tracked inner => inner.bare
  | value => value

/-- The object that the value refers to, under any wrappers. -/
def object? (value : FieldValue) : Option Reference :=
  match value.bare with
  | .object target => some target
  | _ => none

/-- The objects that the value of a relation refers to: itself, or the items of a list that are
objects. -/
def referents (value : FieldValue) : List Reference :=
  match value.bare with
  | .object target => [target]
  | .list items => items.filterMap object?
  | _ => []

/-- The name of the type of the value inside the wrappers. -/
def typeLabel : FieldValue → String
  | .null => "null"
  | .bool _ => "bool"
  | .int _ => "int"
  | .float _ => "float"
  | .text _ => "text"
  | .bytes _ => "bytes"
  | .dateTime _ => "datetime"
  | .key _ => "key"
  | .tracked inner => inner.typeLabel
  | .list _ => "list"
  | .object _ => "object"
  | .embedded _ => "embedded"

mutual

/-- Whether two values are equal; floats are compared as numbers, so that one that is not a number
differs from itself. -/
def same : FieldValue → FieldValue → Bool
  | .null, .null => true
  | .bool a, .bool b => a == b
  | .int a, .int b => a == b
  | .float a, .float b => a.ieeeEq b
  | .text a, .text b => a == b
  | .bytes a, .bytes b => a == b
  | .dateTime a, .dateTime b => a == b
  | .key a, .key b => a == b
  | .tracked a, .tracked b => same a b
  | .list a, .list b => sameItems a b
  | .object a, .object b => a == b
  | .embedded a, .embedded b => sameItems a b
  | _, _ => false

/-- Whether two lists have equal values in the same order. -/
def sameItems : List FieldValue → List FieldValue → Bool
  | [], [] => true
  | a :: as, b :: bs => same a b && sameItems as bs
  | _, _ => false

end

instance : BEq FieldValue := ⟨same⟩

instance : Inhabited FieldValue := ⟨.null⟩

end FieldValue

end RecordMapping
