import RecordMapping.Key.Build
import RecordMapping.Value.Storage

/-!
# Records

A record is the stored form of one object: its key, and its properties in the order in which their
names were first set. The kind of a record is that of its key and never changes.
-/

namespace RecordMapping

/-- A named value of a record. -/
structure Property where
  name : String
  value : Value
  /-- Whether the value can be searched for. -/
  indexed : Bool

/-- The stored form of one object. -/
structure Record where
  key : Key
  properties : List Property

namespace Property

/-- Whether two properties have the same name, value and place in the index. -/
def same (a b : Property) : Bool :=
  a.name == b.name && a.value == b.value && a.indexed == b.indexed

instance : BEq Property := ⟨same⟩

/-- Sets the value of the property with the given name, which is added at the end if it is not
there yet. -/
def put (property : Property) : List Property → List Property
  | [] => [property]
  | first :: rest =>
      if first.name = property.name then property :: rest else first :: put property rest

/-- Removes the first property of the given name. -/
def erase (name : String) : List Property → List Property
  | [] => []
  | first :: rest => if first.name = name then rest else first :: erase name rest

end Property

namespace Record

/-- A record without properties. -/
def ofKey (key : Key) : Record :=
  ⟨key, []⟩

/-- A record without properties whose key is yet to be assigned. -/
def ofKind (kind : String) : Outcome Record := do
  let key ← (Key.incomplete kind none).mapError .invalidKey
  return ofKey key

def kind (record : Record) : String :=
  record.key.kind

def parent? (record : Record) : Option Key :=
  record.key.parent?

/-- The same properties under another key of the same kind. -/
def rekey (record : Record) (key : Key) : Outcome Record :=
  if key.kind = record.kind then .ok { record with key }
  else .error (.kindMismatch record.kind key.kind)

/-- Sets a property. Long texts and bytes are never indexed. -/
def put (record : Record) (name : String) (value : Value) (indexed : Bool) : Record :=
  let property : Property := ⟨name, value, indexed && !value.isUnindexable⟩
  { record with properties := property.put record.properties }

/-- Removes a property. -/
def erase (record : Record) (name : String) : Record :=
  { record with properties := Property.erase name record.properties }

/-- The value of a property. -/
def get? (record : Record) (name : String) : Option Value :=
  (record.properties.find? fun property => property.name = name).map Property.value

/-- Removes a property, and gives the value that it had. -/
def take (record : Record) (name : String) : Option Value × Record :=
  (record.get? name, record.erase name)

/-- Whether there is a property of the given name. -/
def has (record : Record) (name : String) : Bool :=
  record.properties.any fun property => property.name = name

/-- Whether there is a property of the given name that is not indexed. -/
def lacksIndex (record : Record) (name : String) : Bool :=
  record.properties.any fun property => property.name = name && !property.indexed

/-- The count of properties. -/
def size (record : Record) : Nat :=
  record.properties.length

def isEmpty (record : Record) : Bool :=
  record.properties.isEmpty

/-- Whether two records have the same key and the same properties in the same order. -/
def same (a b : Record) : Bool :=
  a.key == b.key && a.properties == b.properties

instance : BEq Record := ⟨same⟩

end Record

end RecordMapping
