import RecordMapping.Attempt
import RecordMapping.Mapper.Basic
import RecordMapping.Record

/-!
# Sessions

A session is a unit of work in memory: it holds objects with the values of their fields, the records
that were saved for them, and the next id to assign. It logs the calls that a mapper makes on it,
and its `Behaviour` can make these calls fail or do less than usual.
-/

namespace RecordMapping

/-- The state of an object in a session. -/
inductive Lifecycle where
  | transient
  | managed
  | detached
  /-- Managed and detached. -/
  | both
  | deleted
deriving DecidableEq, Repr

def Lifecycle.isManaged : Lifecycle → Bool
  | .managed => true
  | .both => true
  | _ => false

def Lifecycle.isDetached : Lifecycle → Bool
  | .detached => true
  | .both => true
  | _ => false

/-- An object of a session. -/
structure Resident where
  object : Reference
  state : Lifecycle
  fields : List FieldValue
  key : Option Key

/-- How a call that is made to fail does so. -/
inductive Failure where
  | notYetFlushed
  | internal
deriving DecidableEq, Repr

/-- The error of a failing call of the given name. -/
def Failure.error (failure : Failure) (call : String) : MappingError :=
  match failure with
  | .notYetFlushed => .notYetFlushed call
  | .internal => .internal (.other call)

/-- How a session answers to the calls of a mapper. -/
structure Behaviour where
  /-- The calls that fail. -/
  failures : List (String × Failure) := []
  /-- Whether the session has no answers of its own to references and callbacks. -/
  hasDefaultHooks : Bool := false
  /-- The objects that take the place of others when these are persisted. -/
  handles : List (Identity × Reference) := []
  /-- Whether flushing does nothing. -/
  skipsFlush : Bool := false
  /-- Whether persisting does nothing. -/
  skipsPersist : Bool := false
  /-- The values that relation fields of the given names write at once. -/
  references : List (String × Value) := []

/-- A unit of work in memory. -/
structure Session where
  mapper : Mapper
  /-- The objects, in the order of their identities. -/
  residents : List Resident := []
  records : List (Identity × Record) := []
  nextId : Int64 := 1
  log : List String := []
  behaviour : Behaviour := {}

namespace Resident

/-- Adds an object in the place that its identity gives, or instead of the one of the same
identity. -/
def insert (resident : Resident) : List Resident → List Resident
  | [] => [resident]
  | first :: rest =>
      if resident.object.id.bits < first.object.id.bits then resident :: first :: rest
      else if resident.object.id = first.object.id then resident :: rest
      else first :: insert resident rest

end Resident

namespace Session

/-- The object of the given identity. -/
def resident? (session : Session) (id : Identity) : Option Resident :=
  session.residents.find? fun resident => resident.object.id = id

/-- The object that a reference stands for. -/
def resident (session : Session) (object : Reference) : Outcome Resident :=
  match session.resident? object.id with
  | some resident => .ok resident
  | none => .error (.internal (.other ("unknown object " ++ object.display)))

/-- Changes an object, if it is there. -/
def modifyResident (session : Session) (id : Identity) (change : Resident → Resident) : Session :=
  { session with
    residents := session.residents.map fun resident =>
      if resident.object.id = id then change resident else resident }

/-- Adds an object, with null for the fields of its class that have no value. -/
def addObject (session : Session) (object : Reference) (state : Lifecycle)
    (fields : List FieldValue) (key : Option Key) : Session :=
  let count := ((session.mapper.schema? object.className).map fun schema =>
    schema.fields.length).getD 0
  let padding := List.replicate (count - fields.length) .null
  let resident : Resident := ⟨object, state, fields ++ padding, key⟩
  { session with residents := resident.insert session.residents }

/-- The record that was saved for an object. -/
def record? (session : Session) (id : Identity) : Option Record :=
  session.records.lookup id

/-- Saves the record of an object. -/
def saveRecord (session : Session) (id : Identity) (record : Record) : Session :=
  { session with records := (id, record) :: session.records.filter fun entry => entry.1 ≠ id }

/-- The error for a position at which an object has no field. -/
def noField (object : Reference) (position : Nat) : MappingError :=
  .internal (.other s!"{object.display} has no field {position}")

/-- The value of a field of an object. -/
def fieldValue (session : Session) (object : Reference) (position : Nat) :
    Outcome FieldValue := do
  let resident ← session.resident object
  match resident.fields[position]? with
  | some value => return value
  | none => .error (noField object position)

/-- Sets the value of a field of an object. -/
def setField (session : Session) (object : Reference) (position : Nat) (value : FieldValue) :
    Outcome Session := do
  let resident ← session.resident object
  if position < resident.fields.length then
    return session.modifyResident object.id fun resident =>
      { resident with fields := resident.fields.set position value }
  else .error (noField object position)

/-- Sets the state of an object. -/
def setState (session : Session) (object : Reference) (state : Lifecycle) :
    Outcome Session := do
  let _ ← session.resident object
  return session.modifyResident object.id fun resident => { resident with state }

/-- Sets the key of an object. -/
def setKey (session : Session) (object : Reference) (key : Option Key) : Outcome Session := do
  let _ ← session.resident object
  return session.modifyResident object.id fun resident => { resident with key }

/-- The key of an object, if it has one. -/
def knownKey (session : Session) (object : Reference) : Option Key :=
  (session.resident? object.id).bind Resident.key

/-- Whether the state of an object is as the given test asks. -/
def hasState (session : Session) (test : Lifecycle → Bool) (object : Reference) : Bool :=
  (session.resident? object.id).any fun resident => test resident.state

end Session

end RecordMapping
