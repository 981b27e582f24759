import RecordMapping.Mapper.Basic
import RecordMapping.Record

/-!
# Drafts of records

A draft is the record of one object while it is being built. Besides the record it holds what later
steps depend on: where the key and the parent came from, and the relations whose objects wait until
the record has its key.
-/

namespace RecordMapping

/-- Whether a record is new. -/
inductive Operation where
  | insert
  | update
deriving DecidableEq, Repr

/-- Where the key of a draft came from. -/
inductive KeyOrigin where
  /-- From an id or a name, under the parent that the draft had. -/
  | derived
  /-- From the application, as a whole. -/
  | whole
deriving DecidableEq, Repr

/-- What gave a draft its parent. -/
inductive ParentOrigin where
  /-- The field for the parent's key. -/
  | field
  /-- A whole key with ancestors. -/
  | key
  /-- The registry of parents. -/
  | registry
deriving DecidableEq, Repr

/-- A relation whose objects wait until the record has its key. -/
structure Pending where
  field : Field
  relation : Relation
  /-- The position of the field in the class of the object, unless it is inside an embedded
  object. -/
  position : Option Nat
  property : String
  value : FieldValue

/-- The record of one object while it is being built. -/
structure Draft where
  object : Reference
  schema : Schema
  operation : Operation
  record : Record
  /-- Where the key came from, once a field has set it. -/
  keyOrigin : Option KeyOrigin := none
  /-- What gave the record its parent, if that happened here. -/
  parentOrigin : Option ParentOrigin := none
  pending : List Pending := []

namespace Draft

def key (draft : Draft) : Key :=
  draft.record.key

/-- Whether a field has set the key. -/
def isKeySet (draft : Draft) : Bool :=
  draft.keyOrigin.isSome

/-- Whether the record was given its parent here. -/
def isParentSet (draft : Draft) : Bool :=
  draft.parentOrigin.isSome

/-- Whether relations wait for the key. -/
def hasPending (draft : Draft) : Bool :=
  !draft.pending.isEmpty

end Draft

namespace Mapper

/-- The draft of a new record for an object. -/
def insert (mapper : Mapper) (object : Reference) : Outcome Draft := do
  let schema ← mapper.schema object.className
  let record ← Record.ofKind schema.kind
  return { object, schema, operation := .insert, record }

/-- The draft of a change to the record of an object. -/
def update (mapper : Mapper) (object : Reference) (record : Record) : Outcome Draft := do
  let schema ← mapper.schema object.className
  if record.kind = schema.kind then
    return { object, schema, operation := .update, record }
  else .error (.kindMismatch schema.kind record.kind)

end Mapper

end RecordMapping
