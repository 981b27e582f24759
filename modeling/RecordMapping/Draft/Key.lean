import RecordMapping.Draft.Basic
import RecordMapping.Key.Token

/-!
# The key of a draft

A key reaches a draft in parts: the primary key as a whole or as an id or a name, the parent from a
field or the registry, and last the id that the store assigns. The rules here keep the parts from
contradicting each other:

* the identifier of a complete key never changes;
* a record is given a parent at most once, and only while it is new;
* a key that a field has set as a whole is not moved by the field for the parent.

Every step gives a new draft or an error, and an error leaves nothing changed.
-/

namespace RecordMapping.Draft

/-- The same properties under another key of the same kind. -/
def rekey (draft : Draft) (key : Key) : Outcome Draft := do
  let record ← draft.record.rekey key
  return { draft with record }

/-- The error for a key and a parent that both fix the ancestry. -/
def conflict (draft : Draft) (key : Key) : MappingError :=
  .conflictingKeyAssignment draft.schema.name key

/-- The error for another parent than the record has. -/
def ancestryFixed (draft : Draft) (attempted : Option Key) : MappingError :=
  .immutableAncestry draft.schema.name draft.key attempted

/-- The error for another key than the record has. -/
def keyFixed (draft : Draft) (attempted : Option Key) : MappingError :=
  .immutableKey draft.schema.name draft.key attempted

/-- Gives the record its parent by a key under it. This happens at most once, and to new records
only. -/
def rebase (draft : Draft) (key : Key) (origin : ParentOrigin) : Outcome Draft := do
  if draft.parentOrigin.isSome then
    .error (.internal (.ancestryRebuilt draft.key key))
  else if draft.operation = .update then
    .error (draft.ancestryFixed key.parent?)
  else
    let moved ← draft.rekey key
    return { moved with parentOrigin := some origin }

/-- Applies a key to a draft whose key is incomplete. -/
def applyKey (draft : Draft) (key : Key) (origin : KeyOrigin) : Outcome Draft :=
  match draft.record.parent? with
  | some parent =>
      if origin = .whole then .error (draft.conflict key)
      else if key.parent? = some parent then draft.rekey key
      else .error (draft.ancestryFixed key.parent?)
  | none =>
      if key.hasParent then draft.rebase key .key else draft.rekey key

/-- Applies the primary key, or null for one that is not known yet. -/
def applyPrimaryKey (draft : Draft) (key : Option Key) (origin : KeyOrigin) : Outcome Draft := do
  match key with
  | none =>
      if draft.key.isComplete && !draft.isKeySet then .error (draft.keyFixed none) else .ok draft
  | some key =>
      if key.kind ≠ draft.record.kind then
        .error (.kindMismatch draft.record.kind key.kind)
      else if draft.key.isComplete then
        if draft.key = key then .ok draft else .error (draft.keyFixed (some key))
      else
        let applied ← draft.applyKey key origin
        return { applied with keyOrigin := some origin }

/-- The key of a draft moved under a parent. -/
def movedKey (draft : Draft) (parent : Key) : Outcome Key :=
  match draft.keyOrigin with
  | none => (Key.incomplete draft.record.kind (some parent)).mapError .invalidKey
  | some .derived => (draft.key.movedUnder parent).mapError .invalidKey
  | some .whole => .error (draft.conflict draft.key)

/-- Applies the parent's key from its field, or null for none. A key that was derived from an id or
a name is moved under the parent, so that the two fields may come in either order. -/
def applyParent (draft : Draft) (parent : Option Key) : Outcome Draft := do
  match parent, draft.record.parent? with
  | none, none => .ok draft
  | none, some _ =>
      if draft.parentOrigin.isNone then .error (draft.ancestryFixed none) else .ok draft
  | some parent, some current =>
      if draft.parentOrigin = some .key then .error (draft.conflict draft.key)
      else if current = parent then .ok draft
      else .error (draft.ancestryFixed (some parent))
  | some parent, none =>
      if draft.operation = .update then .error (draft.ancestryFixed (some parent))
      else
        let key ← draft.movedKey parent
        draft.rebase key .field

/-- Completes the key with the one that the store assigned. -/
def assignKey (draft : Draft) (key : Key) : Outcome Draft :=
  if draft.key = key then .ok draft
  else if draft.key.isComplete then .error (draft.keyFixed (some key))
  else if !key.isComplete then .error (.invalidKey (.incompleteAssigned key))
  else if key.parent? ≠ draft.record.parent? then .error (draft.ancestryFixed key.parent?)
  else draft.rekey key

/-! ## Fields of the key -/

/-- The key that a field holds as a whole: a key, or its token. -/
def wholeKey (field : Field) (value : FieldValue) : Outcome (Option Key) :=
  match value.bare with
  | .null => .ok none
  | .key key => .ok (some key)
  | .text token => do return some (← Key.ofToken token)
  | other => .error (field.unsupported (.notKey field.type other.typeLabel))

/-- The key with the given identifier of the record's kind, under its parent. -/
def siblingKey (draft : Draft) (identifier : Identifier) : Outcome (Option Key) := do
  let key ←
    (Key.build draft.record.parent? draft.record.kind identifier).mapError .invalidKey
  return some key

/-- The key of the record's kind under its parent that an id or a name gives. -/
def identifiedKey (draft : Draft) (field : Field) (value : FieldValue) : Outcome (Option Key) :=
  match value.bare with
  | .null => .ok none
  | .int id => draft.siblingKey (.id id)
  | .text name => draft.siblingKey (.name name)
  | other => .error (field.unsupported (.notKey field.type other.typeLabel))

/-- Applies the value of the field that is the primary key. -/
def setPrimaryKey (draft : Draft) (field : Field) (value : FieldValue) : Outcome Draft := do
  match ← field.keyForm with
  | .id => draft.applyPrimaryKey (← draft.identifiedKey field value) .derived
  | .name =>
      if value.bare.isNull then .error (.invalidPrimaryKey draft.schema.name field.name)
      else draft.applyPrimaryKey (← draft.identifiedKey field value) .derived
  | _ => draft.applyPrimaryKey (← wholeKey field value) .whole

/-- Applies the value of a field that is the id or the name within the key. -/
def setIdentifier (draft : Draft) (field : Field) (value : FieldValue) : Outcome Draft := do
  let _ ← field.keyForm
  draft.applyPrimaryKey (← draft.identifiedKey field value) .derived

/-- Applies the value of the field that holds the parent's key. -/
def setParentField (draft : Draft) (field : Field) (value : FieldValue) : Outcome Draft := do
  let _ ← field.keyForm
  draft.applyParent (← wholeKey field value)

end RecordMapping.Draft
