import RecordMapping.Draft.Population
import RecordMapping.Framework

/-!
# Resolving the relations of a draft

Once the record has its key, the relations that were noted are resolved:

1. the objects of all relation fields of the class are registered, owned ones under the record's
   key;
2. mappings that write a reference of their own do so;
3. mappings that ask for it hear of the insertion or the change;
4. related objects without a key are stored, and the keys of all are written to the record.

An object that is not stored yet is no failure in steps 2 and 3.
-/

namespace RecordMapping

/-- A draft and its surroundings. -/
structure Workspace (World : Type) where
  draft : Draft
  surroundings : Surroundings World

namespace Workspace

variable {World α : Type}

def world (space : Workspace World) : World :=
  space.surroundings.world

/-- The surroundings with another world. -/
def withWorld (world : World) (space : Workspace World) : Workspace World :=
  { space with surroundings := { space.surroundings with world } }

/-- An attempt on the registry of parents. -/
def onRegistry (attempt : Attempt ParentRegistry α) : Attempt (Workspace World) α :=
  attempt.onPart (fun space => space.surroundings.registry) fun registry space =>
    { space with surroundings := { space.surroundings with registry } }

/-- An attempt on the world. -/
def onWorld (attempt : Attempt World α) : Attempt (Workspace World) α :=
  attempt.onPart world withWorld

/-- An attempt on the surroundings. -/
def onSurroundings (attempt : Attempt (Surroundings World) α) : Attempt (Workspace World) α :=
  attempt.onPart (fun space => space.surroundings) fun surroundings space =>
    { space with surroundings }

/-- An attempt on the record and the world. -/
def onRecord (attempt : Attempt (Record × World) α) : Attempt (Workspace World) α :=
  attempt.onPart (fun space => (space.draft.record, space.world)) fun (record, world) space =>
    withWorld world { space with draft := { space.draft with record } }

end Workspace

namespace Mapper

variable {World : Type} (mapper : Mapper) (framework : Framework World)

/-! ## Registration -/

/-- Refuses an object of a class that is stored apart from the declared one. -/
def checkTarget (relation : Relation) (child : Reference) : Outcome Unit :=
  if child.className = relation.targetClass then .ok ()
  else do
    let schema ← mapper.schema child.className
    if !schema.inheritance.supportsPolymorphism then
      .error (.unsupportedPolymorphism child.className relation.targetClass)

/-- Registers the objects of a relation of a record with the given key. The object of a relation
that provides the parent's key is no child. -/
def registerRelated (key : Key) (relation : Relation) (related : List Reference) :
    Attempt ParentRegistry Unit :=
  if !relation.owned then
    modify fun registry =>
      related.foldl (fun registry object => registry.markRoot object.id) registry
  else if relation.leadsToParent then pure ()
  else
    Attempt.each related fun child => do
      mapper.checkTarget relation child
      modify fun registry => registry.announce child.id key

/-- Registers the objects of the relation field at a position. -/
def registerField (draft : Draft) (provide : Nat → Outcome FieldValue) (position : Nat) :
    Attempt ParentRegistry Unit := do
  let field ← draft.schema.field position
  match field.relation with
  | none => pure ()
  | some relation =>
      let value ← provide position
      mapper.registerRelated draft.key relation value.referents

/-- Registers the objects of all relation fields of the class. -/
def registerFields (draft : Draft) (provide : Nat → Outcome FieldValue) :
    Attempt ParentRegistry Unit :=
  Attempt.each (draft.schema.positionsOf .relation) (mapper.registerField draft provide)

end Mapper

namespace Draft

variable {World : Type} (framework : Framework World)

/-! ## References and callbacks -/

/-- Refuses owned objects whose keys do not lie right below the key of the record. -/
def checkChildren (draft : Draft) (knownKey : Reference → Option Key) (relation : Relation)
    (value : FieldValue) : Outcome Unit := do
  let _ ← draft.presentKeys knownKey relation value.referents

/-- Has a mapping write its own reference. -/
def writeReference (pending : Pending) : Attempt (Workspace World) Unit := do
  let space ← get
  if pending.relation.owned then
    space.draft.checkChildren (framework.knownKey space.world) pending.relation pending.value
  Workspace.onRecord
    (framework.writeReference space.draft.object pending.field pending.value)

/-- Whether a mapping writes its own reference; the record's key already refers to a parent. -/
def writesReference (pending : Pending) : Bool :=
  pending.relation.writesReference && !pending.relation.leadsToParent

/-- Tells a mapping of the insertion or the change. -/
def notify (pending : Pending) : Attempt (Workspace World) Unit := do
  let draft := (← get).draft
  match draft.operation with
  | .insert => Workspace.onWorld (framework.inserted draft.object pending.field)
  | .update => Workspace.onWorld (framework.updated draft.object pending.field)

/-! ## Keys of related objects -/

/-- The managed object for one without a key, which is stored if it is not managed yet. -/
def managedObject (child : Reference) : Attempt (Surroundings World) Reference := do
  let world := (← get).world
  if framework.isManaged world child && !framework.isDetached world child then return child
  else framework.persist child

/-- The key of a managed object, which is stored if it has none. -/
def flushedKey (object : Reference) : Attempt (Surroundings World) Key := do
  match framework.knownKey (← get).world object with
  | some key => return key
  | none =>
      framework.flush object
      match framework.knownKey (← get).world object with
      | some key => return key
      | none => throw (.notYetFlushed (object.display ++ " has no key after flush"))

/-- The key of a related object and the object that has it. -/
def relatedKey (draft : Draft) (relation : Relation) (child : Reference) :
    Attempt (Surroundings World) (Reference × Key) := do
  match framework.knownKey (← get).world child with
  | some key =>
      draft.checkChild relation key
      return (child, key)
  | none =>
      let object ← managedObject framework child
      let key ← flushedKey framework object
      draft.checkChild relation key
      return (object, key)

/-- The keys of related objects, in order; deleted objects have none. -/
def relatedKeys (draft : Draft) (relation : Relation) :
    List Reference → Attempt (Surroundings World) (List Key)
  | [] => pure []
  | child :: rest => do
      if framework.isDeleted (← get).world child then relatedKeys draft relation rest
      else
        let (_, key) ← relatedKey framework draft relation child
        let keys ← relatedKeys draft relation rest
        return key :: keys

/-- The stored value of a relation to one object, which takes the place of the object in the field
of the owner if it is another one. -/
def relatedValue (draft : Draft) (pending : Pending) (child : Reference) :
    Attempt (Surroundings World) Value := do
  if framework.isDeleted (← get).world child then return .null
  else
    let (object, key) ← relatedKey framework draft pending.relation child
    if object ≠ child then
      match pending.position with
      | some position =>
          Surroundings.onWorld (framework.setField draft.object position (.object object))
      | none => pure ()
    return .key key

/-- The stored value of a relation. -/
def childKeys (draft : Draft) (pending : Pending) : Attempt (Surroundings World) Value := do
  let field := pending.field
  match pending.value.bare with
  | .null =>
      field.refuseNull draft.schema.name .null
      return .null
  | .object child =>
      if pending.relation.isSingle then relatedValue framework draft pending child
      else throw (field.unsupported (.notRelated "object"))
  | .list items =>
      if pending.relation.isSingle then throw (field.unsupported (.notRelated "list"))
      else
        let keys ← relatedKeys framework draft pending.relation (items.filterMap FieldValue.object?)
        return Value.ofKeys keys
  | other => throw (field.unsupported (.notRelated other.typeLabel))

/-- Writes the keys of a relation to the record. Tells whether that changes the record. -/
def writeChildKeys (pending : Pending) : Attempt (Workspace World) Bool := do
  let draft := (← get).draft
  let stored ← Workspace.onSurroundings (childKeys framework draft pending)
  if draft.record.get? pending.property == some stored then return false
  else
    modify fun space =>
      { space with draft := space.draft.put pending.property pending.field.isIndexed stored }
    return true

/-- Writes the keys of several relations, in order. Tells whether that changes the record. -/
def writeAllChildKeys : List Pending → Attempt (Workspace World) Bool
  | [] => pure false
  | pending :: rest => do
      let changed ← writeChildKeys framework pending
      let changedMore ← writeAllChildKeys rest
      return changed || changedMore

end Draft

namespace Mapper

variable {World : Type} (mapper : Mapper) (framework : Framework World)

/-- Resolves relations, the draft noting none any more. -/
def resolvePending (pending : List Pending) : Attempt (Workspace World) Bool := do
  let space ← get
  let draft := space.draft
  Workspace.onRegistry
    (mapper.registerFields draft (framework.fieldValue space.world draft.object))
  Attempt.each (pending.filter Draft.writesReference) fun relation =>
    (Draft.writeReference framework relation).tolerant
  Attempt.each (pending.filter fun noted => noted.relation.hearsChanges) fun relation =>
    (Draft.notify framework relation).tolerant
  Draft.writeAllChildKeys framework (pending.filter fun noted => !mapper.skips noted.relation)

/-- Resolves the relations that a draft has noted. Tells whether the keys of related objects
changed the record. A draft without its key keeps its relations. -/
def resolve : Attempt (Workspace World) Bool := do
  let draft := (← get).draft
  if draft.pending.isEmpty then return false
  else if !draft.key.isComplete then
    throw (.internal (.relationsBeforeKey draft.object draft.key))
  else
    modify fun space => { space with draft := { space.draft with pending := [] } }
    mapper.resolvePending framework draft.pending

end Mapper

end RecordMapping
