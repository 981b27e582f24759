import RecordMapping.Draft.Placement
import RecordMapping.Draft.Resolution
import RecordMapping.Session.Basic

/-!
# Saving the objects of a session

Saving an object fills the draft of its record, places it in its entity group, assigns an id where
the key lacks one, and resolves the relations of the object; that can save further objects first.
What a failure leaves done stays done.

Savings nest, and each object that is saved within another one gets its key before anything is
saved within it. So the nesting ends, unless objects that stand for each other ask for one another
without end; `Session.saveDepth` bounds it.
-/

namespace RecordMapping

namespace Session

/-- Saves an object and tells whether the keys of related objects changed its record. -/
abbrev Saver := Reference → Attempt (Surroundings Session) Bool

/-- Logs a call, which fails if the session is to make it fail. -/
def call (name : String) : Attempt Session Unit := do
  modify fun session => { session with log := session.log ++ [name] }
  match (← get).behaviour.failures.lookup name with
  | some failure => throw (failure.error name)
  | none => pure ()

/-- Has an object saved, or the one that takes its place. -/
def persist (save : Saver) (object : Reference) : Attempt (Surroundings Session) Reference := do
  Surroundings.onWorld (call s!"persist:{object.className}")
  let session := (← get).world
  let _ ← session.resident object
  let handle := (session.behaviour.handles.lookup object.id).getD object
  if !session.behaviour.skipsPersist then
    let _ ← save handle
  return handle

/-- Has an object saved that has no key yet. -/
def flush (save : Saver) (object : Reference) : Attempt (Surroundings Session) Unit := do
  Surroundings.onWorld (call s!"flush:{object.className}")
  let session := (← get).world
  if !session.behaviour.skipsFlush && (session.knownKey object).isNone then
    let _ ← save object

/-- Writes the reference that a relation field is to write. -/
def writeReference (field : Field) : Attempt (Record × Session) Unit := do
  Attempt.onPart Prod.snd (fun session pair => (pair.1, session))
    (call s!"eager_fk:{field.name}")
  let (record, session) ← get
  match session.behaviour.references.lookup field.name with
  | some value => set (record.put (session.mapper.propertyOf field) value true, session)
  | none => pure ()

/-- The session as the surroundings of a mapper, with the given way of saving objects. -/
def plainFramework (save : Saver) : Framework Session where
  fieldValue := fieldValue
  knownKey := knownKey
  isDeleted session := session.hasState fun state => state = .deleted
  isDetached session := session.hasState Lifecycle.isDetached
  isManaged session := session.hasState Lifecycle.isManaged
  setField object position value := do
    call s!"replace:{object.className}:{position}"
    Attempt.update fun session => session.setField object position value
  persist := persist save
  flush := flush save

/-- The surroundings with the session's own answers to references and callbacks. -/
def hookedFramework (save : Saver) : Framework Session :=
  { plainFramework save with
    writeReference := fun _ field _ => writeReference field
    inserted := fun owner field => call s!"post_insert:{owner.className}:{field.name}"
    updated := fun owner field => call s!"post_update:{owner.className}:{field.name}" }

/-- The surroundings of a mapper that a session with the given behaviour is. -/
def framework (behaviour : Behaviour) (save : Saver) : Framework Session :=
  if behaviour.hasDefaultHooks then plainFramework save else hookedFramework save

/-- The value that tells an object its key, in the form of its primary key field. -/
def keyValue? (field : Field) (key : Key) : Option FieldValue :=
  match field.type with
  | .long => key.id?.map .int
  | .key => some (.key key)
  | .string => if field.isEncodedKey then some (.text key.token) else none
  | _ => none

/-- Writes an object's key to its primary key field. -/
def tellKey (session : Session) (object : Reference) (schema : Schema) (key : Key) :
    Outcome Session :=
  match schema.positionOf? .primaryKey, schema.primaryKey?.bind (keyValue? · key) with
  | some position, some value => session.setField object position value
  | _, _ => .ok session

/-- Writes the parent's key to the field for it. -/
def tellParent (session : Session) (object : Reference) (schema : Schema)
    (parent : Option FieldValue) : Outcome Session :=
  match schema.positionOf? .parentKey, parent with
  | some position, some value => session.setField object position value
  | _, _ => .ok session

/-- The draft for an object: a change if a record was saved for it, else a new record. -/
def draftFor (session : Session) (object : Reference) : Outcome Draft :=
  match session.record? object.id with
  | some record => session.mapper.update object record
  | none => session.mapper.insert object

/-- Takes the next id. -/
def takeId (draft : Draft) : Attempt Session Draft := do
  if draft.key.isComplete then return draft
  else
    let key ← ((draft.key.withId (← get).nextId).mapError .invalidKey : Outcome Key)
    modify fun session => { session with nextId := session.nextId + 1 }
    draft.assignKey key

/-- Places a draft in its entity group. -/
def placeDraft (draft : Draft) :
    Attempt (Surroundings Session) (Option FieldValue × Draft) :=
  Draft.placeInGroup.withLocal draft
    (fun draft around => (draft, around.registry))
    (fun around (draft, registry) => (draft, { around with registry }))

/-- Resolves the relations of a draft. -/
def resolveDraft (mapper : Mapper) (framework : Framework Session) (draft : Draft) :
    Attempt (Surroundings Session) (Bool × Draft) :=
  (mapper.resolve framework).withLocal draft Workspace.mk
    (fun _ space => (space.draft, space.surroundings))

/-- Saves an object, with further objects saved by `inner`. -/
def saveUsing (inner : Saver) : Saver := fun object => do
  let session := (← get).world
  let mapper := session.mapper
  let framework := framework session.behaviour inner
  let schema ← mapper.schema object.className
  Surroundings.onWorld (Attempt.update fun session => session.setState object .managed)
  let session := (← get).world
  let draft ← session.draftFor object
  let (_, draft) ← Attempt.ofOutcome
    ((mapper.fillFields session.knownKey (session.fieldValue object) schema.positions).result draft)
  let (parent, draft) ← placeDraft draft
  Surroundings.onWorld (Attempt.update fun session => session.tellParent object schema parent)
  let draft ← Surroundings.onWorld (takeId draft)
  Surroundings.onWorld (Attempt.update fun session => session.tellKey object schema draft.key)
  Surroundings.onWorld (Attempt.update fun session => session.setKey object (some draft.key))
  let (changed, draft) ← resolveDraft mapper framework draft
  Surroundings.onWorld (modify fun session => session.saveRecord object.id draft.record)
  return changed

/-- Saves an object within at most `depth` others. -/
def saveWithin : (depth : Nat) → Saver
  | 0 => fun _ => throw (.internal (.other "objects are saved within each other without end"))
  | depth + 1 => saveUsing (saveWithin depth)

/-- How deep savings can nest before the same object is saved twice for the same reason. -/
def saveDepth (session : Session) : Nat :=
  (session.residents.length + 1) * (session.residents.length + 2)

/-- Saves an object. -/
def save : Saver := fun object => do
  let depth := (← get).world.saveDepth
  saveWithin depth object

/-- The session as the surroundings of a mapper. -/
def surroundings (session : Session) : Framework Session :=
  framework session.behaviour save

end Session

end RecordMapping
