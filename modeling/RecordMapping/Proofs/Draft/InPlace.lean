import RecordMapping.Draft.Population
import RecordMapping.Proofs.Attempt

/-!
# The rules for keys, step by step

The rules for the key of a draft make a new draft of the old one, or none. The rules of
`Draft.InPlace` change the draft piece by piece instead, as a store of records does: an empty record
stands in for the real one while that is put under its new key, and where the key and the parent
came from is noted afterwards. A failure halfway would leave what was changed before it.

Both are the same (`Mapper.fillFieldInPlace_eq`, `Draft.InPlace.assignKey_eq`): whatever can fail is
tried before anything is changed.
-/

namespace RecordMapping

open Attempt

namespace Draft.InPlace

/-- Puts the record under another key. An empty record stands in for it meanwhile. -/
def rekey (key : Key) : Attempt Draft Unit := do
  let record := (← get).record
  if key.kind = record.kind then
    modify fun draft => { draft with record := .ofKey key }
    let moved ← record.rekey key
    modify fun draft => { draft with record := moved }
  else throw (.kindMismatch record.kind key.kind)

/-- Gives the record its parent by a key under it. -/
def rebase (key : Key) (origin : ParentOrigin) : Attempt Draft Unit := do
  let draft ← get
  if draft.parentOrigin.isSome then
    throw (.internal (.ancestryRebuilt draft.key key))
  else if draft.operation = .update then
    throw (draft.ancestryFixed key.parent?)
  else
    rekey key
    modify fun draft => { draft with parentOrigin := some origin }

/-- Applies a key to a draft whose key is incomplete. -/
def applyKey (key : Key) (origin : KeyOrigin) : Attempt Draft Unit := do
  let draft ← get
  match draft.record.parent? with
  | some parent =>
      if origin = .whole then throw (draft.conflict key)
      else if key.parent? = some parent then rekey key
      else throw (draft.ancestryFixed key.parent?)
  | none =>
      if key.hasParent then rebase key .key else rekey key

/-- Applies the primary key, or null for one that is not known yet. -/
def applyPrimaryKey (key : Option Key) (origin : KeyOrigin) : Attempt Draft Unit := do
  let draft ← get
  match key with
  | none =>
      if draft.key.isComplete && !draft.isKeySet then throw (draft.keyFixed none) else pure ()
  | some key =>
      if key.kind ≠ draft.record.kind then
        throw (.kindMismatch draft.record.kind key.kind)
      else if draft.key.isComplete then
        if draft.key = key then pure () else throw (draft.keyFixed (some key))
      else
        applyKey key origin
        modify fun draft => { draft with keyOrigin := some origin }

/-- Applies the parent's key from its field, or null for none. -/
def applyParent (parent : Option Key) : Attempt Draft Unit := do
  let draft ← get
  match parent, draft.record.parent? with
  | none, none => pure ()
  | none, some _ =>
      if draft.parentOrigin.isNone then throw (draft.ancestryFixed none) else pure ()
  | some parent, some current =>
      if draft.parentOrigin = some .key then throw (draft.conflict draft.key)
      else if current = parent then pure ()
      else throw (draft.ancestryFixed (some parent))
  | some parent, none =>
      if draft.operation = .update then throw (draft.ancestryFixed (some parent))
      else
        let key ← draft.movedKey parent
        rebase key .field

/-- Completes the key with the one that the store assigned. -/
def assignKey (key : Key) : Attempt Draft Unit := do
  let draft ← get
  if draft.key = key then pure ()
  else if draft.key.isComplete then throw (draft.keyFixed (some key))
  else if !key.isComplete then throw (.invalidKey (.incompleteAssigned key))
  else if key.parent? ≠ draft.record.parent? then throw (draft.ancestryFixed key.parent?)
  else rekey key

/-- Applies the value of the field that is the primary key. -/
def setPrimaryKey (field : Field) (value : FieldValue) : Attempt Draft Unit := do
  match ← field.keyForm with
  | .id => applyPrimaryKey (← (← get).identifiedKey field value) .derived
  | .name =>
      if value.bare.isNull then throw (.invalidPrimaryKey (← get).schema.name field.name)
      else applyPrimaryKey (← (← get).identifiedKey field value) .derived
  | _ => applyPrimaryKey (← wholeKey field value) .whole

/-- Applies the value of a field that is the id or the name within the key. -/
def setIdentifier (field : Field) (value : FieldValue) : Attempt Draft Unit := do
  let _ ← field.keyForm
  applyPrimaryKey (← (← get).identifiedKey field value) .derived

/-- Applies the value of the field that holds the parent's key. -/
def setParentField (field : Field) (value : FieldValue) : Attempt Draft Unit := do
  let _ ← field.keyForm
  applyParent (← wholeKey field value)

end Draft.InPlace

/-- Stores the value of the field at a position of the class, parts of the key step by step. -/
def Mapper.fillFieldInPlace (mapper : Mapper) (knownKey : Reference → Option Key) (position : Nat)
    (value : FieldValue) : Attempt Draft Unit := do
  let field ← (← get).schema.field position
  match field.role with
  | .primaryKey => Draft.InPlace.setPrimaryKey field value
  | .parentKey => Draft.InPlace.setParentField field value
  | .primaryKeyName => Draft.InPlace.setIdentifier field value
  | .primaryKeyId => Draft.InPlace.setIdentifier field value
  | _ => mapper.storeField knownKey none position field value

/-! ## The same in one step -/

namespace Attempt

variable {σ α : Type}

/-- What is noted after a change is made with it, since noting does not fail. -/
theorem update_modify (change : σ → Outcome σ) (note : σ → σ) :
    (do update change; modify note) =
      update fun state => change state >>= fun next => .ok (note next) := by
  funext state
  change (update change >>= fun _ => modify note) state = _
  cases changed : change state with
  | ok next =>
      have made : update change state = .ok () next := update_eq_ok_iff.mpr changed
      rw [bind_of_ok made, update, changed]
      rfl
  | error error =>
      have failed : update change state = .error error state := by rw [update, changed]
      rw [bind_of_error failed, update, changed]
      rfl

/-- What is read of the state before a change is read within it. -/
theorem read_update (read : σ → Outcome α) (change : α → σ → Outcome σ) :
    (get >>= fun state => liftM (read state) >>= fun value => update (change value)) =
      update fun state => read state >>= fun value => change value state := by
  funext state
  rw [get_bind, update]
  cases read state <;> rfl

end Attempt

namespace Draft.InPlace

variable {draft : Draft}

/-- The stand-in is never left: a record is rebuilt under every key of its kind. -/
theorem rekey_eq (key : Key) : rekey key = update fun draft => draft.rekey key := by
  funext draft
  unfold rekey
  rw [get_bind, update, Draft.rekey, Record.rekey]
  split
  case isTrue kind => rfl
  case isFalse kind => rfl

theorem rebase_eq (key : Key) (origin : ParentOrigin) :
    rebase key origin = update fun draft => draft.rebase key origin := by
  funext draft
  unfold rebase
  rw [get_bind, update, Draft.rebase, rekey_eq, update_modify]
  split
  case isTrue => rfl
  split
  case isTrue => rfl
  case isFalse => rfl

theorem applyKey_eq (key : Key) (origin : KeyOrigin) :
    applyKey key origin = update fun draft => draft.applyKey key origin := by
  funext draft
  unfold applyKey
  rw [get_bind, update, Draft.applyKey, rekey_eq, rebase_eq]
  cases draft.record.parent? with
  | none =>
      simp only
      split <;> rfl
  | some parent =>
      simp only
      split
      case isTrue => rfl
      case isFalse => split <;> rfl

theorem applyPrimaryKey_eq (key : Option Key) (origin : KeyOrigin) :
    applyPrimaryKey key origin = update fun draft => draft.applyPrimaryKey key origin := by
  funext draft
  unfold applyPrimaryKey
  rw [get_bind, update, Draft.applyPrimaryKey.eq_def]
  cases key with
  | none =>
      simp only
      split <;> rfl
  | some key =>
      simp only [applyKey_eq, update_modify]
      split
      case isTrue => rfl
      split
      case isTrue => split <;> rfl
      case isFalse => rfl

theorem applyParent_eq (parent : Option Key) :
    applyParent parent = update fun draft => draft.applyParent parent := by
  funext draft
  unfold applyParent
  rw [get_bind, update, Draft.applyParent.eq_def]
  cases parent with
  | none =>
      cases draft.record.parent? with
      | none => rfl
      | some current =>
          simp only
          split <;> rfl
  | some parent =>
      cases draft.record.parent? with
      | some current =>
          simp only
          split
          case isTrue => rfl
          case isFalse => split <;> rfl
      | none =>
          simp only [rebase_eq]
          split
          case isTrue => rfl
          case isFalse => cases draft.movedKey parent <;> rfl

theorem assignKey_eq (key : Key) : assignKey key = update fun draft => draft.assignKey key := by
  funext draft
  unfold assignKey
  rw [get_bind, update, Draft.assignKey, rekey_eq]
  split
  case isTrue => rfl
  split
  case isTrue => rfl
  split
  case isTrue => rfl
  split
  case isTrue => rfl
  case isFalse => rfl

variable (field : Field) (value : FieldValue)

theorem setPrimaryKey_eq :
    setPrimaryKey field value = update fun draft => draft.setPrimaryKey field value := by
  funext draft
  unfold setPrimaryKey Draft.setPrimaryKey
  simp only [applyPrimaryKey_eq, read_update]
  cases field.keyForm with
  | error error => rfl
  | ok form =>
      cases form with
      | id => rfl
      | key => cases wholeKey field value <;> rfl
      | token => cases wholeKey field value <;> rfl
      | name =>
          cases value.bare.isNull <;> rfl

theorem setIdentifier_eq :
    setIdentifier field value = update fun draft => draft.setIdentifier field value := by
  funext draft
  unfold setIdentifier Draft.setIdentifier
  simp only [applyPrimaryKey_eq, read_update]
  cases field.keyForm <;> rfl

theorem setParentField_eq :
    setParentField field value = update fun draft => draft.setParentField field value := by
  funext draft
  unfold setParentField Draft.setParentField
  simp only [applyParent_eq]
  cases field.keyForm with
  | error error => rfl
  | ok form => cases wholeKey field value <;> rfl

end Draft.InPlace

/-- **The fields of a class are filled in place as they are filled at once.** -/
theorem Mapper.fillFieldInPlace_eq (mapper : Mapper) (knownKey : Reference → Option Key)
    (position : Nat) (value : FieldValue) :
    mapper.fillFieldInPlace knownKey position value =
      mapper.fillField knownKey position value := by
  refine bind_congr fun draft => bind_congr fun field => ?_
  cases field.role with
  | primaryKey => exact Draft.InPlace.setPrimaryKey_eq field value
  | parentKey => exact Draft.InPlace.setParentField_eq field value
  | primaryKeyName => exact Draft.InPlace.setIdentifier_eq field value
  | primaryKeyId => exact Draft.InPlace.setIdentifier_eq field value
  | regular => rfl
  | relation => rfl

end RecordMapping
