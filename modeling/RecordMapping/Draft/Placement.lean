import RecordMapping.Attempt
import RecordMapping.Draft.Key
import RecordMapping.ParentRegistry

/-!
# The entity group of a draft

The records below one root form an entity group. A new record without a parent takes the one that
is registered for its object, unless the object was met in a relation that does not own it.
-/

namespace RecordMapping.Draft

/-- The parent's key in the form that the class's field for it holds, if there is such a field. -/
def parentValue (draft : Draft) (parent : Key) : Outcome (Option FieldValue) :=
  match draft.schema.parentKey? with
  | none => .ok none
  | some field => do
      match ← field.keyForm with
      | .token => return some (.text parent.token)
      | _ => return some (.key parent)

/-- The draft moved under a registered parent. -/
def joinParent (draft : Draft) (parent : Key) : Outcome Draft := do
  let key ←
    (if draft.key.isComplete then draft.key.movedUnder parent
      else Key.incomplete draft.record.kind (some parent)).mapError .invalidKey
  draft.rebase key .registry

/-- Whether a draft may take the parent that is registered for its object. -/
def seeksParent (draft : Draft) (registry : ParentRegistry) : Bool :=
  draft.operation = .insert && !registry.isRoot draft.object.id

/-- Places the record in the entity group of its owner. Gives the parent's key in the form that the
class's field for it holds. A record that has a parent keeps it. -/
def placeInGroup : Attempt (Draft × ParentRegistry) (Option FieldValue) := do
  let (draft, registry) ← get
  match draft.record.parent? with
  | some parent => draft.parentValue parent
  | none =>
      match if draft.seeksParent registry then registry.parent? draft.object.id else none with
      | none => return none
      | some parent =>
          let registry := registry.forgetParent draft.object.id
          set (draft, registry)
          let joined ← draft.joinParent parent
          set (joined, registry)
          joined.parentValue parent

end RecordMapping.Draft
