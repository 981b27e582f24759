import RecordMapping.Error
import RecordMapping.Key.Kind

/-!
# Building keys

A key is built below a complete parent or as a root. Kinds must be neither empty nor reserved,
numbers positive and names not empty; `Key.ofPath` asks the same of a path from the root down.
-/

namespace RecordMapping

/-- Refuses the kinds that no key may have. -/
def Kind.check (kind : String) : Except KeyFault Unit :=
  if kind.isEmpty then .error .emptyKind
  else if Kind.isReserved kind then .error (.reservedKind kind)
  else .ok ()

/-- Refuses the identifiers that no entity of the given kind may have. -/
def Identifier.check (kind : String) : Identifier → Except KeyFault Unit
  | .id value => if value ≤ 0 then .error (.nonPositiveId value kind) else .ok ()
  | .name value => if value.isEmpty then .error (.emptyName kind) else .ok ()

/-- Refuses a level of a path whose kind or identifier no key may have. -/
def Segment.check (segment : Segment) : Except KeyFault Unit := do
  Kind.check segment.kind
  match segment.identifier with
  | some (.id value) => if value ≤ 0 then .error (.nonPositivePathId value)
  | some (.name value) => if value.isEmpty then .error .emptyPathName
  | none => .ok ()

namespace Key

/-- The ancestors of a key that is to be placed under the given parent, or at the root. -/
def lineageUnder : Option Key → Except KeyFault (List Ancestor)
  | none => .ok []
  | some parent =>
      match parent.lineage? with
      | none => .error (.incompleteParent parent)
      | some lineage => .ok lineage

/-- The complete key with the given kind and identifier. -/
def build (parent : Option Key) (kind : String) (identifier : Identifier) :
    Except KeyFault Key := do
  let ancestors ← lineageUnder parent
  Kind.check kind
  identifier.check kind
  return ⟨ancestors, kind, some identifier⟩

/-- The key of the given kind whose identifier the store has yet to assign. -/
def incomplete (kind : String) (parent : Option Key) : Except KeyFault Key := do
  Kind.check kind
  let ancestors ← lineageUnder parent
  return ⟨ancestors, kind, none⟩

/-- The same kind and identifier under another parent. -/
def movedUnder (key parent : Key) : Except KeyFault Key := do
  let ancestors ← lineageUnder (some parent)
  return ⟨ancestors, key.kind, key.identifier⟩

/-- The key with the number that the store assigned to it. -/
def withId (key : Key) (id : Int64) : Except KeyFault Key :=
  if key.isComplete then .error (.alreadyComplete key)
  else build key.parent? key.kind (.id id)

/-- The ancestors that the given levels stand for, in the order given. -/
def ancestorsOf : List Segment → Except KeyFault (List Ancestor)
  | [] => .ok []
  | ⟨kind, none⟩ :: _ => .error (.incompleteAncestor kind)
  | ⟨kind, some identifier⟩ :: rest => do
      let ancestors ← ancestorsOf rest
      return ⟨kind, identifier⟩ :: ancestors

/-- The key whose levels from the root down are given. -/
def ofPath (path : List Segment) : Except KeyFault Key :=
  match path.getLast? with
  | none => .error .emptyPath
  | some last => do
      let ancestors ← ancestorsOf path.dropLast
      path.forM Segment.check
      return ⟨ancestors.reverse, last.kind, last.identifier⟩

end Key

end RecordMapping
