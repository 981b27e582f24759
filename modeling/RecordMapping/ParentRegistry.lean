import RecordMapping.Key.Basic
import RecordMapping.Object.Reference

/-!
# The registry of parents

For one unit of work the registry keeps the keys of parents whose children are yet to be saved, and
the objects that were met in relations that do not own them. A child takes its parent's key once.
-/

namespace RecordMapping

/-- The parents that wait for their children, and the objects that are owned by none. -/
structure ParentRegistry where
  parents : List (Identity × Key) := []
  roots : List Identity := []
deriving DecidableEq, Repr

namespace ParentRegistry

/-- The key that is registered for the parent of an object. -/
def parent? (registry : ParentRegistry) (child : Identity) : Option Key :=
  registry.parents.lookup child

/-- Registers the key of the parent of an object, in the place of an earlier one. -/
def announce (registry : ParentRegistry) (child : Identity) (parent : Key) :
    ParentRegistry :=
  { registry with
    parents := (child, parent) :: registry.parents.filter fun entry => entry.1 ≠ child }

/-- Forgets the parent of an object. -/
def forgetParent (registry : ParentRegistry) (child : Identity) : ParentRegistry :=
  { registry with parents := registry.parents.filter fun entry => entry.1 ≠ child }

/-- Whether an object was met in a relation that does not own it. -/
def isRoot (registry : ParentRegistry) (object : Identity) : Bool :=
  registry.roots.contains object

/-- Notes an object that was met in a relation that does not own it. -/
def markRoot (registry : ParentRegistry) (object : Identity) : ParentRegistry :=
  if registry.isRoot object then registry
  else { registry with roots := object :: registry.roots }

def isEmpty (registry : ParentRegistry) : Bool :=
  registry.parents.isEmpty && registry.roots.isEmpty

end ParentRegistry

end RecordMapping
