/-!
# Relations between classes

A relation field refers to one object or to several, which it owns or not. Owned objects live below
the record of their owner. In a relation that can be followed from both sides, one side does not
store the other: a pointer to many-to-one owners, or the side of a one-to-one relation that is
mapped by a field of the other class.
-/

namespace RecordMapping

/-- How many objects a relation field refers to, and how it holds them. -/
inductive Cardinality where
  | single
  | collection
  | array
deriving DecidableEq, Repr

/-- How a relation can be followed back. -/
inductive Direction where
  | manyToOne
  | oneToOne
  /-- Not at all, or in another way. -/
  | other
deriving DecidableEq, Repr

/-- A relation field's link to other objects. -/
structure Relation where
  /-- The class that the related objects are declared to have. -/
  targetClass : String
  cardinality : Cardinality := .single
  owned : Bool := true
  direction : Direction := .other
  /-- The field of the other class that stores the relation. -/
  mappedBy : Option String := none
  /-- The surroundings write a reference of their own into the owner's record. -/
  writesReference : Bool := false
  /-- The surroundings want to hear of each insertion and update of the owner. -/
  hearsChanges : Bool := false
  /-- The field refers to the owner's parent, whose key the owner's key already holds. -/
  leadsToParent : Bool := false
deriving DecidableEq, Repr

namespace Relation

/-- An owned relation to one object, with a reference written at once. -/
def single (targetClass : String) : Relation :=
  { targetClass, writesReference := true }

/-- An owned relation to several objects, with callbacks. -/
def collection (targetClass : String) : Relation :=
  { targetClass, cardinality := .collection, hearsChanges := true }

/-- An owned relation to an array of objects, with callbacks. -/
def array (targetClass : String) : Relation :=
  { targetClass, cardinality := .array, hearsChanges := true }

/-- The pointer of a child to its parent. -/
def toParent (parentClass : String) : Relation :=
  { targetClass := parentClass, direction := .manyToOne, writesReference := true,
    leadsToParent := true }

def isSingle (relation : Relation) : Bool :=
  relation.cardinality = .single

def isArray (relation : Relation) : Bool :=
  relation.cardinality = .array

/-- Whether the relation is stored on the other side only. -/
def isStoredElsewhere (relation : Relation) : Bool :=
  match relation.direction with
  | .manyToOne => true
  | .oneToOne => relation.mappedBy.isSome
  | .other => false

end Relation

end RecordMapping
