/-!
# Hierarchical keys

A key names an entity by its kind and identifier, below the complete keys of its ancestors. The
entity's own identifier may still be missing; an ancestor's may not, and the type says so.

## Main definitions

* `Key`: the ancestors, nearest first, and the key's own kind and identifier.
* `Key.path`: the same key read from the root down, one `Segment` per level.
* `Key.parent?`, `Key.root`, `Key.isAncestorOf`: the forest that keys form.
* `Key.display`: the text of a key in messages.
-/

namespace RecordMapping

/-- What tells apart the entities of one kind under one parent. -/
inductive Identifier where
  /-- A number assigned by the store. -/
  | id (value : Int64)
  /-- A name chosen by the application. -/
  | name (value : String)
deriving DecidableEq, Repr

/-- One level of a path read from the root; only the last one may lack its identifier. -/
structure Segment where
  kind : String
  identifier : Option Identifier
deriving DecidableEq, Repr

/-- An ancestor: a level whose identifier is known. -/
structure Ancestor where
  kind : String
  identifier : Identifier
deriving DecidableEq, Repr

/-- The key of an entity. -/
structure Key where
  /-- The levels above the entity, the parent first and the root last. -/
  ancestors : List Ancestor
  /-- The kind of the entity itself. -/
  kind : String
  /-- The identifier of the entity itself, missing while the store has yet to assign one. -/
  identifier : Option Identifier
deriving DecidableEq, Repr

/-- The level of a path that an ancestor fills. -/
def Ancestor.segment (ancestor : Ancestor) : Segment :=
  ⟨ancestor.kind, some ancestor.identifier⟩

/-- A level as it is written in messages. -/
def Segment.display (segment : Segment) : String :=
  match segment.identifier with
  | none => segment.kind ++ "(no-id-yet)"
  | some (.id value) => segment.kind ++ "(" ++ toString value.toInt ++ ")"
  | some (.name value) => segment.kind ++ "(\"" ++ value ++ "\")"

namespace Key

/-- A key is complete when its own identifier is known. -/
def isComplete (key : Key) : Bool :=
  key.identifier.isSome

/-- The number that identifies the entity, if it has one. -/
def id? (key : Key) : Option Int64 :=
  match key.identifier with
  | some (.id value) => some value
  | _ => none

/-- The name that identifies the entity, if it has one. -/
def name? (key : Key) : Option String :=
  match key.identifier with
  | some (.name value) => some value
  | _ => none

/-- The last level of the path. -/
def last (key : Key) : Segment :=
  ⟨key.kind, key.identifier⟩

/-- The levels of the key from the root down to the entity itself. -/
def path (key : Key) : List Segment :=
  (key.last :: key.ancestors.map Ancestor.segment).reverse

/-- The key one level up, or `none` for a root. -/
def parent? (key : Key) : Option Key :=
  match key.ancestors with
  | [] => none
  | parent :: rest => some ⟨rest, parent.kind, some parent.identifier⟩

/-- Whether there is a level above the entity. -/
def hasParent (key : Key) : Bool :=
  !key.ancestors.isEmpty

/-- The topmost key above the entity, or the key itself if it has no parent. -/
def root (key : Key) : Key :=
  match key.ancestors.getLast? with
  | none => ⟨[], key.kind, key.identifier⟩
  | some top => ⟨[], top.kind, some top.identifier⟩

/-- The ancestors of the children of a key: the key itself and its own ancestors. An incomplete
key can have no children. -/
def lineage? (key : Key) : Option (List Ancestor) :=
  key.identifier.map fun identifier => ⟨key.kind, identifier⟩ :: key.ancestors

/-- Whether `other` lies one or more levels below `key`. -/
def isAncestorOf (key other : Key) : Bool :=
  match key.lineage? with
  | none => false
  | some lineage => lineage.isSuffixOf other.ancestors

/-- The key as it is written in messages: its levels from the root down, divided by slashes. -/
def display (key : Key) : String :=
  "/".intercalate (key.path.map Segment.display)

/-- The key as it is written for programmers. -/
def debug (key : Key) : String :=
  "Key(" ++ key.display ++ ")"

end Key

end RecordMapping
