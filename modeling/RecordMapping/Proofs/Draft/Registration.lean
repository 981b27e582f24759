import Mathlib.Data.List.Basic
import RecordMapping.Draft.Resolution
import RecordMapping.Proofs.Attempt
import RecordMapping.Proofs.ParentRegistry

/-!
# What the registration of related objects leaves in the registry

Before relations are resolved, the objects of all relation fields of the owner's class are noted in
the registry of parents. Later fields may note the same objects again, but never under another key.
So a pass that succeeds leaves every owned child registered under the owner's key, and a pass that
fails has at least touched no object that the owner does not refer to.
-/

namespace RecordMapping

open Attempt

/-! ## The objects of relation fields -/

/-- Whether a value refers to an object, directly or as an item of a list, in any wrappers. -/
def FieldValue.RefersTo (value : FieldValue) (object : Reference) : Prop :=
  value.bare = .object object ∨
    ∃ items, value.bare = .list items ∧ ∃ item ∈ items, item.bare = .object object

theorem FieldValue.object?_eq_some_iff {value : FieldValue} {object : Reference} :
    value.object? = some object ↔ value.bare = .object object := by
  unfold object?
  split
  case h_1 target found => simp [found]
  case h_2 other => simpa using other object

theorem FieldValue.referents_of_object {value : FieldValue} {object : Reference}
    (held : value.bare = .object object) : value.referents = [object] := by
  rw [referents, held]

theorem FieldValue.referents_of_list {value : FieldValue} {items : List FieldValue}
    (held : value.bare = .list items) : value.referents = items.filterMap object? := by
  rw [referents, held]

theorem FieldValue.mem_referents_iff {value : FieldValue} {object : Reference} :
    object ∈ value.referents ↔ value.RefersTo object := by
  unfold referents RefersTo
  split
  case h_1 target found => simp [found, eq_comm]
  case h_2 items found => simp [found, object?_eq_some_iff]
  case h_3 single several =>
    constructor
    · exact (List.not_mem_nil · |>.elim)
    · rintro (found | ⟨items, found, -⟩)
      · exact (single object found).elim
      · exact (several items found).elim

theorem ClassSchema.field_eq_ok_iff {schema : Schema} {position : Nat} {field : Field} :
    schema.field position = .ok field ↔ schema.fields[position]? = some field := by
  unfold ClassSchema.field
  split <;> simp_all

theorem ClassSchema.mem_positionsOf_iff {schema : Schema} {role : Role} {position : Nat} :
    position ∈ schema.positionsOf role ↔
      ∃ field, schema.fields[position]? = some field ∧ field.role = role := by
  simp only [positionsOf, List.mem_filter, List.mem_range, Option.any_eq_true, decide_eq_true_eq]
  constructor
  · rintro ⟨-, field, found, plays⟩
    exact ⟨field, found, plays⟩
  · rintro ⟨field, found, plays⟩
    exact ⟨(List.getElem?_eq_some_iff.mp found).1, field, found, plays⟩

namespace Draft

/-- Whether a relation field of the owner's class, with the values that are provided, refers to an
object. -/
def Relates (owner : Draft) (provide : Nat → Outcome FieldValue) (relation : Relation)
    (object : Reference) : Prop :=
  ∃ position field value, owner.schema.fields[position]? = some field ∧ field.role = .relation ∧
    field.relation = some relation ∧ provide position = .ok value ∧ value.RefersTo object

/-- Whether an object is a child of the owner: one that it refers to in a relation that owns its
objects, unless the object is the owner's own parent. -/
def Owns (owner : Draft) (provide : Nat → Outcome FieldValue) (child : Reference) : Prop :=
  ∃ relation, owner.Relates provide relation child ∧ relation.owned = true ∧
    relation.leadsToParent = false

/-- Whether the owner refers to an object of the given identity. -/
def Knows (owner : Draft) (provide : Nat → Outcome FieldValue) (id : Identity) : Prop :=
  ∃ relation object, owner.Relates provide relation object ∧ object.id = id

end Draft

/-- The law of noting objects under a key. -/
def ParentRegistry.noting (key : Key) (noted : Identity → Prop) : Law ParentRegistry where
  allows := Gains key noted
  reports _ _ := True
  refl _ := .refl
  trans := .trans
  carry _ _ := trivial

namespace Mapper

variable {mapper : Mapper} {owner : Draft} {provide : Nat → Outcome FieldValue} {key : Key}
  {relation : Relation} {related : List Reference} {noted : Identity → Prop} {child : Reference}
  {registry left : ParentRegistry}

/-! ## One relation -/

/-- Registers one child. -/
def registerChild (mapper : Mapper) (key : Key) (relation : Relation) (child : Reference) :
    Attempt ParentRegistry Unit := do
  mapper.checkTarget relation child
  modify fun registry => registry.announce child.id key

theorem registerRelated_of_owned (owned : relation.owned = true)
    (below : relation.leadsToParent = false) :
    mapper.registerRelated key relation related =
      each related (mapper.registerChild key relation) := by
  unfold registerRelated
  rw [owned, below]
  rfl

theorem registerChild_notes (among : noted child.id) :
    (mapper.registerChild key relation child).Keeps (ParentRegistry.noting key noted) registry := by
  apply keeps_outcome_bind fun _ _ => trivial
  intro _ _
  exact keeps_modify (.announce among)

theorem registerChild_gives (done : (mapper.registerChild key relation child).Gives registry () left) :
    left.parent? child.id = some key := by
  obtain ⟨_, _, -, announced⟩ := done.bind
  obtain ⟨-, rfl⟩ := EStateM.Result.ok.inj announced
  exact ParentRegistry.parent?_announce_self

theorem gains_markRoots (among : ∀ object ∈ related, noted object.id) :
    ParentRegistry.Gains key noted registry
      (related.foldl (fun registry object => registry.markRoot object.id) registry) := by
  induction related generalizing registry with
  | nil => exact .refl
  | cons object rest ih =>
      obtain ⟨first, others⟩ := List.forall_mem_cons.mp among
      exact (ParentRegistry.Gains.markRoot first).trans (ih others)

theorem registerRelated_notes (among : ∀ object ∈ related, noted object.id) :
    (mapper.registerRelated key relation related).Keeps (ParentRegistry.noting key noted)
      registry := by
  by_cases owned : relation.owned = true
  · by_cases above : relation.leadsToParent = true
    · unfold registerRelated
      rw [owned, above]
      exact keeps_pure ()
    · rw [registerRelated_of_owned owned (eq_false_of_ne_true above)]
      apply keeps_each
      intro child member _
      exact registerChild_notes (among child member)
  · unfold registerRelated
    rw [eq_false_of_ne_true owned]
    exact keeps_modify (gains_markRoots among)

/-- Each child is registered, and what is noted after it leaves it so. -/
theorem registerRelated_announces (owned : relation.owned = true)
    (below : relation.leadsToParent = false)
    (done : (mapper.registerRelated key relation related).Gives registry () left)
    (member : child ∈ related) : left.parent? child.id = some key := by
  rw [registerRelated_of_owned owned below] at done
  have keeps : ∀ object ∈ related, ∀ registry, (mapper.registerChild key relation object).Keeps
      (ParentRegistry.noting key fun _ => True) registry :=
    fun _ _ _ => registerChild_notes trivial
  obtain ⟨before, after, -, announced, later⟩ := done.each_mem keeps member
  exact later.parent?_eq (registerChild_gives announced)

/-! ## All relation fields -/

theorem registerField_notes {position : Nat}
    (listed : position ∈ owner.schema.positionsOf .relation) :
    (mapper.registerField owner provide position).Keeps
      (ParentRegistry.noting owner.key (owner.Knows provide)) registry := by
  unfold registerField
  apply keeps_outcome_bind fun _ _ => trivial
  intro field found
  split
  · exact keeps_pure ()
  case h_2 relation related =>
    apply keeps_outcome_bind fun _ _ => trivial
    intro value provided
    apply registerRelated_notes
    intro object member
    obtain ⟨same, read, plays⟩ := ClassSchema.mem_positionsOf_iff.mp listed
    rw [ClassSchema.field_eq_ok_iff] at found
    obtain rfl := Option.some.inj (found.symm.trans read)
    have refers : value.RefersTo object := FieldValue.mem_referents_iff.mp member
    exact ⟨relation, object, ⟨position, field, value, read, plays, related, provided, refers⟩, rfl⟩

theorem registerFields_notes :
    (mapper.registerFields owner provide).Keeps
      (ParentRegistry.noting owner.key (owner.Knows provide)) registry :=
  keeps_each fun _ listed _ => registerField_notes listed

/-- **A pass that succeeds registers every child under the owner's key.** -/
theorem registerFields_announces
    (passed : (mapper.registerFields owner provide).Gives registry () left)
    (held : owner.Owns provide child) : left.parent? child.id = some owner.key := by
  obtain ⟨relation, relates, owned, below⟩ := held
  obtain ⟨position, field, value, read, plays, related, provided, refers⟩ := relates
  have listed : position ∈ owner.schema.positionsOf .relation :=
    ClassSchema.mem_positionsOf_iff.mpr ⟨field, read, plays⟩
  obtain ⟨before, after, -, registered, later⟩ :=
    Gives.each_mem passed (fun _ listed _ => registerField_notes listed) listed
  apply later.parent?_eq
  obtain ⟨_, _, asked, rest⟩ := registered.bind
  obtain ⟨found, rfl⟩ := asked.lift
  rw [ClassSchema.field_eq_ok_iff] at found
  obtain rfl := Option.some.inj (found.symm.trans read)
  rw [related] at rest
  obtain ⟨_, _, asked, registering⟩ := rest.bind
  obtain ⟨given, rfl⟩ := asked.lift
  obtain rfl := Except.ok.inj (given.symm.trans provided)
  exact registerRelated_announces owned below registering (FieldValue.mem_referents_iff.mpr refers)

end Mapper

end RecordMapping
