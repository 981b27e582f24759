import RecordMapping.Proofs.Draft.ChildKeys
import RecordMapping.Proofs.Draft.Registration

/-!
# Owners and children agree

An owner that resolves its relations registers its key for its children, and the draft of a child
takes it when it is placed in its entity group. The two sides meet in the registry only, yet they
agree: the child comes to lie right below the owner, whatever its own key is made of, and the
owner's check of its children accepts every key that the child has from then on.
-/

namespace RecordMapping

open Attempt

namespace Draft

variable {owner child : Draft} {parent key : Key} {relation : Relation} {registry : ParentRegistry}

/-! ## Placing a child -/

theorem joinParent_of_isComplete (sound : child.IsSound) (new : child.operation = .insert)
    (rootless : child.record.parent? = none) (complete : parent.isComplete) :
    ∃ key : Key, key.parent? = some parent ∧ key.kind = child.key.kind ∧
      key.identifier = child.key.identifier ∧
      child.joinParent parent = .ok
        { child with record := { child.record with key }, parentOrigin := some .registry } := by
  have valid : Kind.check child.record.kind = .ok () := by
    have kind : child.record.kind = child.schema.kind := sound.kind
    rw [kind]
    exact sound.valid new
  have first : child.parentOrigin = none := sound.parentOrigin_eq_none rootless
  by_cases known : child.key.isComplete = true
  · obtain ⟨key, moved⟩ := Key.movedUnder_of_isComplete child.key complete
    obtain ⟨kind, below, identifier⟩ := Key.movedUnder_ok moved
    refine ⟨key, below, kind, identifier, ?_⟩
    rw [joinParent, if_pos known, moved]
    exact rebase_of_insert new first kind
  · obtain ⟨key, built⟩ := Key.incomplete_of_isComplete valid complete
    obtain ⟨kind, below, missing⟩ := Key.incomplete_ok built
    have identifier : key.identifier = child.key.identifier := by
      rw [missing, Option.not_isSome_iff_eq_none.mp known]
    refine ⟨key, below, kind, identifier, ?_⟩
    rw [joinParent, if_neg known, built]
    exact rebase_of_insert new first kind

/-- A child takes the parent that is registered for it. The call gives that parent as the class
holds it, and only that can fail, when the draft has its parent already. -/
theorem placeInGroup_of_announced (new : child.operation = .insert)
    (rootless : child.record.parent? = none) (free : registry.isRoot child.object.id = false)
    (announced : registry.parent? child.object.id = some parent) {joined : Draft}
    (joins : child.joinParent parent = .ok joined) :
    placeInGroup.outcome (child, registry) =
      (joined.parentValue parent, joined, registry.forgetParent child.object.id) := by
  have seeks : child.seeksParent registry = true := by simp [seeksParent, new, free]
  have taken : placeInGroup (child, registry) =
      (liftM (joined.parentValue parent) : Attempt (Draft × ParentRegistry) (Option FieldValue))
        (joined, registry.forgetParent child.object.id) := by
    unfold placeInGroup
    rw [Attempt.get_bind]
    simp only [rootless, seeks, ↓reduceIte, announced, joins]
    rfl
  rw [outcome, taken]
  cases joined.parentValue parent <;> rfl

/-! ## The owner's check -/

theorem checkChild_of_parent (below : key.parent? = some owner.key) :
    owner.checkChild relation key = .ok () :=
  checkChild_of fun _ => below

theorem assignKey_ok {draft after : Draft} (assigned : draft.assignKey key = .ok after) :
    after.key = key := by
  unfold assignKey at assigned
  split at assigned
  case isTrue same =>
    obtain rfl := Except.ok.inj assigned
    exact same
  split at assigned
  case isTrue => contradiction
  split at assigned
  case isTrue => contradiction
  split at assigned
  case isTrue => contradiction
  case isFalse =>
    obtain ⟨-, rfl⟩ := rekey_ok assigned
    rfl

/-- A child that was placed below an owner: it keeps its kind and its identifier, and the owner's
check passes every key that it has or is given in whatever run of calls follows. -/
structure Joins (mapper : Mapper) (owner child joined : Draft) : Prop where
  parent : joined.record.parent? = some owner.key
  kind : joined.key.kind = child.key.kind
  identifier : joined.key.identifier = child.key.identifier
  passes : ∀ calls : List DraftCall, (∀ call ∈ calls, call.KeepsKeys) → ∀ count relation,
    owner.checkChild relation (joined.moment mapper calls count).key = .ok ()
  accepts : ∀ calls : List DraftCall, (∀ call ∈ calls, call.KeepsKeys) →
    ∀ count relation key after, (joined.moment mapper calls count).assignKey key = .ok after →
      owner.checkChild relation key = .ok ()

theorem joins_of_parent {mapper : Mapper} {joined : Draft}
    (parent : joined.record.parent? = some owner.key) (kind : joined.key.kind = child.key.kind)
    (identifier : joined.key.identifier = child.key.identifier) :
    Joins mapper owner child joined := by
  have stays (calls : List DraftCall) (modest : ∀ call ∈ calls, call.KeepsKeys) (count : Nat) :
      (joined.moment mapper calls count).record.parent? = some owner.key :=
    (moment_turn modest (Nat.zero_le count)).parent?_eq parent
  refine ⟨parent, kind, identifier, ?passes, ?accepts⟩
  case passes =>
    intro calls modest count relation
    exact checkChild_of_parent (stays calls modest count)
  case accepts =>
    intro calls modest count relation key after assigned
    have turn : Turn False (joined.moment mapper calls count) after :=
      (assignKey_governs : (keyLaw False fun _ => True).Governs _ _).of_ok assigned
    apply checkChild_of_parent
    rw [← assignKey_ok assigned]
    exact turn.parent?_eq (stays calls modest count)

end Draft

/-- **A new child joins the owner whose key is registered for it**, unless it was marked as owned by
none. Its draft may be opened in whatever mapper, and left without a parent by whatever calls. -/
theorem Draft.joins_of_announced {owner start : Draft} {object : Reference}
    {registry : ParentRegistry} {mapper : Mapper} {calls : List DraftCall}
    (complete : owner.key.isComplete) (announced : registry.parent? object.id = some owner.key)
    (free : registry.isRoot object.id = false) (opened : mapper.insert object = .ok start)
    (modest : ∀ call ∈ calls, call.KeepsKeys) (count : Nat)
    (rootless : (start.moment mapper calls count).record.parent? = none) :
    ∃ joined, Joins mapper owner (start.moment mapper calls count) joined ∧
      placeInGroup.outcome (start.moment mapper calls count, registry) =
        ((start.moment mapper calls count).parentValue owner.key, joined,
          registry.forgetParent object.id) := by
  have turn : Turn _ start (start.moment mapper calls count) :=
    moment_turn modest (Nat.zero_le count)
  have sound : (start.moment mapper calls count).IsSound :=
    moment_isSound (Mapper.Opens.isSound (.inl opened)) modest count
  obtain ⟨-, fresh, blank⟩ := Mapper.insert_ok opened
  generalize start.moment mapper calls count = draft at turn sound rootless ⊢
  have new : draft.operation = .insert := turn.operation.trans blank.new
  have same : draft.object = object := turn.object.trans fresh
  obtain ⟨key, below, kind, identifier, joins⟩ :=
    joinParent_of_isComplete sound new rootless complete
  refine ⟨{ draft with record := { draft.record with key }, parentOrigin := some .registry },
    joins_of_parent below kind identifier, ?_⟩
  rw [← same] at free announced ⊢
  exact placeInGroup_of_announced new rootless free announced joins

namespace Mapper

variable {World : Type} {mapper : Mapper} {framework : Framework World} {owner : Draft}
  {world : World} {registry left : ParentRegistry}

/-- **Owner and child agree through the registry.** After a pass of registration that succeeds, the
registry names the owner's key for each of its children. A draft for such a child, opened in
whatever mapper and left without a parent by whatever calls, comes to lie right below the owner when
it is placed, unless the child was marked as owned by none. It keeps its kind and its identifier,
and from then on the owner accepts its keys. What the registry says of objects that the owner does
not refer to stays as it was. -/
theorem child_joins_owner (complete : owner.key.isComplete)
    (passed : mapper.registerFields owner (framework.fieldValue world owner.object) registry =
      .ok () left) :
    (∀ child, owner.Owns (framework.fieldValue world owner.object) child →
      left.parent? child.id = some owner.key ∧
      (left.isRoot child.id = false →
        ∀ (childMapper : Mapper) (start : Draft) (calls : List DraftCall) (count : Nat),
          childMapper.insert child = .ok start → (∀ call ∈ calls, call.KeepsKeys) →
          let draft := start.moment childMapper calls count
          draft.record.parent? = none →
          ∃ joined, Draft.Joins childMapper owner draft joined ∧
            Draft.placeInGroup.outcome (draft, left) =
              (draft.parentValue owner.key, joined, left.forgetParent child.id))) ∧
    (∀ id, ¬ owner.Knows (framework.fieldValue world owner.object) id →
      left.parent? id = registry.parent? id ∧ left.isRoot id = registry.isRoot id) := by
  constructor
  · intro child held
    have announced : left.parent? child.id = some owner.key := registerFields_announces passed held
    refine ⟨announced, ?_⟩
    intro free childMapper start calls count opened modest draft rootless
    exact Draft.joins_of_announced complete announced free opened modest count rootless
  · intro id foreign
    have noted : ParentRegistry.Gains _ _ registry left := registerFields_notes.of_ok passed
    exact noted.unchanged foreign

/-- A book with the id 7 joins the library that refers to it and keeps its id there. -/
theorem child_joins_owner_book :
    let calls : List DraftCall := [.fillField (fun _ => none) 0 (.int 7)]
    let draft := newBook.moment bookMapper calls 1
    let left : ParentRegistry := { parents := [(book.id, library)] }
    bookMapper.registerFields libraryWithBooks
        (flushingFramework.fieldValue none libraryWithBooks.object) {} = .ok () left ∧
      left.parent? book.id = some library ∧
      ∃ joined, Draft.Joins bookMapper libraryWithBooks draft joined ∧
        joined.key.identifier = some (.id 7) ∧
        Draft.placeInGroup.outcome (draft, left) =
          (.ok (some (.key library)), joined, left.forgetParent book.id) := by
  intro calls draft left
  have passed : bookMapper.registerFields libraryWithBooks
      (flushingFramework.fieldValue none libraryWithBooks.object) {} = .ok () left := rfl
  have held : libraryWithBooks.Owns
      (flushingFramework.fieldValue none libraryWithBooks.object) book := by
    refine ⟨.collection "Book", ⟨1, booksField, .list [.object book], rfl, rfl, rfl, rfl, ?_⟩,
      rfl, rfl⟩
    exact .inr ⟨_, rfl, _, List.mem_singleton_self _, rfl⟩
  have modest : ∀ call ∈ calls, call.KeepsKeys := by simp [calls, DraftCall.KeepsKeys]
  obtain ⟨announced, joining⟩ := (child_joins_owner rfl passed).1 book held
  obtain ⟨joined, joins, placed⟩ := joining rfl bookMapper newBook calls 1 rfl modest rfl
  exact ⟨passed, announced, joined, joins, joins.identifier, placed⟩

end Mapper

end RecordMapping
