import RecordMapping.Proofs.Draft.Idleness
import RecordMapping.Proofs.Draft.Registration

/-!
# Saving again

A record whose relations were resolved is opened again, the same relations are noted, and they are
resolved once more. As long as the framework provides the same values and objects are as the first
pass saw them, the second pass changes nothing and has nothing stored
(`Mapper.resave_changes_nothing`).

Mappings that write references of their own check the keys of owned objects before any key is
written, those of deleted objects and of relations that are skipped as well. Of such an object the
first pass may have seen no key. Then its key must not change, which does not follow from what the
pass saw (`Mapper.not_resave_of_passport`).
-/

namespace RecordMapping

open Attempt

variable {World : Type} {framework : Framework World} {mapper : Mapper}

/-! ## Noting the relations of a class -/

/-- Whether relation fields are relations in every respect: neither packed nor embedded, and written
to known records. -/
def ClassSchema.RelatesPlainly (schema : Schema) : Prop :=
  ∀ field ∈ schema.fields, field.role = .relation →
    field.isUpdateable = true ∧ field.isPacked = false ∧ field.embedding = none

theorem Field.exists_relation_of_role {field : Field} (plays : field.role = .relation) :
    ∃ relation, field.relation = some relation := by
  unfold role at plays
  split at plays
  · contradiction
  split at plays
  · contradiction
  split at plays
  · contradiction
  split at plays
  · contradiction
  split at plays
  case isTrue relates => exact Option.isSome_iff_exists.mp relates
  case isFalse => contradiction

namespace Mapper

/-- What the field at a position notes. -/
def notedAt (mapper : Mapper) (schema : Schema) (provide : Nat → FieldValue) (position : Nat) :
    Option Pending :=
  schema.fields[position]?.bind fun field =>
    mapper.notedOf ⟨none, position, field, provide position⟩

/-- What all relation fields of a class note. -/
def notedBy (mapper : Mapper) (schema : Schema) (provide : Nat → FieldValue) : List Pending :=
  (schema.positionsOf .relation).filterMap (mapper.notedAt schema provide)

variable {draft : Draft} {knownKey : Reference → Option Key} {provide : Nat → FieldValue}
  {provided : Nat → Outcome FieldValue} {position : Nat} {positions : List Nat}

/-- In a known record a relation is noted, and nothing is stored of it yet. -/
theorem fillField_notes (plain : draft.schema.RelatesPlainly) (updates : draft.operation = .update)
    (listed : position ∈ draft.schema.positionsOf .relation) :
    mapper.fillField knownKey position (provide position) draft =
      .ok () (draft.noting (mapper.notedAt draft.schema provide position)) := by
  obtain ⟨field, found, plays⟩ := ClassSchema.mem_positionsOf_iff.mp listed
  obtain ⟨updateable, unpacked, bare⟩ := plain field (List.mem_of_getElem? found) plays
  obtain ⟨relation, relates⟩ := Field.exists_relation_of_role plays
  have written : field.isWrittenBy draft.operation = true := by rw [updates]; exact updateable
  have later : mapper.storesAtOnce draft.operation relation = false := by
    simp only [storesAtOnce, updates, reduceCtorEq, decide_false, Bool.and_false, Bool.false_and]
  have storesNothing : mapper.putOf knownKey draft ⟨none, position, field, provide position⟩ =
      .ok none := by
    simp only [putOf, unpacked, relates, later, Bool.false_eq_true, ↓reduceIte]
    rfl
  have noted : mapper.notedAt draft.schema provide position =
      mapper.notedOf ⟨none, position, field, provide position⟩ := by
    rw [notedAt, found]
    rfl
  rw [fillField_eq (ClassSchema.field_eq_ok_iff.mpr found), plays]
  change mapper.storeField knownKey none position field (provide position) draft = _
  rw [storeField_eq_each, Field.leaves_of_bare bare, if_pos written, each_singleton, noted]
  change mapper.storeLeaf knownKey none position field (provide position) draft = _
  rw [storeLeaf_eq mapper knownKey ⟨none, position, field, provide position⟩, storesNothing]
  rfl

theorem fillFields_notes (mapper : Mapper) (knownKey : Reference → Option Key) (draft : Draft)
    (plain : draft.schema.RelatesPlainly) (updates : draft.operation = .update)
    (listed : ∀ position ∈ positions, position ∈ draft.schema.positionsOf .relation ∧
      provided position = .ok (provide position)) :
    mapper.fillFields knownKey provided positions draft =
      .ok () { draft with
        pending := draft.pending ++ positions.filterMap (mapper.notedAt draft.schema provide) } := by
  induction positions generalizing draft with
  | nil =>
      rw [List.filterMap_nil, List.append_nil]
      rfl
  | cons position rest ih =>
      obtain ⟨⟨among, given⟩, others⟩ := List.forall_mem_cons.mp listed
      have later := ih (draft.noting (mapper.notedAt draft.schema provide position)) plain updates
        others
      rw [fillFields_cons_of_ok given (fillField_notes plain updates among), later]
      cases noted : mapper.notedAt draft.schema provide position with
      | none => simp [Draft.noting, noted]
      | some pending => simp [Draft.noting, noted]

/-! ## The first pass -/

/-- What a pass sees of the objects whose keys it writes. -/
def sightings (mapper : Mapper) (framework : Framework World) (space : Workspace World) :
    List Sighting :=
  match mapper.prepare framework space.draft.pending
      { space with draft := { space.draft with pending := [] } } with
  | .ok _ ready =>
      Draft.allSightings framework ready.draft (mapper.unskipped space.draft) ready.surroundings
  | .error _ _ => []

variable {space ready final : Workspace World} {noted : List Pending} {changed : Bool}

theorem prepare_keeps (keepsKeys : framework.KeepsKeys) :
    (mapper.prepare framework noted).Keeps framework.resolving space := by
  unfold prepare
  apply keeps_get_bind
  apply keeps_bind registerAll_keeps
  intro _ _ _
  apply keeps_bind (writeReferences_keeps keepsKeys)
  exact fun _ _ _ => notifyAll_keeps

end Mapper

/-- A reference that was written in a pass was checked just before. -/
theorem Draft.writeReference_checks {pending : Pending} {space next : Workspace (Logged World)}
    (owned : pending.relation.owned = true)
    (done : (writeReference framework.logging pending).tolerant.Gives space () next) :
    ∃ entry ∈ next.log, space.draft.checkChildren (framework.knownKey entry.world)
      pending.relation pending.value = .ok () := by
  rw [Gives, tolerant_writeReference] at done
  simp only [owned, ↓reduceIte] at done
  obtain ⟨_, _, checked, written⟩ := Gives.bind done
  obtain ⟨passed, rfl⟩ := checked.lift
  obtain ⟨left, noted, rfl⟩ := Gives.onPart written
  obtain ⟨entry, member, here⟩ := Recorder.onRecord.note_tolerant_gives rfl noted
  refine ⟨entry, member, ?_⟩
  rw [here]
  exact passed

namespace Mapper

variable {final : Workspace World} {noted : List Pending} {changed : Bool} {draft : Draft}
  {around : Surroundings World} {pending : Pending}

theorem prepare_checks (keepsKeys : framework.KeepsKeys) {space ready : Workspace (Logged World)}
    (done : (mapper.prepare framework.logging noted).Gives space () ready)
    (member : pending ∈ noted) (writes : Draft.writesReference pending = true)
    (owned : pending.relation.owned = true) :
    ∃ entry ∈ ready.log, space.draft.checkChildren (framework.knownKey entry.world)
      pending.relation pending.value = .ok () := by
  unfold prepare at done
  obtain ⟨_, registered, registering, rest⟩ := done.get_bind.bind
  obtain ⟨_, referenced, referencing, notifying⟩ := rest.bind
  obtain ⟨before, after, toBefore, written, toReferenced⟩ := referencing.each_mem
    (fun _ _ _ => keeps_tolerant (Draft.writeReference_keeps keepsKeys.logging))
    (List.mem_filter.mpr ⟨member, writes⟩)
  obtain ⟨entry, among, passed⟩ := Draft.writeReference_checks owned written
  have sameKey : before.draft.key = space.draft.key :=
    toBefore.2.key.trans (registerAll_keeps.of_ok registering).2.key
  have toReady : after.log <+: ready.log :=
    (toReferenced.1.trans (notifyAll_keeps.of_ok notifying).1).log_grows
  rw [Draft.checkChildren_eq_of_key sameKey] at passed
  exact ⟨entry, toReady.mem among, passed⟩

theorem loggedRun_gives (done : (mapper.resolve framework).Gives ⟨draft, around⟩ changed final) :
    (mapper.resolve framework.logging).Gives ⟨draft, around.unlogged⟩ changed
      (mapper.loggedRun framework draft around).2 := by
  have runs := resolve_logging mapper framework ⟨draft, around.unlogged⟩
  have bare : Workspace.forgetful ⟨draft, around.unlogged⟩ = ⟨draft, around⟩ := rfl
  rw [bare, done.outcome] at runs
  exact gives_of_outcome (congrArg Prod.fst runs).symm

/-- In a pass that succeeds, each reference of a relation that owns its objects was checked. -/
theorem resolve_checks (keepsKeys : framework.KeepsKeys)
    (done : (mapper.resolve framework).Gives ⟨draft, around⟩ changed final)
    (member : pending ∈ draft.pending) (writes : Draft.writesReference pending = true)
    (owned : pending.relation.owned = true) :
    ∃ entry ∈ (mapper.loggedRun framework draft around).2.log,
      draft.checkChildren (framework.knownKey entry.world) pending.relation pending.value =
        .ok () := by
  obtain ⟨-, ready, prepared, written⟩ :=
    resolve_parts (List.ne_nil_of_mem member) (loggedRun_gives done)
  obtain ⟨entry, among, passed⟩ := prepare_checks keepsKeys prepared member writes owned
  have toEnd : ready.log <+: (mapper.loggedRun framework draft around).2.log :=
    (Draft.writeAllChildKeys_keeps.of_ok written).1.log_grows
  have sameKey : Draft.key { draft with pending := [] } = draft.key := rfl
  rw [Draft.checkChildren_eq_of_key sameKey] at passed
  exact ⟨entry, toEnd.mem among, passed⟩

end Mapper

/-! ## What stays -/

/-- A first pass that succeeds: the relations of the class, and no others, were noted once, with the
values that the framework provides. -/
structure Mapper.Saves (mapper : Mapper) (framework : Framework World) (provide : Nat → FieldValue)
    (space final : Workspace World) : Prop where
  reached : ∃ start calls count, mapper.Opens space.draft.object start ∧
    (∀ call ∈ calls, DraftCall.KeepsKeys call) ∧ space.draft = start.moment mapper calls count
  plain : space.draft.schema.RelatesPlainly
  distinct : ((mapper.notedBy space.draft.schema provide).map Pending.property).Nodup
  noted : space.draft.pending.Perm (mapper.notedBy space.draft.schema provide)
  provided : ∀ position ∈ space.draft.schema.positionsOf .relation,
    framework.fieldValue space.world space.draft.object position = .ok (provide position)
  keepsKeys : framework.KeepsKeys
  succeeded : ∃ changed, (mapper.resolve framework).Gives space changed final

/-- What stays as a pass saw it, among the worlds that a later pass may find. The objects that keep
their keys have had them throughout the pass. -/
structure Mapper.Lasts (mapper : Mapper) (framework : Framework World) (provide : Nat → FieldValue)
    (space : Workspace World) (keeping : Reference → Prop) (among : World → Prop) : Prop where
  calm : framework.Calm among
  provides : ∀ world, among world → ∀ position ∈ space.draft.schema.positionsOf .relation,
    framework.fieldValue world space.draft.object position = .ok (provide position)
  sees : ∀ world, among world →
    ∀ sighting ∈ mapper.sightings framework space, sighting.Holds framework world
  keeps : ∀ object, keeping object → ∃ key,
    (∀ entry ∈ (mapper.loggedRun framework space.draft space.surroundings).2.log,
      framework.knownKey entry.world object = key) ∧
      ∀ world, among world → framework.knownKey world object = key

/-- Whether a mapping that writes a reference of its own checks an object, and the pass used no key
for it in a relation that owns its objects. -/
def Mapper.ChecksOnly (mapper : Mapper) (framework : Framework World) (space : Workspace World)
    (object : Reference) : Prop :=
  (∃ pending ∈ space.draft.pending, Draft.writesReference pending = true ∧
    pending.relation.owned = true ∧ object ∈ pending.value.referents) ∧
  ∀ sighting ∈ mapper.sightings framework space, sighting.object = object →
    sighting.relation.owned = true → sighting.key = none

/-- The draft of the record once more, with the same relations noted in any order. -/
def Draft.again (draft : Draft) (record : Record) (noted : List Pending) : Draft where
  object := draft.object
  schema := draft.schema
  operation := .update
  record
  pending := noted

namespace Mapper

variable {space final : Workspace World} {provide : Nat → FieldValue} {among : World → Prop}
  {pending : Pending}

theorem Saves.sightings_below (saves : mapper.Saves framework provide space final)
    {sighting : Sighting} {key : Key} (seen : sighting ∈ mapper.sightings framework space)
    (owned : sighting.relation.owned = true) (used : sighting.key = some key) :
    key.parent? = some space.draft.key := by
  unfold sightings at seen
  split at seen
  case h_1 ready prepared =>
    have sameKey := ((prepare_keeps saves.keepsKeys).of_ok prepared).2.key
    exact (Draft.allSightings_below seen owned used).trans (congrArg some sameKey)
  case h_2 => exact (List.not_mem_nil seen).elim

/-- What a reference checks is in its place, because the pass used its key there or because it was so
in the pass. -/
theorem Saves.passes (saves : mapper.Saves framework provide space final)
    (lasts : mapper.Lasts framework provide space (mapper.ChecksOnly framework space) among)
    (member : pending ∈ space.draft.pending) (writes : Draft.writesReference pending = true)
    (owned : pending.relation.owned = true) {world : World} (there : among world) :
    space.draft.checkChildren (framework.knownKey world) pending.relation pending.value = .ok () := by
  obtain ⟨changed, done⟩ := saves.succeeded
  rw [Draft.checkChildren_ok_iff]
  intro child refers known held
  by_cases only : mapper.ChecksOnly framework space child
  · obtain ⟨constant, before, after⟩ := lasts.keeps child only
    obtain ⟨entry, logged, passed⟩ := resolve_checks saves.keepsKeys done member writes owned
    have same : framework.knownKey entry.world child = some known :=
      ((before entry logged).trans (after world there).symm).trans held
    exact Draft.checkChildren_ok_iff.mp passed child refers known same
  · obtain ⟨sighting, seen, rfl, owns, keyed⟩ : ∃ sighting ∈ mapper.sightings framework space,
        sighting.object = child ∧ sighting.relation.owned = true ∧ sighting.key ≠ none := by
      by_contra unseen
      push Not at unseen
      exact only ⟨⟨pending, member, writes, owned, refers⟩, unseen⟩
    obtain ⟨used, found⟩ := Option.ne_none_iff_exists'.mp keyed
    have below : used.parent? = some space.draft.key := saves.sightings_below seen owns found
    have holds := lasts.sees world there sighting seen
    rw [Sighting.Holds, found] at holds
    obtain rfl := Option.some.inj (holds.2.symm.trans held)
    exact Draft.checkChild_of fun _ => below

/-- What the record holds of a relation was stored when its objects were as the pass saw them. -/
theorem Saves.stores (saves : mapper.Saves framework provide space final)
    (member : pending ∈ mapper.unskipped space.draft) :
    ∃ start value finish,
      (Draft.childKeys framework space.draft pending).Gives start value finish ∧
      (∀ sighting ∈ Draft.sightings framework space.draft pending.relation
        pending.value.referents start, sighting ∈ mapper.sightings framework space) ∧
      final.draft.record.get? pending.property = some value := by
  obtain ⟨changed, done⟩ := saves.succeeded
  obtain ⟨-, ready, prepared, written⟩ :=
    resolve_parts (List.ne_nil_of_mem (List.mem_filter.mp member).1) done
  have continues := ((prepare_keeps saves.keepsKeys).of_ok prepared).2
  have key : ready.draft.key = space.draft.key := continues.key
  have schema : ready.draft.schema = space.draft.schema := continues.schema
  have object : ready.draft.object = space.draft.object := continues.object
  have distinct : ((mapper.unskipped space.draft).map Pending.property).Nodup :=
    ((saves.noted.map Pending.property).nodup_iff.mpr saves.distinct).sublist
      (List.filter_sublist.map Pending.property)
  obtain ⟨start, value, finish, collected, seen, held⟩ :=
    Draft.writeAllChildKeys_stores distinct written member
  rw [Draft.childKeys_congr key schema object] at collected
  rw [Draft.sightings_congr key] at seen
  refine ⟨start, value, finish, collected, fun sighting listed => ?_, held⟩
  rw [sightings, prepared]
  exact seen sighting listed

/-- What the first pass left is held when the same relations are noted again. -/
theorem Saves.holds (saves : mapper.Saves framework provide space final)
    (lasts : mapper.Lasts framework provide space (mapper.ChecksOnly framework space) among)
    {relations : List Pending} (noted : relations.Perm space.draft.pending)
    {later : Logged World → Prop} (inside : ∀ logged, later logged → among logged.world) :
    mapper.Holds framework.logging (space.draft.again final.draft.record relations) later := by
  obtain ⟨changed, done⟩ := saves.succeeded
  have key : (space.draft.again final.draft.record relations).key = space.draft.key :=
    ((resolve_keeps saves.keepsKeys).of_ok done).2.key
  have schema : (space.draft.again final.draft.record relations).schema = space.draft.schema := rfl
  have waiting : relations ≠ [] → space.draft.pending ≠ [] := by
    intro waits empty
    rw [empty] at noted
    exact waits noted.eq_nil
  constructor
  case complete =>
    intro waits
    rw [key]
    exact (resolve_parts (waiting waits) done).1
  case registers =>
    intro waits logged there
    obtain ⟨-, ready, prepared, -⟩ := resolve_parts (waiting waits) done
    refine ⟨space.surroundings.registry, ready.surroundings.registry, ?_⟩
    rw [← prepare_registers prepared]
    refine congrFun (registerFields_congr schema key fun position listed => ?_) _
    exact (lasts.provides _ (inside logged there) position listed).trans
      (saves.provided position listed).symm
  case passes =>
    intro pending member writes owned logged there
    rw [Draft.checkChildren_eq_of_key key]
    exact saves.passes lasts (noted.mem_iff.mp member) writes owned (inside logged there)
  case stored =>
    intro pending member
    obtain ⟨here, unskipped⟩ := List.mem_filter.mp member
    obtain ⟨start, value, finish, collected, seen, held⟩ :=
      saves.stores (List.mem_filter.mpr ⟨noted.mem_iff.mp here, unskipped⟩)
    refine ⟨value, held, fun around there => ?_⟩
    apply Draft.childKeys_replay collected key schema
    intro sighting listed
    exact lasts.sees around.world.world (inside _ there) sighting (seen sighting listed)

/-- The record that a pass left can be opened again. -/
theorem Saves.opens (saves : mapper.Saves framework provide space final) :
    mapper.update space.draft.object final.draft.record =
      .ok (space.draft.again final.draft.record []) := by
  obtain ⟨start, calls, count, opened, modest, moment⟩ := saves.reached
  obtain ⟨changed, done⟩ := saves.succeeded
  have sameSchema : space.draft.schema = start.schema := by
    rw [moment]
    exact (Draft.moment_turn modest (Nat.zero_le count)).schema
  have schema : mapper.schema space.draft.object.className = .ok space.draft.schema := by
    rw [opened.schema, sameSchema]
  have kind : final.draft.record.kind = space.draft.schema.kind := by
    have sameKey := ((resolve_keeps saves.keepsKeys).of_ok done).2.key
    have sound : space.draft.IsSound := by
      rw [moment]
      exact Draft.moment_isSound opened.isSound modest count
    exact (congrArg Key.kind sameKey).trans sound.kind
  simp only [update, schema, bind_eq_ok_iff]
  exact ⟨_, rfl, if_pos kind⟩

end Mapper

/-! ## The second pass -/

theorem Framework.Calm.logging {among : World → Prop} (calm : framework.Calm among) :
    framework.logging.Calm fun logged =>
      among logged.world ∧ ∀ entry ∈ logged.log, entry.request.stores = false where
  writeReference owner field value record logged there := by
    obtain ⟨world, written, next⟩ := calm.writeReference owner field value record logged.world there.1
    obtain ⟨entry, asked, noted⟩ :=
      Recorder.onRecord.note_tolerant_of_ok (.writeReference owner field value)
        (record, logged) rfl written
    refine ⟨⟨world, logged.log ++ [entry]⟩, noted, next, ?_⟩
    exact List.forall_mem_append.mpr ⟨there.2, by simp [asked, Request.stores]⟩
  updated owner field logged there := by
    obtain ⟨world, heard, next⟩ := calm.updated owner field logged.world there.1
    obtain ⟨entry, asked, noted⟩ :=
      Recorder.onWorld.note_tolerant_of_ok (.updated owner field) logged rfl heard
    refine ⟨⟨world, logged.log ++ [entry]⟩, noted, next, ?_⟩
    exact List.forall_mem_append.mpr ⟨there.2, by simp [asked, Request.stores]⟩

namespace Mapper

variable {space final : Workspace World} {provide : Nat → FieldValue} {among : World → Prop}

/-- **Saving again with nothing changed changes nothing.** The record that a pass left is opened
again and its relations are noted, in any order. In every world that is as the pass saw it, resolving
them tells of no change, leaves the record as it is and has no object stored or replaced. -/
theorem resave_changes_nothing (saves : mapper.Saves framework provide space final)
    (lasts : mapper.Lasts framework provide space (mapper.ChecksOnly framework space) among) :
    ∃ opened, mapper.update space.draft.object final.draft.record = .ok opened ∧
      ∀ (knownKey : Reference → Option Key) (provided : Nat → Outcome FieldValue)
        (positions : List Nat), positions.Perm (opened.schema.positionsOf .relation) →
        (∀ position ∈ positions, provided position = .ok (provide position)) →
          ∃ filled, mapper.fillFields knownKey provided positions opened = .ok () filled ∧
            ∀ around : Surroundings World, among around.world →
              ∃ left, mapper.resolve framework ⟨filled, around⟩ = .ok false left ∧
                left.draft.record = final.draft.record ∧
                ∀ entry ∈ (mapper.loggedRun framework filled around).2.log,
                  entry.request.stores = false := by
  refine ⟨_, saves.opens, ?_⟩
  intro knownKey provided positions ordered given
  have noted : (positions.filterMap (mapper.notedAt space.draft.schema provide)).Perm
      space.draft.pending := (ordered.filterMap _).trans saves.noted.symm
  refine ⟨space.draft.again final.draft.record
    (positions.filterMap (mapper.notedAt space.draft.schema provide)), ?_, ?_⟩
  · exact fillFields_notes mapper knownKey (space.draft.again final.draft.record []) saves.plain rfl
      fun position member => ⟨ordered.mem_iff.mp member, given position member⟩
  · intro around here
    obtain ⟨left, done, rests⟩ := resolve_rests lasts.calm.logging rfl
      (saves.holds lasts noted fun _ there => there.1) around.unlogged ⟨here, List.forall_mem_nil _⟩
    have kept : left.draft.record = final.draft.record := by rw [rests.draft]; rfl
    refine ⟨left.forgetful, resolve_of_logged done, kept, ?_⟩
    rw [loggedRun, Gives.outcome done]
    exact rests.world.2

end Mapper

/-! ## Books of a library, as an example -/

/-- A new library. -/
def newLibrary : Draft where
  object := ⟨⟨2⟩, "Library"⟩
  schema := libraryClass
  operation := .insert
  record := ⟨⟨[], "Library", none⟩, []⟩

/-- The library with its name and its books. -/
def filledLibrary : Workspace (Option Key) where
  draft := newLibrary.moment libraryMapper
    [.fillField (fun _ => none) 0 (.text "central"),
      .fillField (fun _ => none) 1 (.list [.object book])] 2
  surroundings := ⟨{}, none⟩

/-- The library with the key of its book, which was flushed. -/
def savedLibrary : Workspace (Option Key) where
  draft := { newLibrary with
    record := ⟨library, [⟨"books", .ofKeys [bookKey], true⟩]⟩, keyOrigin := some .derived }
  surroundings := ⟨{ parents := [(book.id, library)] }, some bookKey⟩

/-- The second pass finds the key of the book where the first one put it. -/
theorem Mapper.resave_changes_nothing_books :
    libraryMapper.resolve flushingFramework filledLibrary = .ok true savedLibrary ∧
      ∃ opened filled left,
        libraryMapper.update filledLibrary.draft.object savedLibrary.draft.record = .ok opened ∧
        libraryMapper.fillFields (fun _ => none) (fun _ => .ok (.list [.object book])) [1] opened =
          .ok () filled ∧
        libraryMapper.resolve flushingFramework ⟨filled, savedLibrary.surroundings⟩ =
          .ok false left ∧
        left.draft.record = savedLibrary.draft.record := by
  have done : libraryMapper.resolve flushingFramework filledLibrary = .ok true savedLibrary := rfl
  have saves : libraryMapper.Saves flushingFramework (fun _ => .list [.object book]) filledLibrary
      savedLibrary := by
    refine ⟨⟨newLibrary, _, _, .inl rfl, ?_, rfl⟩, ?_, List.nodup_singleton "books", .refl _,
      fun _ _ => rfl, fun _ _ _ _ _ => rfl, true, done⟩
    · simp [DraftCall.KeepsKeys]
    · intro field member plays
      rcases List.mem_cons.mp member with rfl | member
      · contradiction
      · obtain rfl := List.mem_singleton.mp member
        exact ⟨rfl, rfl, rfl⟩
  have lasts : libraryMapper.Lasts flushingFramework (fun _ => .list [.object book]) filledLibrary
      (libraryMapper.ChecksOnly flushingFramework filledLibrary) (· = some bookKey) := by
    refine ⟨⟨?_, ?_⟩, fun _ _ _ _ => rfl, ?_, ?_⟩
    · exact fun _ _ _ _ world there => ⟨world, rfl, there⟩
    · exact fun _ _ world there => ⟨world, rfl, there⟩
    · rintro _ rfl sighting seen
      obtain rfl := List.mem_singleton.mp seen
      exact ⟨rfl, rfl⟩
    · rintro object ⟨⟨pending, member, writes, -⟩, -⟩
      obtain rfl := List.mem_singleton.mp member
      contradiction
  obtain ⟨opened, opens, again⟩ := resave_changes_nothing saves lasts
  obtain rfl := Except.ok.inj (saves.opens.symm.trans opens)
  obtain ⟨filled, fills, idle⟩ :=
    again (fun _ => none) (fun _ => .ok (.list [.object book])) [1] (.refl _) fun _ _ => rfl
  obtain ⟨left, resolved, kept, -⟩ := idle savedLibrary.surroundings rfl
  exact ⟨done, _, filled, left, opens, fills, resolved, kept⟩

/-! ## A passport that is checked before it has a key -/

/-- Whether an object is held by relations whose keys are kept out of the record, and by no
others. -/
def Mapper.HoldsAside (mapper : Mapper) (draft : Draft) (object : Reference) : Prop :=
  (∃ pending ∈ draft.pending, object ∈ pending.value.referents) ∧
    ∀ pending ∈ draft.pending, object ∈ pending.value.referents →
      mapper.skips pending.relation = true

def passport : Reference :=
  ⟨⟨2⟩, "Passport"⟩

/-- A key of a passport below nobody. -/
def passportKey : Key :=
  ⟨[], "Passport", some (.id 9)⟩

def travellerKey : Key :=
  ⟨[], "Traveller", some (.id 5)⟩

/-- A class with a passport in a relation of its own, and a document that is owned by none. -/
def travellerClass (relation : Relation) : Schema where
  name := "Traveller"
  kind := "Traveller"
  inheritance := .newTable
  isEmbeddable := false
  fields := [
    { name := "id", type := .long, isPrimaryKey := true },
    { name := "passport", type := .object "Passport", relation := some relation },
    { name := "document", type := .object "Passport"
      relation := some { targetClass := "Passport", owned := false } }]

def travellerMapper (relation : Relation) : Mapper where
  settings := {}
  schema? name := if name = "Traveller" then some (travellerClass relation) else none

/-- The fields of a traveller with the passport, and with some document. -/
def travellerFields (document : FieldValue) (position : Nat) : FieldValue :=
  if position = 1 then .object passport else document

/-- A framework with one passport, which gets a key below nobody when it is made persistent. -/
def passportOffice (document : FieldValue) (deleted : Bool) : Framework (Option Key) where
  fieldValue _ _ position := .ok (travellerFields document position)
  knownKey world object := if object = passport then world else none
  isDeleted _ _ := deleted
  isDetached _ _ := false
  isManaged _ _ := false
  setField _ _ _ := pure ()
  persist object := do
    modify fun around => { around with world := some passportKey }
    return object
  flush _ := pure ()

/-- A new traveller with passport and document, and with the key that the store assigned. -/
def filledTraveller (relation : Relation) (document : FieldValue) : Workspace (Option Key) where
  draft := (Draft.mk ⟨⟨1⟩, "Traveller"⟩ (travellerClass relation) .insert ⟨⟨[], "Traveller", none⟩, []⟩
    none none []).moment (travellerMapper relation)
      [.fillFields (fun _ => none) (fun position => .ok (travellerFields document position)) [1, 2],
        .assignKey travellerKey] 2
  surroundings := ⟨{}, none⟩

/-- Whether a second pass may refuse the passport although all is as the first one saw it, and
objects in relations whose keys are kept out of the record keep theirs. -/
def RefusesPassport (relation : Relation) (document : FieldValue) (deleted : Bool) : Prop :=
  let mapper := travellerMapper relation
  let framework := passportOffice document deleted
  let space := filledTraveller relation document
  ∃ final among, mapper.Saves framework (travellerFields document) space final ∧
    mapper.Lasts framework (travellerFields document) space (mapper.HoldsAside space.draft) among ∧
    ∃ opened filled around left, among around.world ∧
      mapper.update space.draft.object final.draft.record = .ok opened ∧
      mapper.fillFields (fun _ => none) (fun position => .ok (travellerFields document position)) [1, 2]
        opened = .ok () filled ∧
      mapper.resolve framework ⟨filled, around⟩ =
        .error (.ownedChildReparenting passportKey travellerKey) left

theorem travellerClass_relatesPlainly (relation : Relation) :
    (travellerClass relation).RelatesPlainly := by
  intro field member plays
  rcases List.mem_cons.mp member with rfl | member
  · contradiction
  rcases List.mem_cons.mp member with rfl | member
  · exact ⟨rfl, rfl, rfl⟩
  · obtain rfl := List.mem_singleton.mp member
    exact ⟨rfl, rfl, rfl⟩

theorem passportOffice_calm (document : FieldValue) (deleted : Bool) (among : Option Key → Prop) :
    (passportOffice document deleted).Calm among where
  writeReference _ _ _ _ world there := ⟨world, rfl, there⟩
  updated _ _ world there := ⟨world, rfl, there⟩

/-- The passport was checked without a key. In the first case it gets one for the document, in the
second one it is deleted, so that the pass never asks for its key. -/
theorem Mapper.not_resave_of_passport :
    RefusesPassport { Relation.single "Passport" with
      direction := .oneToOne, mappedBy := some "holder" } (.object passport) false ∧
    RefusesPassport (.single "Passport") .null true := by
  have distinct : ["passport", "document"].Nodup := by decide
  constructor
  · refine ⟨_, (· = some passportKey),
      ⟨⟨_, _, _, .inl rfl, by simp [DraftCall.KeepsKeys], rfl⟩, travellerClass_relatesPlainly _,
        distinct, .refl _, fun _ _ => rfl, fun _ _ _ _ _ => rfl, true, rfl⟩,
      ⟨passportOffice_calm _ _ _, fun _ _ _ _ => rfl, ?_, ?_⟩,
      _, _, ⟨{}, some passportKey⟩, _, rfl, rfl, rfl, rfl⟩
    · rintro _ rfl sighting seen
      obtain rfl := List.mem_singleton.mp seen
      exact ⟨rfl, rfl⟩
    · rintro object ⟨⟨pending, member, refers⟩, aside⟩
      obtain rfl : object = passport := by
        rcases List.mem_cons.mp member with rfl | member
        · exact List.mem_singleton.mp refers
        · obtain rfl := List.mem_singleton.mp member
          exact List.mem_singleton.mp refers
      have document := aside _ (List.mem_cons_of_mem _ (List.mem_singleton_self _))
        (List.mem_singleton_self passport)
      exact (Bool.false_ne_true document).elim
  · refine ⟨_, (· = some passportKey),
      ⟨⟨_, _, _, .inl rfl, by simp [DraftCall.KeepsKeys], rfl⟩, travellerClass_relatesPlainly _,
        distinct, .refl _, fun _ _ => rfl, fun _ _ _ _ _ => rfl, false, rfl⟩,
      ⟨passportOffice_calm _ _ _, fun _ _ _ _ => rfl, ?_, ?_⟩,
      _, _, ⟨{}, some passportKey⟩, _, rfl, rfl, rfl, rfl⟩
    · rintro _ rfl sighting seen
      obtain rfl := List.mem_singleton.mp seen
      exact rfl
    · rintro object ⟨⟨pending, member, refers⟩, aside⟩
      rcases List.mem_cons.mp member with rfl | member
      · exact (Bool.false_ne_true (aside _ (List.mem_cons_self ..) refers)).elim
      · obtain rfl := List.mem_singleton.mp member
        exact (List.not_mem_nil refers).elim

end RecordMapping
