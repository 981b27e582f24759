import RecordMapping.Proofs.Draft.Discipline
import RecordMapping.Proofs.Draft.Ownership
import RecordMapping.Proofs.Framework.Minutes

/-!
# What the registry says when an object is stored

Before anything is stored, the objects of the relation fields of the owner's class are registered.
Nothing but the answers of the framework touches the registry afterwards, so that the minutes of a
call form a chain from the registry that registration left (`Mapper.minutedRun_chains`). An object
that the class itself says to be a child is stored with a registry by which it joins its owner. An
object that the class does not refer to, as one that only an embedded object holds, is stored with
the entry that it had before the call (`Mapper.passed_registry`).
-/

namespace RecordMapping

open Attempt

variable {World : Type} {framework : Framework World} {mapper : Mapper} {draft : Draft}

/-! ## Minutes of a call -/

/-- The law of minutes in a workspace. -/
def Workspace.chaining {World : Type} : Law (Workspace (Minuted World)) :=
  Surroundings.chaining.comap Workspace.surroundings

namespace Draft

variable {pending : Pending} {space : Workspace (Minuted World)}

theorem writeReference_chains :
    (writeReference framework.minuting pending).Keeps Workspace.chaining space := by
  apply keeps_writeReference fun _ _ => trivial
  apply keeps_outcome _ fun _ _ => trivial
  rw [Workspace.onRecord, outcome_onPart]
  exact Surroundings.chaining_of_unchanged rfl (Minuted.minutes_onRecord _ _)

theorem notify_chains : (notify framework.minuting pending).Keeps Workspace.chaining space := by
  have told (attempt : Attempt World Unit) :
      (Workspace.onWorld (Minuted.onWorld attempt)).Keeps Workspace.chaining space := by
    apply keeps_outcome _ fun _ _ => trivial
    rw [Workspace.onWorld, outcome_onPart]
    exact Surroundings.chaining_of_unchanged rfl (Minuted.minutes_onWorld _ _)
  exact keeps_notify (told _) (told _)

theorem writeChildKeys_chains :
    (writeChildKeys framework.minuting pending).Keeps Workspace.chaining space := by
  apply keeps_writeChildKeys
  · exact keeps_onPart (childKeys_keeps framework.obeys_chaining) (fun _ chains => chains)
      fun _ _ => trivial
  · exact fun after _ => Surroundings.chaining.refl after.surroundings

end Draft

namespace Mapper

/-- What is left to do once the related objects are registered. -/
def resolveRegistered (mapper : Mapper) (framework : Framework World) (pending : List Pending) :
    Attempt (Workspace World) Bool := do
  each (pending.filter Draft.writesReference) fun relation =>
    (Draft.writeReference framework relation).tolerant
  each (pending.filter fun noted => noted.relation.hearsChanges) fun relation =>
    (Draft.notify framework relation).tolerant
  Draft.writeAllChildKeys framework (pending.filter fun noted => !mapper.skips noted.relation)

theorem resolve_of_registered {space : Workspace World} {registry : ParentRegistry}
    (waits : space.draft.pending ≠ []) (complete : space.draft.key.isComplete = true)
    (passed : mapper.registerFields space.draft
      (framework.fieldValue space.world space.draft.object) space.surroundings.registry =
        .ok () registry) :
    mapper.resolve framework space =
      mapper.resolveRegistered framework space.draft.pending
        ⟨{ space.draft with pending := [] }, registry, space.world⟩ := by
  have passedToo : mapper.registerFields { space.draft with pending := [] }
      (framework.fieldValue space.world space.draft.object) space.surroundings.registry =
        .ok () registry :=
    (congrFun (registerFields_congr rfl rfl fun _ _ => rfl) _).trans passed
  rw [resolve_of_complete waits complete, resolvePending, get_bind]
  exact bind_of_ok (onPart_of_ok passedToo)

theorem resolveRegistered_chains {pending : List Pending} {space : Workspace (Minuted World)} :
    (mapper.resolveRegistered framework.minuting pending).Keeps Workspace.chaining space := by
  unfold resolveRegistered
  apply keeps_bind (keeps_each fun _ _ _ => keeps_tolerant Draft.writeReference_chains)
  intro _ _ _
  apply keeps_bind (keeps_each fun _ _ _ => keeps_tolerant Draft.notify_chains)
  intro _ _ _
  exact Draft.keeps_writeAllChildKeys fun _ _ _ => Draft.writeChildKeys_chains

/-- **Each request passes on what was left before it**, and the first one what registration left. If
related objects cannot be registered, or nothing is to be resolved, there are no requests. -/
theorem minutedRun_chains (mapper : Mapper) (framework : Framework World) (draft : Draft)
    (around : Surroundings World) :
    (mapper.minutedRun framework draft around).2.minutes = [] ∨
      draft.key.isComplete = true ∧ ∃ registered,
        mapper.registerFields draft (framework.fieldValue around.world draft.object)
          around.registry = .ok () registered ∧
        Minute.Chain registered (mapper.minutedRun framework draft around).2.minutes
          (mapper.minutedRun framework draft around).2.surroundings.registry := by
  by_cases empty : draft.pending = []
  · left
    rw [minutedRun, outcome, resolve_of_nil framework.minuting empty]
    rfl
  by_cases complete : draft.key.isComplete = true
  · cases registering : mapper.registerFields draft
        (framework.fieldValue around.world draft.object) around.registry with
    | error error registry =>
        left
        rw [minutedRun, outcome, resolve_of_unregistered empty complete registering]
        rfl
    | ok _ registered =>
        have run : mapper.minutedRun framework draft around =
            (mapper.resolveRegistered framework.minuting draft.pending).outcome
              ⟨{ draft with pending := [] }, registered, { world := around.world }⟩ := by
          rw [minutedRun, outcome, resolve_of_registered empty complete registering]
          rfl
        have chains : (mapper.resolveRegistered framework.minuting draft.pending).Keeps
            Workspace.chaining
            ⟨{ draft with pending := [] }, registered, { world := around.world }⟩ :=
          resolveRegistered_chains
        obtain ⟨minutes, added, chain⟩ := chains.allows
        rw [List.nil_append] at added
        right
        refine ⟨complete, registered, rfl, ?_⟩
        rw [run, Workspace.minutes, added]
        exact chain
  · left
    rw [minutedRun, outcome, resolve_of_incomplete empty (eq_false_of_ne_true complete)]
    rfl

end Mapper

/-! ## What an object finds -/

/-- Whether a new record for an object lands under its owner by way of a registry: the owner's key is
registered for it, and its draft, opened in whatever mapper and left without a parent by whatever
calls, joins the owner unless the object was marked as owned by none. -/
structure Draft.Receives (owner : Draft) (registry : ParentRegistry) (object : Reference) : Prop where
  announced : registry.parent? object.id = some owner.key
  joins : registry.isRoot object.id = false →
    ∀ (mapper : Mapper) (start : Draft) (calls : List DraftCall) (count : Nat),
      mapper.insert object = .ok start → (∀ call ∈ calls, call.KeepsKeys) →
      let draft := start.moment mapper calls count
      draft.record.parent? = none →
        ∃ joined, Draft.Joins mapper owner draft joined ∧
          Draft.placeInGroup.outcome (draft, registry) =
            (draft.parentValue owner.key, joined, registry.forgetParent object.id)

namespace Mapper

variable {around : Surroundings World} {before after : List Minute} {minute : Minute}

/-- **What a request to store an object passes on.** As long as the answers before it spared the entry
of an object, a request passes on a registry by which the object lands under the owner, if a relation
field of the class itself says that it is a child. If the class does not refer to the object, the
entry is the one from before the call. -/
theorem passed_registry
    (parts : (mapper.minutedRun framework draft around).2.minutes = before ++ minute :: after)
    (object : Reference) (spared : ∀ earlier ∈ before, earlier.Spares object.id) :
    let provide := framework.fieldValue around.world draft.object
    (draft.Owns provide object → draft.Receives minute.passed object) ∧
      (¬ draft.Knows provide object.id →
        minute.passed.parent? object.id = around.registry.parent? object.id) := by
  intro provide
  have chains := minutedRun_chains mapper framework draft around
  rw [parts] at chains
  obtain nothing | ⟨complete, registered, passed, chain⟩ := chains
  · exact (List.append_ne_nil_of_right_ne_nil _ (List.cons_ne_nil _ _) nothing).elim
  have kept : minute.passed.parent? object.id = registered.parent? object.id :=
    chain.passed_parent? spared
  constructor
  · intro held
    have announced : minute.passed.parent? object.id = some draft.key :=
      kept.trans (registerFields_announces passed held)
    refine ⟨announced, ?_⟩
    intro free childMapper start calls count opened modest child rootless
    exact Draft.joins_of_announced complete announced free opened modest count rootless
  · intro foreign
    have noted : ParentRegistry.Gains _ _ around.registry registered :=
      registerFields_notes.of_ok passed
    exact kept.trans (noted.unchanged foreign).1

/-- The book is flushed with a registry by which it lands under its library. -/
theorem passed_registry_book :
    let left : ParentRegistry := { parents := [(book.id, library)] }
    (bookMapper.minutedRun flushingFramework libraryWithBooks ⟨{}, none⟩).2.minutes =
        [⟨.flush book, left, left⟩] ∧
      libraryWithBooks.Receives left book := by
  intro left
  have minutes : (bookMapper.minutedRun flushingFramework libraryWithBooks ⟨{}, none⟩).2.minutes =
      [] ++ ⟨.flush book, left, left⟩ :: [] := rfl
  have held : libraryWithBooks.Owns
      (flushingFramework.fieldValue none libraryWithBooks.object) book := by
    refine ⟨.collection "Book", ⟨1, booksField, .list [.object book], rfl, rfl, rfl, rfl, ?_⟩,
      rfl, rfl⟩
    exact .inr ⟨_, rfl, _, List.mem_singleton_self _, rfl⟩
  exact ⟨minutes, (passed_registry minutes book (List.forall_mem_nil _)).1 held⟩

end Mapper

/-! ### A pet within the home of a person, as an example -/

/-- A field for a pet, which the home's owner owns. -/
def petField : Field where
  name := "pet"
  type := .object "Pet"
  relation := some (.single "Pet")

def homeClass : Schema where
  name := "Home"
  kind := "Home"
  inheritance := .newTable
  isEmbeddable := true
  fields := [petField]

def tenantClass : Schema where
  name := "Person"
  kind := "Person"
  inheritance := .newTable
  isEmbeddable := false
  fields := [
    { name := "id", type := .long, isPrimaryKey := true },
    { name := "home", type := .list, embedding := some ⟨homeClass, []⟩ }]

def petClass : Schema where
  name := "Pet"
  kind := "Pet"
  inheritance := .newTable
  isEmbeddable := false
  fields := [{ name := "id", type := .long, isPrimaryKey := true }]

def petMapper : Mapper where
  settings := {}
  schema? name :=
    if name = "Person" then some tenantClass
    else if name = "Pet" then some petClass
    else none

def pet : Reference :=
  ⟨⟨2⟩, "Pet"⟩

/-- The draft of a new person, who lives in a home. -/
def newTenant : Draft where
  object := ⟨⟨1⟩, "Person"⟩
  schema := tenantClass
  operation := .insert
  record := ⟨⟨[], "Person", none⟩, []⟩

/-- The fields of a person whose home has the pet. -/
def tenantFields (position : Nat) : Outcome FieldValue :=
  .ok (if position = 0 then .int 5 else .embedded [.object pet])

/-- A framework with one pet, whose key is the world. The pet is made persistent as a new record that
is placed in its entity group. -/
def savingFramework : Framework (Option Key) where
  fieldValue _ _ position := tenantFields position
  knownKey world object := if object = pet then world else none
  isDeleted _ _ := false
  isDetached _ _ := false
  isManaged _ _ := false
  setField _ _ _ := pure ()
  persist object := do
    let start ← petMapper.insert object
    let (_, draft) ← (petMapper.fillField (fun _ => none) 0 (.int 1)).result start
    let (_, placed, registry) := Draft.placeInGroup.outcome (draft, (← get).registry)
    set (Surroundings.mk registry (some placed.key))
    return object
  flush _ := pure ()

/-- A child that only an embedded object holds is not received by its owner. The pet of a new person
with the id 5 waits as an owned relation that is not skipped; it is made persistent with a registry
that says nothing of it, becomes a root, and is refused. -/
theorem not_received_embedded_pet :
    petMapper.insert newTenant.object = .ok newTenant ∧
      ∃ filled, petMapper.fillFields (fun _ => none) tenantFields [0, 1] newTenant =
          .ok () filled ∧
        filled.pending = [⟨petField, .single "Pet", none, "pet", .object pet⟩] ∧
        petMapper.skips (.single "Pet") = false ∧
        (petMapper.minutedRun savingFramework filled ⟨{}, none⟩).2.minutes =
          [⟨.persist pet, {}, {}⟩] ∧
        (petMapper.minutedRun savingFramework filled ⟨{}, none⟩).1 =
          .error (.ownedChildReparenting ⟨[], "Pet", some (.id 1)⟩ ⟨[], "Person", some (.id 5)⟩) ∧
        ¬ filled.Receives {} pet := by
  refine ⟨rfl, _, rfl, rfl, rfl, rfl, rfl, ?_⟩
  intro receives
  exact nomatch receives.announced

end RecordMapping
