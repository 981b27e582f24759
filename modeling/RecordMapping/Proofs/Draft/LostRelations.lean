import RecordMapping.Proofs.Draft.ChildKeys

/-!
# Relations that a failure loses

Relations are taken from the draft before the first of them is resolved, and nothing puts them back.
So a call that fails loses all of them, whatever failed, unless it fails because the record has no
key yet: that is found before anything is taken. A call that succeeds prepares everything first, and
then writes the keys of related objects (`Mapper.resolve_parts`).
-/

namespace RecordMapping

open Attempt

/-- The waiting relations whose keys are written to the record. -/
def Mapper.unskipped (mapper : Mapper) (draft : Draft) : List Pending :=
  draft.pending.filter fun noted => !mapper.skips noted.relation

/-- The relations that wait in the draft. -/
def Workspace.waiting {World : Type} (space : Workspace World) : List Pending :=
  space.draft.pending

namespace Mapper

variable {World : Type} {framework : Framework World} {mapper : Mapper}
  {space ready final : Workspace World} {noted : List Pending} {error : MappingError}
  {changed : Bool}

/-- **Resolving puts nothing back.** No step, whether it succeeds or fails, touches the relations
that wait in the draft. -/
theorem resolvePending_fixes :
    (mapper.resolvePending framework noted).Keeps (Law.fixing Workspace.waiting) space := by
  apply keeps_resolvePending
  · exact keeps_onPart_fixing fun _ => rfl
  · exact fun _ _ => Draft.keeps_writeReference (fun _ _ => trivial) (keeps_onPart_fixing fun _ => rfl)
  · intro _ _
    exact Draft.keeps_notify (keeps_onPart_fixing fun _ => rfl) (keeps_onPart_fixing fun _ => rfl)
  · exact fun _ _ _ _ =>
      Draft.keeps_writeChildKeys (keeps_onPart_fixing fun _ => rfl) fun _ _ => rfl

theorem resolve_of_nil (framework : Framework World) (empty : space.draft.pending = []) :
    mapper.resolve framework space = .ok false space := by
  unfold resolve
  rw [get_bind]
  simp only [empty, List.isEmpty_nil, ↓reduceIte]
  rfl

theorem resolve_of_incomplete (waits : space.draft.pending ≠ [])
    (incomplete : space.draft.key.isComplete = false) :
    mapper.resolve framework space =
      .error (.internal (.relationsBeforeKey space.draft.object space.draft.key)) space := by
  unfold resolve
  rw [get_bind]
  simp only [List.isEmpty_eq_false_iff.mpr waits, incomplete, Bool.not_false, Bool.false_eq_true,
    ↓reduceIte]
  rfl

theorem resolve_of_complete (waits : space.draft.pending ≠ [])
    (complete : space.draft.key.isComplete = true) :
    mapper.resolve framework space =
      mapper.resolvePending framework space.draft.pending
        { space with draft := { space.draft with pending := [] } } := by
  unfold resolve
  rw [get_bind]
  simp only [List.isEmpty_eq_false_iff.mpr waits, complete, Bool.not_true, Bool.false_eq_true,
    ↓reduceIte]
  rfl

/-! ### Preparing, and writing keys -/

/-- All of a pass but the writing of keys. -/
def prepare (mapper : Mapper) (framework : Framework World) (noted : List Pending) :
    Attempt (Workspace World) Unit := do
  let space ← get
  Workspace.onRegistry
    (mapper.registerFields space.draft (framework.fieldValue space.world space.draft.object))
  each (noted.filter Draft.writesReference) fun relation =>
    (Draft.writeReference framework relation).tolerant
  each (noted.filter fun noted => noted.relation.hearsChanges) fun relation =>
    (Draft.notify framework relation).tolerant

theorem resolvePending_eq_prepare (noted : List Pending) :
    mapper.resolvePending framework noted =
      (do
        mapper.prepare framework noted
        Draft.writeAllChildKeys framework
          (noted.filter fun noted => !mapper.skips noted.relation)) := by
  simp only [resolvePending, prepare, bind_assoc]

/-- Once the related objects are registered nothing else touches the registry but storing them. -/
theorem prepare_registers (done : (mapper.prepare framework noted).Gives space () ready) :
    mapper.registerFields space.draft (framework.fieldValue space.world space.draft.object)
      space.surroundings.registry = .ok () ready.surroundings.registry := by
  have references (pending : Pending) (space : Workspace World) :
      (Draft.writeReference framework pending).Keeps
        (Law.fixing fun space => space.surroundings.registry) space :=
    Draft.keeps_writeReference (fun _ _ => trivial) (keeps_onPart_fixing fun _ => rfl)
  have callbacks (pending : Pending) (space : Workspace World) :
      (Draft.notify framework pending).Keeps
        (Law.fixing fun space => space.surroundings.registry) space :=
    Draft.keeps_notify (keeps_onPart_fixing fun _ => rfl) (keeps_onPart_fixing fun _ => rfl)
  unfold prepare at done
  obtain ⟨_, registered, registering, rest⟩ := done.get_bind.bind
  obtain ⟨_, referenced, referencing, notifying⟩ := rest.bind
  obtain ⟨left, passed, rfl⟩ := registering.onPart
  have afterReferences : referenced.surroundings.registry = left :=
    (keeps_each fun pending _ space => keeps_tolerant (references pending space)).of_ok referencing
  have afterCallbacks : ready.surroundings.registry = referenced.surroundings.registry :=
    (keeps_each fun pending _ space => keeps_tolerant (callbacks pending space)).of_ok notifying
  rw [afterCallbacks, afterReferences]
  exact passed

/-- A pass that succeeds prepares, and then writes keys. -/
theorem resolve_parts (waits : space.draft.pending ≠ [])
    (done : (mapper.resolve framework).Gives space changed final) :
    space.draft.key.isComplete = true ∧ ∃ ready,
      (mapper.prepare framework space.draft.pending).Gives
        { space with draft := { space.draft with pending := [] } } () ready ∧
      (Draft.writeAllChildKeys framework (mapper.unskipped space.draft)).Gives ready changed final := by
  by_cases complete : space.draft.key.isComplete = true
  · refine ⟨complete, ?_⟩
    rw [Gives, resolve_of_complete waits complete, resolvePending_eq_prepare] at done
    obtain ⟨_, ready, prepared, written⟩ := Gives.bind done
    exact ⟨ready, prepared, written⟩
  · rw [Gives, resolve_of_incomplete waits (eq_false_of_ne_true complete)] at done
    contradiction

/-! ### Failures -/

/-- **A failure loses all relations, unless the record has no key yet.** Without its key the draft
and its surroundings stay as they are. With it no relation waits any more, and every later call, in
whatever surroundings, does nothing and tells of no change. -/
theorem waiting_of_failed_resolve
    (failed : (mapper.resolve framework).Fails space error final) :
    (space.draft.key.isComplete = false → final = space) ∧
      (space.draft.key.isComplete = true → space.waiting ≠ [] ∧ final.waiting = [] ∧
        ∀ (Later : Type) (later : Framework Later) (around : Surroundings Later),
          mapper.resolve later ⟨final.draft, around⟩ = .ok false ⟨final.draft, around⟩) := by
  have waits : space.draft.pending ≠ [] := by
    intro empty
    rw [Fails, resolve_of_nil framework empty] at failed
    contradiction
  constructor
  · intro incomplete
    rw [Fails, resolve_of_incomplete waits incomplete] at failed
    exact (EStateM.Result.error.inj failed).2.symm
  · intro complete
    rw [Fails, resolve_of_complete waits complete] at failed
    have lost : final.waiting = [] := (resolvePending_fixes.of_error failed).1
    exact ⟨waits, lost, fun _ later around => resolve_of_nil later lost⟩

end Mapper

/-! ## A library whose insertion is refused, as an example -/

/-- A framework in which hearing of an insertion fails. -/
def refusingFramework : Framework (Option Key) :=
  { flushingFramework with inserted := fun _ _ => throw (.internal (.other "refused")) }

/-- The books are lost, also for a framework that would store them. -/
theorem Mapper.waiting_of_failed_resolve_books :
    ∃ final, (bookMapper.resolve refusingFramework).Fails ⟨libraryWithBooks, ⟨{}, none⟩⟩
      (.internal (.other "refused")) final ∧
      bookMapper.resolve flushingFramework ⟨final.draft, final.surroundings⟩ = .ok false final := by
  have failed : (bookMapper.resolve refusingFramework).Fails ⟨libraryWithBooks, ⟨{}, none⟩⟩
      (.internal (.other "refused"))
      ⟨{ libraryWithBooks with pending := [] }, ⟨{ parents := [(book.id, library)] }, none⟩⟩ := rfl
  obtain ⟨-, -, idle⟩ := (waiting_of_failed_resolve failed).2 rfl
  exact ⟨_, failed, idle _ flushingFramework _⟩

def libraryMapper : Mapper where
  settings := {}
  schema? name := if name = "Library" then some libraryClass else none

/-- A failed call does not always leave the relations waiting, not even for a new record that was
filled field by field. -/
theorem Mapper.not_waiting_of_failed_library :
    ∃ opened filled final,
      libraryMapper.insert libraryWithBooks.object = .ok opened ∧
        libraryMapper.fillFields (fun _ => none)
          (fun position => .ok (if position = 0 then .text "central" else .list [.object book]))
          [0, 1] opened = .ok () filled ∧
        (libraryMapper.resolve refusingFramework).Fails ⟨filled, ⟨{}, none⟩⟩
          (.internal (.other "refused")) final ∧
        final.draft.pending ≠ filled.pending := by
  refine ⟨_, _, _, rfl, rfl, rfl, ?_⟩
  exact (List.cons_ne_nil _ _).symm

end RecordMapping
