import RecordMapping.Proofs.Framework.Log

/-!
# Registries that are passed on

Requests that can store objects pass on the registry of parents, and may leave another one.
`Framework.minuting` takes the minutes of these requests: the registry that each of them passed on,
and the one that its answer left. As long as nothing else touches the registry, each request passes
on what the answer before it left (`Minute.Chain`).
-/

namespace RecordMapping

open Attempt

/-- A request to store an object: the registry that it passed on, and the one that its answer
left. -/
structure Minute where
  request : Request
  passed : ParentRegistry
  left : ParentRegistry

/-- A world and the minutes of what led to it. -/
structure Minuted (World : Type) where
  world : World
  minutes : List Minute := []

/-! ## Chains -/

/-- Minutes from one registry to another, in which each request passes on what the answer before it
left. -/
inductive Minute.Chain : ParentRegistry → List Minute → ParentRegistry → Prop where
  | nil {registry : ParentRegistry} : Chain registry [] registry
  | cons {minute : Minute} {rest : List Minute} {last : ParentRegistry}
      (later : Chain minute.left rest last) : Chain minute.passed (minute :: rest) last

/-- Whether an answer left the entry of an object as it was. -/
def Minute.Spares (minute : Minute) (object : Identity) : Prop :=
  minute.left.parent? object = minute.passed.parent? object

namespace Minute.Chain

variable {start middle last : ParentRegistry} {earlier later before after : List Minute}
  {minute : Minute} {object : Identity}

theorem append (first : Chain start earlier middle) (second : Chain middle later last) :
    Chain start (earlier ++ later) last := by
  induction first with
  | nil => exact second
  | cons _ ih => exact .cons (ih second)

theorem single (minute : Minute) : Chain minute.passed [minute] minute.left :=
  .cons .nil

/-- An entry that the earlier answers spare is passed on as it was at the start. -/
theorem passed_parent? (chain : Chain start (before ++ minute :: after) last)
    (spared : ∀ earlier ∈ before, earlier.Spares object) :
    minute.passed.parent? object = start.parent? object := by
  induction before generalizing start with
  | nil =>
      cases chain
      rfl
  | cons first rest ih =>
      obtain ⟨here, others⟩ := List.forall_mem_cons.mp spared
      cases chain with
      | cons later => exact (ih later others).trans here

end Minute.Chain

/-! ## Taking minutes -/

namespace Surroundings

variable {World α : Type}

/-- The surroundings without the minutes. -/
def unminuted (around : Surroundings (Minuted World)) : Surroundings World :=
  ⟨around.registry, around.world.world⟩

/-- The surroundings that a request leads to, with an entry for it added to the minutes. -/
def noted (request : Request) (next : Surroundings World) (around : Surroundings (Minuted World)) :
    Surroundings (Minuted World) :=
  ⟨next.registry, next.world,
    around.world.minutes ++ [⟨request, around.registry, next.registry⟩]⟩

/-- The attempt that answers a request, with an entry for it added to the minutes. -/
def minute (request : Request) (attempt : Attempt (Surroundings World) α) :
    Attempt (Surroundings (Minuted World)) α :=
  attempt.onPart unminuted (noted request)

end Surroundings

/-- An attempt on the world, of which no minutes are taken. -/
def Minuted.onWorld {World α : Type} (attempt : Attempt World α) : Attempt (Minuted World) α :=
  attempt.onPart Minuted.world fun world minuted => { minuted with world }

/-- An attempt on a record and the world, of which no minutes are taken. -/
def Minuted.onRecord {World α : Type} (attempt : Attempt (Record × World) α) :
    Attempt (Record × Minuted World) α :=
  attempt.onPart (fun pair => (pair.1, pair.2.world)) fun next pair =>
    (next.1, { pair.2 with world := next.2 })

/-- The framework that takes minutes of the requests to store objects. -/
def Framework.minuting {World : Type} (framework : Framework World) :
    Framework (Minuted World) where
  fieldValue state := framework.fieldValue state.world
  knownKey state := framework.knownKey state.world
  isDeleted state := framework.isDeleted state.world
  isDetached state := framework.isDetached state.world
  isManaged state := framework.isManaged state.world
  setField object position value := Minuted.onWorld (framework.setField object position value)
  persist object := Surroundings.minute (.persist object) (framework.persist object)
  flush object := Surroundings.minute (.flush object) (framework.flush object)
  writeReference owner field value :=
    Minuted.onRecord (framework.writeReference owner field value)
  inserted owner field := Minuted.onWorld (framework.inserted owner field)
  updated owner field := Minuted.onWorld (framework.updated owner field)

/-- The requests to store objects that led here. -/
def Workspace.minutes {World : Type} (space : Workspace (Minuted World)) : List Minute :=
  space.surroundings.world.minutes

/-- The same without its minutes. -/
def Workspace.unminuted {World : Type} (space : Workspace (Minuted World)) : Workspace World :=
  ⟨space.draft, space.surroundings.unminuted⟩

variable {World : Type} {framework : Framework World} {mapper : Mapper}

/-- An attempt on a part agrees with the attempt itself. -/
theorem Attempt.agree_part {σ τ α : Type} {part : σ → τ} {replace : τ → σ → σ}
    {attempt : Attempt τ α} {alike : σ → τ → Prop} {state : σ}
    (leads : ∀ next, alike (replace next state) next) :
    Agree alike (onPart part replace attempt state) (attempt (part state)) := by
  unfold onPart
  cases attempt (part state) with
  | ok value next => exact .ok (leads next)
  | error error next => exact .error (leads next)

/-- The world without its minutes. -/
def Minuted.Holds (minuted : Minuted World) (world : World) : Prop :=
  world = minuted.world

theorem Minuted.onWorld_agrees {attempt : Attempt World Unit} {minuted : Minuted World} :
    Agree Minuted.Holds (Minuted.onWorld attempt minuted) (attempt minuted.world) :=
  agree_part fun _ => rfl

theorem Surroundings.minute_agrees {α : Type} {request : Request}
    {attempt : Attempt (Surroundings World) α} {around : Surroundings (Minuted World)} :
    Agree (Surroundings.Alike Minuted.Holds) (Surroundings.minute request attempt around)
      (attempt around.unminuted) :=
  agree_part fun _ => ⟨rfl, rfl⟩

theorem Surroundings.Alike.eq_unminuted {around : Surroundings (Minuted World)}
    {bare : Surroundings World} (alike : around.Alike Minuted.Holds bare) :
    bare = around.unminuted :=
  congrArg₂ Surroundings.mk alike.registry alike.world

/-- Taking minutes changes no answer. -/
theorem Framework.minuting_alike (framework : Framework World) :
    framework.minuting.Alike Eq Minuted.Holds framework where
  knownKey := by rintro _ _ rfl; rfl
  isDeleted := by rintro _ _ rfl; rfl
  isDetached := by rintro _ _ rfl; rfl
  isManaged := by rintro _ _ rfl; rfl
  setField := by
    rintro _ _ _ _ _ rfl
    exact Minuted.onWorld_agrees
  persist := by
    intro _ _ _ alike
    rw [alike.eq_unminuted]
    exact Surroundings.minute_agrees
  flush := by
    intro _ _ _ alike
    rw [alike.eq_unminuted]
    exact Surroundings.minute_agrees
  writeReference := by
    rintro owner field value _ record minuted _ rfl rfl
    have written : Agree (fun pair twin => twin.1 = pair.1 ∧ Minuted.Holds pair.2 twin.2)
        (Minuted.onRecord (framework.writeReference owner field value) (record, minuted))
        (framework.writeReference owner field value (record, minuted.world)) :=
      agree_part fun _ => ⟨rfl, rfl⟩
    exact agree_tolerant written
  inserted := by
    rintro _ _ _ _ rfl
    exact agree_tolerant Minuted.onWorld_agrees
  updated := by
    rintro _ _ _ _ rfl
    exact agree_tolerant Minuted.onWorld_agrees

/-- The call that resolves the relations of a draft, with minutes of its requests. -/
def Mapper.minutedRun (mapper : Mapper) (framework : Framework World) (draft : Draft)
    (around : Surroundings World) : Outcome Bool × Workspace (Minuted World) :=
  (mapper.resolve framework.minuting).outcome ⟨draft, around.registry, { world := around.world }⟩

/-- **Taking minutes changes nothing.** -/
theorem Mapper.resolve_minuting (mapper : Mapper) (framework : Framework World) (draft : Draft)
    (around : Surroundings World) :
    (mapper.resolve framework).outcome ⟨draft, around⟩ =
      ((mapper.minutedRun framework draft around).1,
        (mapper.minutedRun framework draft around).2.unminuted) := by
  have runs : Agree (Workspace.Alike Eq Minuted.Holds)
      (mapper.resolve framework.minuting ⟨draft, around.registry, { world := around.world }⟩)
      (mapper.resolve framework ⟨draft, around⟩) := by
    refine resolve_agrees framework.minuting_alike ?_ (fun _ _ => rfl) ⟨.refl _, rfl, rfl⟩
    rintro _ _ rfl
    rfl
  obtain ⟨same, left⟩ := runs.outcome
  exact Prod.ext same.symm (congrArg₂ Workspace.mk left.draft.eq left.surroundings.eq_unminuted)

/-! ## Minutes of a call -/

/-- The law of minutes: those that are added lead from the registry before to the one after. -/
def Surroundings.chaining {World : Type} : Law (Surroundings (Minuted World)) where
  allows before after := ∃ minutes, after.world.minutes = before.world.minutes ++ minutes ∧
    Minute.Chain before.registry minutes after.registry
  reports _ _ := True
  refl _ := ⟨[], (List.append_nil _).symm, .nil⟩
  trans := by
    rintro _ _ _ ⟨earlier, added, first⟩ ⟨later, addedLater, second⟩
    exact ⟨earlier ++ later, by rw [addedLater, added, List.append_assoc], first.append second⟩
  carry _ _ := trivial

theorem Surroundings.minute_chains {α : Type} {request : Request}
    {attempt : Attempt (Surroundings World) α} {around : Surroundings (Minuted World)} :
    (Surroundings.minute request attempt).Keeps chaining around := by
  apply keeps_outcome _ fun _ _ => trivial
  rw [Surroundings.minute, outcome_onPart]
  exact ⟨_, rfl, .single ⟨request, around.registry, _⟩⟩

theorem Minuted.minutes_onWorld (attempt : Attempt World Unit) (minuted : Minuted World) :
    ((Minuted.onWorld attempt).outcome minuted).2.minutes = minuted.minutes := by
  rw [Minuted.onWorld, outcome_onPart]

theorem Minuted.minutes_onRecord (attempt : Attempt (Record × World) Unit)
    (pair : Record × Minuted World) :
    ((Minuted.onRecord attempt).outcome pair).2.2.minutes = pair.2.minutes := by
  rw [Minuted.onRecord, outcome_onPart]

theorem Surroundings.chaining_of_unchanged {before after : Surroundings (Minuted World)}
    (registry : after.registry = before.registry)
    (minutes : after.world.minutes = before.world.minutes) :
    Surroundings.chaining.allows before after := by
  refine ⟨[], by rw [minutes, List.append_nil], ?_⟩
  rw [registry]
  exact .nil

theorem Framework.obeys_chaining (framework : Framework World) :
    framework.minuting.Obeys Surroundings.chaining where
  silent _ _ _ := trivial
  persist _ _ := Surroundings.minute_chains
  flush _ _ := Surroundings.minute_chains
  setField object position value around := by
    apply keeps_outcome _ fun _ _ => trivial
    rw [Surroundings.onWorld, outcome_onPart]
    exact Surroundings.chaining_of_unchanged rfl (Minuted.minutes_onWorld _ _)

end RecordMapping
