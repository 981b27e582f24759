import RecordMapping.Proofs.Draft.Likeness

/-!
# Requests that are written down

`Framework.logging` is a framework that writes down, in order, every request that is made to it: what
was asked, in which world, and how it was answered. It answers as the framework that it is made from,
so that a run with a log is the run without it (`Mapper.resolve_logging`). What is logged are the
requests of the draft itself; what a framework does while it answers one of them is its own affair.
-/

namespace RecordMapping

open Attempt

/-- A request to a framework. -/
inductive Request where
  | writeReference (owner : Reference) (field : Field) (value : FieldValue)
  | inserted (owner : Reference) (field : Field)
  | updated (owner : Reference) (field : Field)
  | persist (object : Reference)
  | flush (object : Reference)
  | setField (object : Reference) (position : Nat) (value : FieldValue)

/-- Whether a request stores objects or replaces them. The others have a mapping write its reference
or tell it of a change. -/
def Request.stores : Request → Bool
  | .writeReference _ _ _ => false
  | .inserted _ _ => false
  | .updated _ _ => false
  | .persist _ => true
  | .flush _ => true
  | .setField _ _ _ => true

/-- A request that was made: the world that it was made in, and the answer, with the object that was
given for a stored one. -/
structure Entry (World : Type) where
  request : Request
  world : World
  answer : Outcome (Option Reference)

/-- The error by which a request ends the call. A reference or a callback may fail provisionally. -/
def Entry.stops {World : Type} (entry : Entry World) : Option MappingError :=
  match entry.answer with
  | .ok _ => none
  | .error error =>
      if !entry.request.stores && error.isProvisional then none else some error

/-- A world and the requests that led to it. -/
structure Logged (World : Type) where
  world : World
  log : List (Entry World) := []

/-- The requests that led to the surroundings. -/
def Surroundings.log {World : Type} (around : Surroundings (Logged World)) : List (Entry World) :=
  around.world.log

/-! ## Logging -/

/-- How a state that has a log is made of one that has none. -/
structure Recorder (World σ ρ : Type) where
  world : σ → World
  bare : ρ → σ
  log : ρ → List (Entry World)
  join : σ → List (Entry World) → ρ
  log_join : ∀ state entries, log (join state entries) = entries

namespace Recorder

variable {World σ ρ α : Type}

def onWorld : Recorder World World (Logged World) where
  world := id
  bare := Logged.world
  log := Logged.log
  join := Logged.mk
  log_join _ _ := rfl

def onSurroundings : Recorder World (Surroundings World) (Surroundings (Logged World)) where
  world := Surroundings.world
  bare around := ⟨around.registry, around.world.world⟩
  log := Surroundings.log
  join around log := ⟨around.registry, ⟨around.world, log⟩⟩
  log_join _ _ := rfl

def onRecord : Recorder World (Record × World) (Record × Logged World) where
  world := Prod.snd
  bare pair := (pair.1, pair.2.world)
  log pair := pair.2.log
  join pair log := (pair.1, ⟨pair.2, log⟩)
  log_join _ _ := rfl

/-- The attempt that answers a request, with an entry for it added to the log. -/
def note (recorder : Recorder World σ ρ) (request : Request) (given : α → Option Reference)
    (attempt : Attempt σ α) : Attempt ρ α := fun state =>
  let world := recorder.world (recorder.bare state)
  match attempt (recorder.bare state) with
  | .ok value next =>
      .ok value (recorder.join next (recorder.log state ++ [⟨request, world, .ok (given value)⟩]))
  | .error error next =>
      .error error (recorder.join next (recorder.log state ++ [⟨request, world, .error error⟩]))

end Recorder

/-- The framework that writes down what it is asked. -/
def Framework.logging {World : Type} (framework : Framework World) : Framework (Logged World) where
  fieldValue state := framework.fieldValue state.world
  knownKey state := framework.knownKey state.world
  isDeleted state := framework.isDeleted state.world
  isDetached state := framework.isDetached state.world
  isManaged state := framework.isManaged state.world
  setField object position value :=
    Recorder.onWorld.note (.setField object position value) (fun _ => none)
      (framework.setField object position value)
  persist object :=
    Recorder.onSurroundings.note (.persist object) some (framework.persist object)
  flush object :=
    Recorder.onSurroundings.note (.flush object) (fun _ => none) (framework.flush object)
  writeReference owner field value :=
    Recorder.onRecord.note (.writeReference owner field value) (fun _ => none)
      (framework.writeReference owner field value)
  inserted owner field :=
    Recorder.onWorld.note (.inserted owner field) (fun _ => none) (framework.inserted owner field)
  updated owner field :=
    Recorder.onWorld.note (.updated owner field) (fun _ => none) (framework.updated owner field)

/-- The same surroundings with an empty log. -/
def Surroundings.unlogged {World : Type} (around : Surroundings World) :
    Surroundings (Logged World) :=
  ⟨around.registry, { world := around.world }⟩

namespace Workspace

variable {World : Type}

/-- The requests that led here. -/
def log (space : Workspace (Logged World)) : List (Entry World) :=
  space.surroundings.log

/-- The same without its log. -/
def forgetful (space : Workspace (Logged World)) : Workspace World :=
  ⟨space.draft, space.surroundings.registry, space.surroundings.world.world⟩

end Workspace

namespace Recorder

variable {World σ ρ : Type} (recorder : Recorder World σ ρ) {request : Request} (state : ρ)

/-- A reference or a callback: its entry, and how it goes on. -/
theorem note_tolerant_cases (attempt : Attempt σ Unit)
    (hook : request.stores = false) :
    ∃ entry : Entry World, entry.request = request ∧
      entry.world = recorder.world (recorder.bare state) ∧
      match attempt.tolerant (recorder.bare state) with
      | .ok _ next => (recorder.note request (fun _ => none) attempt).tolerant state =
          .ok () (recorder.join next (recorder.log state ++ [entry])) ∧ entry.stops = none
      | .error error next => (recorder.note request (fun _ => none) attempt).tolerant state =
          .error error (recorder.join next (recorder.log state ++ [entry])) ∧
          entry.stops = some error := by
  unfold tolerant note
  cases attempt (recorder.bare state) with
  | ok value next =>
      simp only
      exact ⟨_, rfl, rfl, rfl, rfl⟩
  | error error next =>
      by_cases provisional : error.isProvisional
      · simp only [provisional, ↓reduceIte]
        refine ⟨_, rfl, rfl, rfl, ?_⟩
        simp only [Entry.stops, hook, provisional, Bool.not_false, Bool.and_self, ↓reduceIte]
      · simp only [provisional, Bool.false_eq_true, ↓reduceIte]
        refine ⟨_, rfl, rfl, rfl, ?_⟩
        simp only [Entry.stops, provisional, Bool.and_false, Bool.false_eq_true, ↓reduceIte]

theorem note_tolerant_of_ok (request : Request) {attempt : Attempt σ Unit} (state : ρ) {next : σ}
    (hook : request.stores = false)
    (done : attempt.tolerant (recorder.bare state) = .ok () next) :
    ∃ entry : Entry World, entry.request = request ∧
      (recorder.note request (fun _ => none) attempt).tolerant state =
        .ok () (recorder.join next (recorder.log state ++ [entry])) := by
  obtain ⟨entry, asked, -, went⟩ := recorder.note_tolerant_cases state attempt hook
  rw [done] at went
  exact ⟨entry, asked, went.1⟩

theorem note_tolerant_gives {attempt : Attempt σ Unit} {state next : ρ}
    (hook : request.stores = false)
    (done : (recorder.note request (fun _ => none) attempt).tolerant.Gives state () next) :
    ∃ entry ∈ recorder.log next, entry.world = recorder.world (recorder.bare state) := by
  obtain ⟨entry, -, here, went⟩ := recorder.note_tolerant_cases state attempt hook
  split at went
  · obtain ⟨-, rfl⟩ := EStateM.Result.ok.inj (went.1.symm.trans done)
    rw [recorder.log_join]
    exact ⟨entry, List.mem_append_right _ (List.mem_singleton_self _), here⟩
  · cases went.1.symm.trans done

/-- A request that is answered is the next one of the log. -/
theorem note_gives {α : Type} {given : α → Option Reference} {attempt : Attempt σ α}
    {state next : ρ} {value : α} (done : (recorder.note request given attempt).Gives state value next) :
    recorder.log next = recorder.log state ++
      [⟨request, recorder.world (recorder.bare state), .ok (given value)⟩] := by
  unfold Gives note at done
  cases made : attempt (recorder.bare state) with
  | ok answer left =>
      rw [made] at done
      obtain ⟨rfl, rfl⟩ := EStateM.Result.ok.inj done
      exact recorder.log_join _ _
  | error error left =>
      rw [made] at done
      contradiction

end Recorder

/-! ## Runs with and without a log -/

variable {World : Type} {framework : Framework World} {mapper : Mapper}

theorem Recorder.note_agrees {σ ρ α : Type} (recorder : Recorder World σ ρ) {request : Request}
    {given : α → Option Reference} {attempt : Attempt σ α} {state : ρ} {alike : ρ → σ → Prop}
    (forgets : ∀ next log, alike (recorder.join next log) next) :
    Agree alike (recorder.note request given attempt state) (attempt (recorder.bare state)) := by
  unfold note
  cases attempt (recorder.bare state) with
  | ok value next => exact .ok (forgets _ _)
  | error error next => exact .error (forgets _ _)

/-- The world without its log. -/
def Logged.Holds (logged : Logged World) (world : World) : Prop :=
  world = logged.world

theorem Surroundings.Alike.eq_bare {around : Surroundings (Logged World)}
    {bare : Surroundings World} (alike : around.Alike Logged.Holds bare) :
    bare = Recorder.onSurroundings.bare around :=
  congrArg₂ Surroundings.mk alike.registry alike.world

theorem Workspace.Alike.eq_forgetful {space : Workspace (Logged World)} {bare : Workspace World}
    (alike : space.Alike Eq Logged.Holds bare) : bare = space.forgetful :=
  congrArg₂ Workspace.mk alike.draft.eq alike.surroundings.eq_bare

/-- A log changes no answer. -/
theorem Framework.logging_alike (framework : Framework World) :
    framework.logging.Alike Eq Logged.Holds framework where
  knownKey := by rintro _ _ rfl; rfl
  isDeleted := by rintro _ _ rfl; rfl
  isDetached := by rintro _ _ rfl; rfl
  isManaged := by rintro _ _ rfl; rfl
  setField := by
    rintro _ _ _ _ _ rfl
    exact Recorder.onWorld.note_agrees fun _ _ => rfl
  persist := by
    intro _ _ _ alike
    rw [alike.eq_bare]
    exact Recorder.onSurroundings.note_agrees fun _ _ => ⟨rfl, rfl⟩
  flush := by
    intro _ _ _ alike
    rw [alike.eq_bare]
    exact Recorder.onSurroundings.note_agrees fun _ _ => ⟨rfl, rfl⟩
  writeReference := by
    rintro _ _ _ _ _ _ _ rfl rfl
    exact agree_tolerant (Recorder.onRecord.note_agrees fun _ _ => ⟨rfl, rfl⟩)
  inserted := by
    rintro _ _ _ _ rfl
    exact agree_tolerant (Recorder.onWorld.note_agrees fun _ _ => rfl)
  updated := by
    rintro _ _ _ _ rfl
    exact agree_tolerant (Recorder.onWorld.note_agrees fun _ _ => rfl)

/-- **A run without a log is the run with it, forgetting the log.** -/
theorem Mapper.resolve_logging (mapper : Mapper) (framework : Framework World)
    (space : Workspace (Logged World)) :
    (mapper.resolve framework).outcome space.forgetful =
      (((mapper.resolve framework.logging).outcome space).1,
        ((mapper.resolve framework.logging).outcome space).2.forgetful) := by
  have runs : Agree (Workspace.Alike Eq Logged.Holds)
      (mapper.resolve framework.logging space) (mapper.resolve framework space.forgetful) := by
    refine resolve_agrees framework.logging_alike ?_ (fun _ _ => rfl) ⟨.refl _, rfl, rfl⟩
    rintro _ _ rfl
    rfl
  obtain ⟨same, left⟩ := runs.outcome
  exact Prod.ext same.symm left.eq_forgetful

theorem Mapper.resolve_of_logged {space left : Workspace (Logged World)} {changed : Bool}
    (done : (mapper.resolve framework.logging).Gives space changed left) :
    (mapper.resolve framework).Gives space.forgetful changed left.forgetful := by
  have runs := resolve_logging mapper framework space
  rw [done.outcome] at runs
  have gives := gives_of_outcome (congrArg Prod.fst runs)
  rw [runs] at gives
  exact gives

/-! ## Logs only grow -/

namespace Recorder

variable {σ ρ α : Type} (recorder : Recorder World σ ρ) (request : Request)
  (given : α → Option Reference) (attempt : Attempt σ α) (state : ρ)

theorem outcome_note :
    ∃ entry, (recorder.note request given attempt).outcome state =
      ((attempt.outcome (recorder.bare state)).1,
        recorder.join (attempt.outcome (recorder.bare state)).2 (recorder.log state ++ [entry])) := by
  unfold outcome note
  cases attempt (recorder.bare state) with
  | ok value next => exact ⟨_, rfl⟩
  | error error next => exact ⟨_, rfl⟩

theorem log_outcome_note :
    recorder.log state <+: recorder.log ((recorder.note request given attempt).outcome state).2 := by
  obtain ⟨entry, noted⟩ := recorder.outcome_note request given attempt state
  rw [noted, recorder.log_join]
  exact List.prefix_append _ _

end Recorder

/-- From one moment to a later one, requests are added only. -/
theorem Framework.Reaches.log_grows {start finish : Surroundings (Logged World)}
    (reached : framework.logging.Reaches start finish) : start.log <+: finish.log := by
  induction reached with
  | refl => exact List.prefix_rfl
  | tail _ step ih =>
      apply ih.trans
      cases step with
      | announced => exact List.prefix_rfl
      | marked => exact List.prefix_rfl
      | persisted => exact Recorder.onSurroundings.log_outcome_note _ _ _ _
      | flushed => exact Recorder.onSurroundings.log_outcome_note _ _ _ _
      | fieldSet => exact Recorder.onWorld.log_outcome_note _ _ _ _
      | referenceWritten record => exact Recorder.onRecord.log_outcome_note _ _ _ (record, _)
      | inserted => exact Recorder.onWorld.log_outcome_note _ _ _ _
      | updated => exact Recorder.onWorld.log_outcome_note _ _ _ _

theorem Framework.KeepsKeys.logging (keepsKeys : framework.KeepsKeys) :
    framework.logging.KeepsKeys := by
  intro owner field value record logged
  obtain ⟨entry, noted⟩ := Recorder.onRecord.outcome_note (.writeReference owner field value)
    (fun _ => none) (framework.writeReference owner field value) (record, logged)
  have written : (framework.logging.writeReference owner field value).outcome (record, logged) = _ :=
    noted
  rw [written]
  exact keepsKeys owner field value record logged.world

/-! ## What a run depends on -/

/-- **Fields are read at the start**, and only the relation fields of the owner: what the framework
would answer in any other world, of any other object or field does not matter. -/
theorem Mapper.resolve_reading (framework : Framework World) (space : Workspace World)
    (fieldValue : World → Reference → Nat → Outcome FieldValue)
    (reads : ∀ position ∈ space.draft.schema.positionsOf .relation,
      fieldValue space.world space.draft.object position =
        framework.fieldValue space.world space.draft.object position) :
    mapper.resolve { framework with fieldValue } space = mapper.resolve framework space := by
  have alike : framework.Alike Eq Eq { framework with fieldValue } := by
    apply framework.alike_reading fieldValue
    rintro _ _ _ _ rfl
    rfl
  have runs : Agree (Workspace.Alike Eq Eq) (mapper.resolve framework space)
      (mapper.resolve { framework with fieldValue } space) := by
    refine resolve_agrees alike ?_ reads ⟨.refl _, rfl, rfl⟩
    rintro _ _ rfl
    rfl
  exact (runs.mono fun _ _ left => left.eq.symm).of_eq.symm

theorem Framework.logging_reading (framework : Framework World)
    (fieldValue : World → Reference → Nat → Outcome FieldValue) :
    { framework with fieldValue }.logging =
      { framework.logging with fieldValue := fun state => fieldValue state.world } :=
  rfl

/-- What was asked, and in which world. -/
def Entry.question (entry : Entry World) : Request × World :=
  (entry.request, entry.world)

/-- The same world after the same questions. -/
structure Logged.AskedAlike (first second : Logged World) : Prop where
  world : second.world = first.world
  questions : second.log.map Entry.question = first.log.map Entry.question

theorem Logged.AskedAlike.refl (logged : Logged World) : logged.AskedAlike logged :=
  ⟨rfl, rfl⟩

namespace Recorder

variable {σ ρ α : Type} (recorder : Recorder World σ ρ) {request : Request} {state twin : ρ}
  {alike : ρ → ρ → Prop}

theorem note_agrees_note {given : α → Option Reference} {attempt : Attempt σ α}
    (bare : recorder.bare twin = recorder.bare state)
    (joins : ∀ next (entry other : Entry World), other.question = entry.question →
      alike (recorder.join next (recorder.log state ++ [entry]))
        (recorder.join next (recorder.log twin ++ [other]))) :
    Agree alike (recorder.note request given attempt state)
      (recorder.note request given attempt twin) := by
  unfold note
  rw [bare]
  cases attempt (recorder.bare state) with
  | ok value next => exact .ok (joins _ _ _ rfl)
  | error error next => exact .error (joins _ _ _ rfl)

/-- Errors that are tolerated may take the place of successes. -/
theorem note_agrees_tolerant {first second : Attempt σ Unit} (hook : request.stores = false)
    (same : second.tolerant = first.tolerant) (bare : recorder.bare twin = recorder.bare state)
    (joins : ∀ next (entry other : Entry World), other.question = entry.question →
      alike (recorder.join next (recorder.log state ++ [entry]))
        (recorder.join next (recorder.log twin ++ [other]))) :
    Agree alike ((recorder.note request (fun _ => none) first).tolerant state)
      ((recorder.note request (fun _ => none) second).tolerant twin) := by
  obtain ⟨entry, asked, here, went⟩ := recorder.note_tolerant_cases state first hook
  obtain ⟨other, askedToo, hereToo, wentToo⟩ := recorder.note_tolerant_cases twin second hook
  have question : other.question = entry.question := by
    rw [Entry.question, Entry.question, asked, askedToo, here, hereToo, bare]
  rw [same, bare] at wentToo
  cases made : first.tolerant (recorder.bare state) with
  | ok value next =>
      rw [made] at went wentToo
      rw [went.1, wentToo.1]
      exact .ok (joins next entry other question)
  | error error next =>
      rw [made] at went wentToo
      rw [went.1, wentToo.1]
      exact .error (joins next entry other question)

end Recorder

theorem Logged.AskedAlike.added {first second : Logged World} (alike : first.AskedAlike second)
    (world : World) (entry other : Entry World) (question : other.question = entry.question) :
    Logged.AskedAlike ⟨world, first.log ++ [entry]⟩ ⟨world, second.log ++ [other]⟩ :=
  ⟨rfl, by rw [List.map_append, List.map_append, alike.questions, List.map_singleton,
    List.map_singleton, question]⟩

/-- Frameworks that differ in provisional failures of references and callbacks at most are asked the
same questions. -/
theorem Framework.logging_alike_of_tolerant (framework : Framework World)
    {writeReference : Reference → Field → FieldValue → Attempt (Record × World) Unit}
    {inserted updated : Reference → Field → Attempt World Unit}
    (written : ∀ owner field value, (writeReference owner field value).tolerant =
      (framework.writeReference owner field value).tolerant)
    (insertedAlike : ∀ owner field,
      (inserted owner field).tolerant = (framework.inserted owner field).tolerant)
    (updatedAlike : ∀ owner field,
      (updated owner field).tolerant = (framework.updated owner field).tolerant) :
    framework.logging.Alike Eq Logged.AskedAlike
      { framework with writeReference, inserted, updated }.logging where
  knownKey alike := congrArg framework.knownKey alike.world
  isDeleted alike := congrArg framework.isDeleted alike.world
  isDetached alike := congrArg framework.isDetached alike.world
  isManaged alike := congrArg framework.isManaged alike.world
  setField _ _ _ _ _ alike := Recorder.onWorld.note_agrees_note alike.world alike.added
  persist object around other alike := by
    apply Recorder.onSurroundings.note_agrees_note
    · exact congrArg₂ Surroundings.mk alike.registry alike.world.world
    · exact fun next entry other question => ⟨rfl, alike.world.added _ _ _ question⟩
  flush object around other alike := by
    apply Recorder.onSurroundings.note_agrees_note
    · exact congrArg₂ Surroundings.mk alike.registry alike.world.world
    · exact fun next entry other question => ⟨rfl, alike.world.added _ _ _ question⟩
  writeReference := by
    rintro owner field value _ record world other rfl alike
    apply Recorder.onRecord.note_agrees_tolerant rfl (written owner field value)
    · exact congrArg (Prod.mk record) alike.world
    · exact fun next entry other question => ⟨rfl, alike.added _ _ _ question⟩
  inserted owner field _ _ alike :=
    Recorder.onWorld.note_agrees_tolerant rfl (insertedAlike owner field) alike.world alike.added
  updated owner field _ _ alike :=
    Recorder.onWorld.note_agrees_tolerant rfl (updatedAlike owner field) alike.world alike.added

/-- **A provisional failure of a reference or a callback changes nothing.** A framework that succeeds
in its place gets the same questions, and leaves the same draft, registry and world. -/
theorem Mapper.resolve_tolerating (mapper : Mapper) (space : Workspace (Logged World))
    {writeReference : Reference → Field → FieldValue → Attempt (Record × World) Unit}
    {inserted updated : Reference → Field → Attempt World Unit}
    (written : ∀ owner field value, (writeReference owner field value).tolerant =
      (framework.writeReference owner field value).tolerant)
    (insertedAlike : ∀ owner field,
      (inserted owner field).tolerant = (framework.inserted owner field).tolerant)
    (updatedAlike : ∀ owner field,
      (updated owner field).tolerant = (framework.updated owner field).tolerant) :
    Agree (Workspace.Alike Eq Logged.AskedAlike) (mapper.resolve framework.logging space)
      (mapper.resolve { framework with writeReference, inserted, updated }.logging space) := by
  refine resolve_agrees
    (framework.logging_alike_of_tolerant written insertedAlike updatedAlike) ?_ (fun _ _ => rfl)
    ⟨.refl _, rfl, .refl _⟩
  rintro _ _ rfl
  rfl

end RecordMapping
