import RecordMapping.Proofs.Draft.Resolution

/-!
# Runs of calls on a draft

A draft is opened for a new or a known record and then takes public calls in any order, each of
which may succeed or fail. `DraftCall` is one call with all that it is given, `Draft.moment` the
draft after the first calls of a run. Every call keeps the law of keys, and so does every run.
-/

namespace RecordMapping

open Attempt

/-- A public call on a draft, with all that it is given. -/
inductive DraftCall : Type 1 where
  | fillField (knownKey : Reference → Option Key) (position : Nat) (value : FieldValue)
  | fillFields (knownKey : Reference → Option Key) (provide : Nat → Outcome FieldValue)
      (positions : List Nat)
  | placeInGroup (registry : ParentRegistry)
  | assignKey (key : Key)
  | resolve {World : Type} (framework : Framework World) (around : Surroundings World)

namespace DraftCall

variable {mapper : Mapper} {call : DraftCall} {draft : Draft}

/-- The call as an attempt on the draft. What it gives back besides, and what becomes of its
surroundings, is left out. -/
def attempt (mapper : Mapper) : DraftCall → Attempt Draft Unit
  | fillField knownKey position value => mapper.fillField knownKey position value
  | fillFields knownKey provide positions => mapper.fillFields knownKey provide positions
  | placeInGroup registry => do
      let _ ← Draft.placeInGroup.withLocal registry (fun registry draft => (draft, registry))
        fun _ (draft, registry) => (registry, draft)
  | assignKey key => Attempt.update fun draft => draft.assignKey key
  | resolve framework around => do
      let _ ← (mapper.resolve framework).withLocal around (fun around draft => ⟨draft, around⟩)
        fun _ space => (space.surroundings, space.draft)

/-- The draft that a call leaves, whether it succeeds or fails. -/
def left (mapper : Mapper) (call : DraftCall) (draft : Draft) : Draft :=
  ((call.attempt mapper).outcome draft).2

/-- The calls whose surroundings leave the keys of records alone. -/
def KeepsKeys : DraftCall → Prop
  | resolve framework _ => framework.KeepsKeys
  | _ => True

/-- The errors that come from what a call is given, not from the draft. -/
def MayReport (mapper : Mapper) : DraftCall → MappingError → Prop
  | fillField _ _ _, error => mapper.PackingFails error
  | fillFields _ provide _, error =>
      mapper.PackingFails error ∨ ∃ position, provide position = .error error
  | placeInGroup _, _ => False
  | assignKey _, _ => False
  | resolve framework _, error => framework.MayReport error

/-- The calls that take the identifier from the key of a draft. -/
def LosesKey (mapper : Mapper) : DraftCall → Draft → Prop
  | fillField _ position value, draft => draft.LosesKeyAt position value
  | fillFields knownKey provide positions, draft =>
      mapper.LosesKeyAmong knownKey provide positions draft
  | _, _ => False

/-- **Every call turns the key once.** -/
theorem attempt_keeps (modest : call.KeepsKeys) :
    (call.attempt mapper).Keeps
      (Draft.keyLaw (call.LosesKey mapper draft) (call.MayReport mapper)) draft := by
  cases call with
  | fillField knownKey position value => exact Mapper.fillField_keeps fun _ failed => failed
  | fillFields knownKey provide positions =>
      exact Mapper.fillFields_keeps (fun _ failed => .inl failed)
        fun position _ failed => .inr ⟨position, failed⟩
  | placeInGroup registry =>
      have placed : Draft.placeInGroup.Keeps
          ((Draft.keyLaw False (MayReport mapper (placeInGroup registry))).comap Prod.fst)
          (draft, registry) := Draft.placeInGroup_keeps
      apply keeps_bind
      · apply keeps_withLocal
        · exact placed
        · exact fun _ turn => turn
        · exact fun _ reports => reports
      · exact fun _ _ _ => keeps_pure ()
  | assignKey key =>
      apply keeps_update
      exact Draft.assignKey_governs
  | resolve framework around =>
      apply keeps_bind
      · apply keeps_withLocal
        · exact Mapper.resolve_keeps modest
        · exact fun _ reached => reached.2.turn
        · exact fun _ reports _ => reports
      · exact fun _ _ _ => keeps_pure ()

theorem left_turn (modest : call.KeepsKeys) :
    Draft.Turn (call.LosesKey mapper draft) draft (call.left mapper draft) :=
  (attempt_keeps modest).allows

end DraftCall

/-! ## Runs -/

/-- Whether a draft was just opened for an object, whose record is new or known. -/
def Mapper.Opens (mapper : Mapper) (object : Reference) (draft : Draft) : Prop :=
  mapper.insert object = .ok draft ∨ ∃ record, mapper.update object record = .ok draft

/-- The draft after the first `count` calls of a run. -/
def Draft.moment (mapper : Mapper) (calls : List DraftCall) (start : Draft) (count : Nat) : Draft :=
  (calls.take count).foldl (fun draft call => call.left mapper draft) start

namespace Draft

variable {mapper : Mapper} {calls : List DraftCall} {start : Draft} {call : DraftCall}
  {count earlier later : Nat}

theorem moment_succ (found : calls[count]? = some call) :
    start.moment mapper calls (count + 1) = call.left mapper (start.moment mapper calls count) := by
  rw [moment, List.take_add_one, found, List.foldl_append]
  rfl

theorem moment_succ_of_none (ended : calls[count]? = none) :
    start.moment mapper calls (count + 1) = start.moment mapper calls count := by
  rw [moment, List.take_add_one, ended]
  simp only [Option.toList_none, List.append_nil]
  rfl

/-- **What each call of a run does according to a law, the run does between any two moments.** The
induction is on the later moment. -/
theorem moment_allows {law : Law Draft} (ordered : earlier ≤ later)
    (steps : ∀ count call, earlier ≤ count → count < later → calls[count]? = some call →
      law.allows (start.moment mapper calls count)
        (call.left mapper (start.moment mapper calls count))) :
    law.allows (start.moment mapper calls earlier) (start.moment mapper calls later) := by
  induction ordered with
  | refl => exact law.refl _
  | @step later ordered ih =>
      have sofar : law.allows (start.moment mapper calls earlier)
          (start.moment mapper calls later) :=
        ih fun count call after before => steps count call after (Nat.lt_succ_of_lt before)
      cases found : calls[later]? with
      | none =>
          rw [moment_succ_of_none found]
          exact sofar
      | some call =>
          rw [moment_succ found]
          exact law.trans sofar (steps later call ordered (Nat.lt_succ_self later) found)

/-- Whether some call between two moments takes the identifier from the key. -/
def LosesKeyBetween (mapper : Mapper) (calls : List DraftCall) (start : Draft)
    (earlier later : Nat) : Prop :=
  ∃ count call, earlier ≤ count ∧ count < later ∧ calls[count]? = some call ∧
    call.LosesKey mapper (start.moment mapper calls count)

/-- **A run turns the key once between any two moments.** -/
theorem moment_turn (modest : ∀ call ∈ calls, call.KeepsKeys) (ordered : earlier ≤ later) :
    Turn (start.LosesKeyBetween mapper calls earlier later)
      (start.moment mapper calls earlier) (start.moment mapper calls later) := by
  have turns : (keyLaw (start.LosesKeyBetween mapper calls earlier later) fun _ => True).allows
      (start.moment mapper calls earlier) (start.moment mapper calls later) := by
    apply moment_allows ordered
    intro count call after before found
    apply (DraftCall.left_turn (modest call (List.mem_of_getElem? found))).mono
    exact fun lost => ⟨count, call, after, before, found, lost⟩
  exact turns

theorem moment_isSound (sound : start.IsSound) (modest : ∀ call ∈ calls, call.KeepsKeys)
    (count : Nat) : (start.moment mapper calls count).IsSound :=
  (moment_turn modest (Nat.zero_le count)).isSound sound

end Draft

/-! ## Opened drafts -/

/-- A draft for a new record: its key is that of its class, without a parent and without an
identifier, and nothing has set it. -/
structure Draft.IsBlank (draft : Draft) : Prop where
  new : draft.operation = .insert
  key : draft.key = ⟨[], draft.schema.kind, none⟩
  valid : Kind.check draft.schema.kind = .ok ()
  unset : draft.keyOrigin = none
  unplaced : draft.parentOrigin = none

namespace Mapper

variable {mapper : Mapper} {object : Reference} {draft : Draft}

theorem insert_ok (opened : mapper.insert object = .ok draft) :
    mapper.schema object.className = .ok draft.schema ∧ draft.object = object ∧ draft.IsBlank := by
  simp only [insert, bind_eq_ok_iff] at opened
  obtain ⟨schema, found, record, made, built⟩ := opened
  obtain rfl := Except.ok.inj built
  simp only [Record.ofKind, bind_eq_ok_iff, mapError_eq_ok_iff, Key.incomplete] at made
  obtain ⟨key, ⟨_, valid, ancestors, rooted, madeKey⟩, madeRecord⟩ := made
  obtain rfl := Except.ok.inj rooted
  obtain rfl := Except.ok.inj madeKey
  obtain rfl := Except.ok.inj madeRecord
  exact ⟨found, rfl, rfl, rfl, valid, rfl, rfl⟩

theorem update_ok {record : Record} (opened : mapper.update object record = .ok draft) :
    mapper.schema object.className = .ok draft.schema ∧ draft.operation = .update ∧
      draft.record = record ∧ record.kind = draft.schema.kind ∧ draft.parentOrigin = none := by
  simp only [update, bind_eq_ok_iff] at opened
  obtain ⟨schema, found, built⟩ := opened
  split at built
  case isTrue kind =>
    obtain rfl := Except.ok.inj built
    exact ⟨found, rfl, rfl, kind, rfl⟩
  case isFalse => contradiction

theorem Opens.schema (opened : mapper.Opens object draft) :
    mapper.schema object.className = .ok draft.schema := by
  rcases opened with inserted | ⟨record, updated⟩
  · exact (insert_ok inserted).1
  · exact (update_ok updated).1

theorem Opens.object_eq (opened : mapper.Opens object draft) : draft.object = object := by
  rcases opened with inserted | ⟨record, updated⟩
  · exact (insert_ok inserted).2.1
  · simp only [update, bind_eq_ok_iff] at updated
    obtain ⟨schema, -, built⟩ := updated
    split at built
    case isTrue =>
      obtain rfl := Except.ok.inj built
      rfl
    case isFalse => contradiction

theorem Opens.isSound (opened : mapper.Opens object draft) : draft.IsSound := by
  rcases opened with inserted | ⟨record, updated⟩
  · obtain ⟨-, -, blank⟩ := insert_ok inserted
    exact ⟨by rw [blank.key], fun _ => blank.valid, by simp [blank.unplaced]⟩
  · obtain ⟨-, operation, rfl, kind, origin⟩ := update_ok updated
    exact ⟨kind, by simp [operation], by simp [origin]⟩

theorem Opens.parent?_eq_none (opened : mapper.Opens object draft)
    (new : draft.operation = .insert) : draft.record.parent? = none := by
  rcases opened with inserted | ⟨record, updated⟩
  · exact congrArg Key.parent? (insert_ok inserted).2.2.key
  · obtain ⟨-, operation, -, -, -⟩ := update_ok updated
    rw [operation] at new
    contradiction

end Mapper

/-! ## Books, as an example -/

/-- A class with an id below the key of a library. -/
def bookClass : Schema where
  name := "Book"
  kind := "Book"
  inheritance := .newTable
  isEmbeddable := false
  fields := [
    { name := "id", type := .long, isPrimaryKey := true },
    { name := "library", type := .key, isParentKey := true }]

def bookMapper : Mapper where
  settings := {}
  schema? name := if name = "Book" then some bookClass else none

def book : Reference :=
  ⟨⟨1⟩, "Book"⟩

def library : Key :=
  ⟨[], "Library", some (.name "central")⟩

/-- The draft of a new book. -/
def newBook : Draft where
  object := book
  schema := bookClass
  operation := .insert
  record := ⟨⟨[], "Book", none⟩, []⟩

theorem newBook_opens : bookMapper.Opens book newBook :=
  .inl rfl

end RecordMapping
