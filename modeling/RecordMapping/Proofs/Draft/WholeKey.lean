import RecordMapping.Proofs.Draft.KeyParts
import RecordMapping.Proofs.Draft.Leaves

/-!
# Keys that were given as a whole

The field for the parent moves a key that was derived from an id or a name, but not one that the
application gave as a whole. Which of the two it is the draft keeps as the origin of its key, and a
whole key that equals the key of the record is taken without a look at the origin. So a whole key
stays as it was given (`Draft.Stands`), with one exception: where the record had that very key
before, from another source and without a parent (`Draft.IsMovable`), the next parent still moves
it.
-/

namespace RecordMapping

open Attempt

/-- Whether the field at a position plays the given part and takes a value for a complete key: the
key as a whole, or its token. -/
def ClassSchema.TakesKey (schema : Schema) (role : Role) (position : Nat) (value : FieldValue)
    (key : Key) : Prop :=
  ∃ field, schema.field position = .ok field ∧ field.role = role ∧
    (field.keyForm = .ok .key ∨ field.keyForm = .ok .token) ∧
    Draft.wholeKey field value = .ok (some key) ∧ key.isComplete = true

namespace Draft

variable {draft after : Draft} {key parent : Key}

/-- Whether the record has the given complete key for good, as far as fields go: a field gave it as
a whole, or it has a parent already. -/
structure Stands (draft : Draft) (key : Key) : Prop where
  held : draft.key = key
  complete : key.isComplete = true
  settled : draft.keyOrigin = some .whole ∨ draft.record.parent?.isSome = true

/-- Whether the field for the parent may still move the complete key of a record. -/
structure IsMovable (draft : Draft) : Prop where
  complete : draft.key.isComplete = true
  pieced : draft.keyOrigin ≠ some .whole
  rootless : draft.record.parent? = none

/-- The law of leaving a key that stands where it is. -/
def standing (key : Key) : Law Draft where
  allows before after := before.Stands key → after.Stands key
  reports _ _ := True
  refl _ stands := stands
  trans first second stands := second (first stands)
  carry _ _ := trivial

theorem Stands.of_same (stands : draft.Stands key) (sameKey : after.key = draft.key)
    (sameOrigin : after.keyOrigin = draft.keyOrigin) : after.Stands key := by
  have sameParent : after.record.parent? = draft.record.parent? := congrArg Key.parent? sameKey
  refine ⟨sameKey.trans stands.held, stands.complete, ?_⟩
  rw [sameOrigin, sameParent]
  exact stands.settled

/-! ## The primary key -/

theorem setPrimaryKey_of_whole {field : Field} {value : FieldValue} {given : Option Key}
    (form : field.keyForm = .ok .key ∨ field.keyForm = .ok .token)
    (read : wholeKey field value = .ok given) :
    draft.setPrimaryKey field value = draft.applyPrimaryKey given .whole := by
  unfold setPrimaryKey
  rcases form with form | form
  · rw [form, read]
    rfl
  · rw [form, read]
    rfl

theorem applyKey_key {origin : KeyOrigin} (applied : draft.applyKey key origin = .ok after) :
    after.key = key := by
  have rekeyed {after : Draft} (moved : draft.rekey key = .ok after) : after.key = key := by
    obtain ⟨-, rfl⟩ := rekey_ok moved
    rfl
  unfold applyKey at applied
  split at applied
  case h_1 =>
    split at applied
    · contradiction
    split at applied
    · exact rekeyed applied
    · contradiction
  case h_2 =>
    split at applied
    case isFalse => exact rekeyed applied
    case isTrue =>
      obtain ⟨-, rfl⟩ := rebase_ok applied
      rfl

theorem applyPrimaryKey_of_complete {origin : KeyOrigin} (complete : draft.key.isComplete = true)
    (applied : draft.applyPrimaryKey (some key) origin = .ok after) :
    draft.key = key ∧ after = draft := by
  simp only [applyPrimaryKey, complete, ↓reduceIte] at applied
  split at applied
  · contradiction
  split at applied
  case isTrue same => exact ⟨same, (Except.ok.inj applied).symm⟩
  case isFalse => contradiction

theorem applyPrimaryKey_of_incomplete {origin : KeyOrigin} (incomplete : ¬ draft.key.isComplete = true)
    (applied : draft.applyPrimaryKey (some key) origin = .ok after) :
    after.key = key ∧ after.keyOrigin = some origin := by
  simp only [applyPrimaryKey, incomplete] at applied
  split at applied
  · contradiction
  · simp only [Bool.false_eq_true, ↓reduceIte, bind_eq_ok_iff] at applied
    obtain ⟨placed, taken, made⟩ := applied
    obtain rfl := Except.ok.inj made
    have held : placed.key = key := applyKey_key taken
    exact ⟨held, rfl⟩

/-! ## Rules -/

theorem applyPrimaryKey_stands {given : Option Key} {origin : KeyOrigin} :
    (standing key).Governs draft (draft.applyPrimaryKey given origin) := by
  cases done : draft.applyPrimaryKey given origin with
  | error error => trivial
  | ok after =>
      intro stands
      have complete : draft.key.isComplete = true := stands.held ▸ stands.complete
      have same : after = draft := by
        cases given with
        | none => exact applyPrimaryKey_none origin done
        | some other => exact (applyPrimaryKey_of_complete complete done).2
      rw [same]
      exact stands

theorem applyParent_stands {given : Option Key} :
    (standing key).Governs draft (draft.applyParent given) := by
  cases done : draft.applyParent given with
  | error error => trivial
  | ok after =>
      intro stands
      suffices same : after = draft by
        rw [same]
        exact stands
      unfold applyParent at done
      split at done
      case h_1 => exact (Except.ok.inj done).symm
      case h_2 =>
        split at done
        · contradiction
        · exact (Except.ok.inj done).symm
      case h_3 =>
        split at done
        · contradiction
        split at done
        · exact (Except.ok.inj done).symm
        · contradiction
      case h_4 parent rootless =>
        -- Without a parent the key was given as a whole, and such a key is not moved.
        have whole : draft.keyOrigin = some .whole := by
          rcases stands.settled with whole | placed
          · exact whole
          · rw [rootless] at placed
            contradiction
        split at done
        · contradiction
        · rw [movedKey, whole] at done
          contradiction

theorem movedKey_of_isMovable (sound : draft.IsSound) (new : draft.operation = .insert)
    (movable : draft.IsMovable) (complete : parent.isComplete = true) :
    ∃ key, draft.movedKey parent = .ok key ∧ key.kind = draft.record.kind := by
  have valid : Kind.check draft.record.kind = .ok () := by
    have kind : draft.record.kind = draft.schema.kind := sound.kind
    rw [kind]
    exact sound.valid new
  unfold movedKey
  cases origin : draft.keyOrigin with
  | none =>
      obtain ⟨key, built⟩ := Key.incomplete_of_isComplete valid complete
      exact ⟨key, mapError_eq_ok_iff.mpr built, (Key.incomplete_ok built).1⟩
  | some origin' =>
      cases origin' with
      | derived =>
          obtain ⟨key, moved⟩ := Key.movedUnder_of_isComplete draft.key complete
          exact ⟨key, mapError_eq_ok_iff.mpr moved, (Key.movedUnder_ok moved).1⟩
      | whole => exact (movable.pieced origin).elim

/-- The exception: a complete parent that is given to a new record moves the key below it. -/
theorem applyParent_of_isMovable (sound : draft.IsSound) (new : draft.operation = .insert)
    (movable : draft.IsMovable) (complete : parent.isComplete = true) :
    ∃ after, draft.applyParent (some parent) = .ok after ∧ after.record.parent? = some parent := by
  obtain ⟨key, moved, kind⟩ := movedKey_of_isMovable sound new movable complete
  refine ⟨draft.withKey key draft.keyOrigin (some .field), ?_, (movedKey_ok moved).1⟩
  rw [applyParent_some_iff new movable.rootless (sound.parentOrigin_eq_none movable.rootless)]
  exact ⟨key, moved, kind, rfl⟩

end Draft

/-! ## Any field -/

namespace Mapper

variable {mapper : Mapper} {knownKey : Reference → Option Key} {draft after : Draft} {key : Key}
  {position : Nat} {value : FieldValue} {provide : Nat → Outcome FieldValue}

theorem storeReached_stands {reached : Outcome Leaf} :
    (mapper.storeReached knownKey reached).Keeps (Draft.standing key) draft :=
  keeps_storeReached (fun _ _ => trivial) fun _ _ stands =>
    stands.of_same (draft.record.key_putAll _) rfl

/-- **A key that stands is left where it is by every field**, whatever it is given. -/
theorem fillField_stands :
    (mapper.fillField knownKey position value).Keeps (Draft.standing key) draft :=
  keeps_fillField (fun _ _ => trivial) (fun _ _ _ => Draft.applyPrimaryKey_stands)
    (fun _ _ => Draft.applyParent_stands) fun _ _ => storeReached_stands

theorem fillFields_stands {positions : List Nat} :
    (mapper.fillFields knownKey provide positions).Keeps (Draft.standing key) draft :=
  keeps_fillFields (fun _ _ => trivial) fun _ _ _ => fillField_stands

/-- A whole key that is taken is the key of the record from then on, and it stands unless the record
had it before. -/
theorem fillField_of_takesKey (given : draft.schema.TakesKey .primaryKey position value key)
    (accepted : mapper.fillField knownKey position value draft = .ok () after) :
    (draft.IsMovable → after = draft ∧ draft.key = key) ∧ (¬ draft.IsMovable → after.Stands key) := by
  obtain ⟨field, found, role, whole, read, complete⟩ := given
  rw [fillField_eq found, role] at accepted
  replace accepted := update_eq_ok_iff.mp accepted
  rw [Draft.setPrimaryKey_of_whole whole read] at accepted
  by_cases known : draft.key.isComplete = true
  · obtain ⟨same, rfl⟩ := Draft.applyPrimaryKey_of_complete known accepted
    refine ⟨fun _ => ⟨rfl, same⟩, fun fixed => ⟨same, complete, ?_⟩⟩
    by_cases origin : after.keyOrigin = some .whole
    · exact .inl origin
    · refine .inr (Option.isSome_iff_ne_none.mpr fun rootless => ?_)
      exact fixed ⟨known, origin, rootless⟩
  · obtain ⟨held, origin⟩ := Draft.applyPrimaryKey_of_incomplete known accepted
    exact ⟨fun movable => (known movable.complete).elim, fun _ => ⟨held, complete, .inl origin⟩⟩

theorem fillField_of_isMovable (mapper : Mapper) (knownKey : Reference → Option Key) {parent : Key}
    (sound : draft.IsSound) (new : draft.operation = .insert) (movable : draft.IsMovable)
    (given : draft.schema.TakesKey .parentKey position value parent) :
    ∃ after, mapper.fillField knownKey position value draft = .ok () after ∧
      after.record.parent? = some parent := by
  obtain ⟨field, found, role, form, read, complete⟩ := given
  obtain ⟨after, applied, below⟩ := Draft.applyParent_of_isMovable sound new movable complete
  refine ⟨after, ?_, below⟩
  rw [fillField_eq found, role]
  apply update_eq_ok_iff.mpr
  simp only [Draft.setParentField, bind_eq_ok_iff]
  rcases form with form | form
  · exact ⟨_, form, some parent, read, applied⟩
  · exact ⟨_, form, some parent, read, applied⟩

end Mapper

/-! ## Runs -/

/-- Whether a call fills fields, one or several. -/
def DraftCall.IsFilling : DraftCall → Prop
  | fillField _ _ _ => True
  | fillFields _ _ _ => True
  | _ => False

theorem DraftCall.left_stands {mapper : Mapper} {call : DraftCall} {draft : Draft} {key : Key}
    (filling : call.IsFilling) : (Draft.standing key).allows draft (call.left mapper draft) := by
  have keeps : (call.attempt mapper).Keeps (Draft.standing key) draft := by
    cases call with
    | fillField knownKey position value => exact Mapper.fillField_stands
    | fillFields knownKey provide positions => exact Mapper.fillFields_stands
    | placeInGroup registry => exact filling.elim
    | assignKey key => exact filling.elim
    | resolve framework around => exact filling.elim
  exact keeps.allows

namespace Draft

variable {mapper : Mapper} {object : Reference} {start after : Draft} {calls : List DraftCall}
  {count later : Nat} {knownKey : Reference → Option Key} {position : Nat} {value : FieldValue}
  {key : Key}

/-- **A key that stands is left where it is by every run of fields.** -/
theorem moment_stands (stands : (start.moment mapper calls count).Stands key)
    (filling : ∀ place call, count ≤ place → calls[place]? = some call → call.IsFilling)
    (ordered : count ≤ later) : (start.moment mapper calls later).Stands key := by
  have stays : (standing key).allows (start.moment mapper calls count)
      (start.moment mapper calls later) :=
    moment_allows ordered fun place call after _ found =>
      DraftCall.left_stands (filling place call after found)
  exact stays stands

/-- **A whole key stays as it was given.** Once the field for the primary key of a new record has
taken a complete key, the record has that key in every later state of a run that only fills fields,
whatever had been done before, unless the record had the key already, in pieces and without a
parent. Then, and only then, the field for the parent moves it with the next complete key that it is
given. -/
theorem whole_key_of_run (opened : mapper.insert object = .ok start)
    (modest : ∀ call ∈ calls, call.KeepsKeys)
    (called : calls[count]? = some (.fillField knownKey position value))
    (given : start.schema.TakesKey .primaryKey position value key)
    (accepted : mapper.fillField knownKey position value (start.moment mapper calls count) =
      .ok () after)
    (filling : ∀ place call, count < place → calls[place]? = some call → call.IsFilling) :
    (¬ (start.moment mapper calls count).IsMovable →
      ∀ later, count < later → (start.moment mapper calls later).key = key) ∧
    ((start.moment mapper calls count).IsMovable →
      (start.moment mapper calls (count + 1)).key = key ∧
        ∀ knownKey position value parent, start.schema.TakesKey .parentKey position value parent →
          ∃ moved, mapper.fillField knownKey position value
              (start.moment mapper calls (count + 1)) = .ok () moved ∧
            moved.key ≠ key) := by
  have turn : Turn _ start (start.moment mapper calls count) :=
    moment_turn modest (Nat.zero_le count)
  have reached : start.moment mapper calls (count + 1) = after := by
    rw [moment_succ called]
    change ((mapper.fillField knownKey position value).outcome _).2 = after
    rw [outcome, accepted]
  rw [← turn.schema] at given
  obtain ⟨repeated, standing⟩ := Mapper.fillField_of_takesKey given accepted
  constructor
  · intro fixed later ordered
    have stands : (start.moment mapper calls (count + 1)).Stands key := reached ▸ standing fixed
    exact (moment_stands stands filling ordered).held
  · intro movable
    obtain ⟨same, held⟩ := repeated movable
    rw [reached, same]
    refine ⟨held, fun knownKey position value parent above => ?_⟩
    have sound : (start.moment mapper calls count).IsSound :=
      moment_isSound (Mapper.Opens.isSound (.inl opened)) modest count
    have new : (start.moment mapper calls count).operation = .insert :=
      turn.operation.trans (Mapper.insert_ok opened).2.2.new
    rw [← turn.schema] at above
    obtain ⟨moved, filled, below⟩ :=
      Mapper.fillField_of_isMovable mapper knownKey sound new movable above
    refine ⟨moved, filled, fun unmoved => ?_⟩
    have rootless : moved.record.parent? = none := by
      rw [← movable.rootless]
      exact congrArg Key.parent? (unmoved.trans held.symm)
    rw [below] at rootless
    contradiction

/-! ### A book that is numbered and has a whole key, as an example -/

/-- A class whose key is given by its number or as a whole, below the key of a library. -/
def volumeClass : Schema where
  name := "Book"
  kind := "Book"
  inheritance := .newTable
  isEmbeddable := false
  fields := [
    { name := "number", type := .long, isKeyId := true },
    { name := "key", type := .key, isPrimaryKey := true },
    { name := "library", type := .key, isParentKey := true }]

def volumeMapper : Mapper where
  settings := {}
  schema? name := if name = "Book" then some volumeClass else none

/-- The draft of a new volume. -/
def newVolume : Draft :=
  { newBook with schema := volumeClass }

/-- The key of a volume without a library. -/
def volumeKey : Key :=
  ⟨[], "Book", some (.id 7)⟩

/-- A key that was given as a whole is not moved by a library that is given afterwards. -/
theorem whole_key_of_run_volume :
    let calls : List DraftCall := [.fillField (fun _ => none) 1 (.key volumeKey),
      .fillField (fun _ => none) 0 (.int 7), .fillField (fun _ => none) 2 (.key library)]
    (newVolume.moment volumeMapper calls 3).key = volumeKey := by
  intro calls
  have opened : volumeMapper.insert book = .ok newVolume := rfl
  have modest : ∀ call ∈ calls, call.KeepsKeys := by simp [calls, DraftCall.KeepsKeys]
  have given : volumeClass.TakesKey .primaryKey 1 (.key volumeKey) volumeKey :=
    ⟨{ name := "key", type := .key, isPrimaryKey := true }, rfl, rfl, .inl rfl, rfl, rfl⟩
  have filling : ∀ place (call : DraftCall), 0 < place → calls[place]? = some call →
      call.IsFilling := by
    rintro (_ | _ | _ | place) call passed found
    · contradiction
    · obtain rfl := Option.some.inj found
      trivial
    · obtain rfl := Option.some.inj found
      trivial
    · contradiction
  have fixed : ¬ (newVolume.moment volumeMapper calls 0).IsMovable := by
    intro movable
    exact nomatch movable.complete
  have called : calls[0]? = some (.fillField (fun _ => none) 1 (.key volumeKey)) := rfl
  exact (whole_key_of_run opened modest called given rfl filling).1 fixed 3 (by decide)

/-- A whole key that equals the numbered one of the record is moved by the library. -/
theorem not_whole_key_of_numbered_volume :
    let calls : List DraftCall := [.fillField (fun _ => none) 0 (.int 7),
      .fillField (fun _ => none) 1 (.key volumeKey), .fillField (fun _ => none) 2 (.key library)]
    volumeMapper.insert book = .ok newVolume ∧
      volumeClass.TakesKey .primaryKey 1 (.key volumeKey) volumeKey ∧
      volumeMapper.fillField (fun _ => none) 1 (.key volumeKey)
        (newVolume.moment volumeMapper calls 1) = .ok () (newVolume.moment volumeMapper calls 2) ∧
      (newVolume.moment volumeMapper calls 2).key = volumeKey ∧
      (newVolume.moment volumeMapper calls 3).key =
        ⟨[⟨"Library", .name "central"⟩], "Book", some (.id 7)⟩ := by
  intro calls
  have given : volumeClass.TakesKey .primaryKey 1 (.key volumeKey) volumeKey :=
    ⟨{ name := "key", type := .key, isPrimaryKey := true }, rfl, rfl, .inl rfl, rfl, rfl⟩
  exact ⟨rfl, given, rfl, rfl, rfl⟩

end Draft

end RecordMapping
