import RecordMapping.Proofs.Draft.WellFormed

/-!
# Placing a draft in its entity group

Whether a draft takes the parent that is registered for its object or keeps the one that it has, the
call gives the parent of the draft that it leaves, in the form that the class's field for it holds
(`Draft.groupValue`). That form is read as the same parent again, so the value may go back into the
field: for the record that was placed it changes nothing, and a new record gets the same parent.
-/

namespace RecordMapping

open Attempt

/-! ## The field for the parent -/

/-- Whether the field for the parent's key, if a class has one, is of a type that holds it: a key,
or a text for its token. -/
def ClassSchema.HoldsParent (schema : Schema) : Prop :=
  ∀ field, schema.parentKey? = some field → field.type = .key ∨ field.type = .string

/-- Whether a value is a key as a field holds it: the key itself, or a text that is read as it. -/
def Field.HoldsAs (field : Field) (given : FieldValue) (key : Key) : Prop :=
  (field.type = .key ∧ given = .key key) ∨
    field.type = .string ∧ ∃ token, given = .text token ∧ Key.ofToken token = .ok key

theorem ClassSchema.role_of_parentKey? {schema : Schema} {field : Field}
    (found : schema.parentKey? = some field) : field.role = .parentKey := by
  simpa using List.find?_some found

theorem ClassSchema.parentKey?_of_position {schema : Schema} {position : Nat}
    (found : schema.positionOf? .parentKey = some position) :
    ∃ field, schema.parentKey? = some field ∧ schema.field position = .ok field := by
  obtain ⟨inside, plays, before⟩ := List.findIdx?_eq_some_iff_getElem.mp found
  refine ⟨schema.fields[position], ?_, ?_⟩
  · refine List.find?_eq_some_iff_getElem.mpr ⟨plays, position, inside, rfl, ?_⟩
    intro earlier first
    simpa using before earlier first
  · rw [ClassSchema.field, List.getElem?_eq_getElem inside]

namespace Draft

variable {draft placed : Draft} {parent : Key} {field : Field} {given : FieldValue}
  {value : Option FieldValue} {registry : ParentRegistry}

theorem givenParent_of_holdsAs (role : field.role = .parentKey) (holds : field.HoldsAs given parent) :
    givenParent field given = .ok (some parent) := by
  unfold givenParent Field.keyForm wholeKey
  rcases holds with ⟨type, rfl⟩ | ⟨type, token, rfl, read⟩
  · simp only [role, type, FieldValue.bare]
    rfl
  · simp only [role, type, FieldValue.bare, read]
    rfl

theorem givenParent_null (role : field.role = .parentKey)
    (typed : field.type = .key ∨ field.type = .string) : givenParent field .null = .ok none := by
  unfold givenParent Field.keyForm wholeKey
  rcases typed with type | type
  · simp only [role, type, FieldValue.bare]
    rfl
  · simp only [role, type, FieldValue.bare]
    rfl

/-! ## The parent as the class holds it -/

/-- The parent of a draft in the form that the class's field for it holds. -/
def groupValue (draft : Draft) : Outcome (Option FieldValue) :=
  match draft.record.parent? with
  | some parent => draft.parentValue parent
  | none => .ok none

/-- Whether a value tells the parent of a draft, or that it has none to be told. -/
structure TellsParent (draft : Draft) (value : Option FieldValue) : Prop where
  none_iff : value = none ↔ draft.record.parent? = none ∨ draft.schema.parentKey? = none
  holds : ∀ given, value = some given → ∃ field parent, draft.schema.parentKey? = some field ∧
    draft.record.parent? = some parent ∧ field.HoldsAs given parent

/-- A field of a fitting type gives the parent as it holds it. -/
theorem parentValue_holds (found : draft.schema.parentKey? = some field)
    (typed : field.type = .key ∨ field.type = .string) (wellFormed : parent.IsWellFormed)
    (fits : field.type = .string → parent.Fits) :
    ∃ given, draft.parentValue parent = .ok (some given) ∧ field.HoldsAs given parent := by
  have role := ClassSchema.role_of_parentKey? found
  unfold parentValue Field.keyForm
  rcases typed with type | type
  · refine ⟨.key parent, ?_, .inl ⟨type, rfl⟩⟩
    simp only [found, role, type]
    rfl
  · refine ⟨.text parent.token, ?_, .inr ⟨type, _, rfl, Key.ofToken_token wellFormed (fits type)⟩⟩
    simp only [found, role, type]
    rfl

theorem groupValue_tells (held : draft.schema.HoldsParent) (wellFormed : draft.key.IsWellFormed)
    (fits : ∀ field parent, draft.schema.parentKey? = some field → field.type = .string →
      draft.record.parent? = some parent → parent.Fits) :
    ∃ value, draft.groupValue = .ok value ∧ draft.TellsParent value := by
  unfold groupValue
  cases above : draft.record.parent? with
  | none => exact ⟨none, rfl, by simp [above], by simp⟩
  | some parent =>
      cases found : draft.schema.parentKey? with
      | none =>
          refine ⟨none, ?_, by simp [found], by simp⟩
          simp only [parentValue, found]
      | some field =>
          obtain ⟨given, told, holds⟩ := parentValue_holds found (held field found)
            (Key.parent_isWellFormed wellFormed above)
            fun text => fits field parent found text above
          refine ⟨some given, told, by simp [above, found], fun other same => ?_⟩
          obtain rfl := Option.some.inj same
          exact ⟨field, parent, found, above, holds⟩

/-- What is told goes back into the field as the parent of the draft, null for none. -/
theorem TellsParent.givenParent (tells : draft.TellsParent value) (held : draft.schema.HoldsParent)
    (found : draft.schema.parentKey? = some field) :
    givenParent field (value.getD .null) = .ok draft.record.parent? := by
  have role := ClassSchema.role_of_parentKey? found
  cases value with
  | none =>
      have rootless : draft.record.parent? = none := by simpa [found] using tells.none_iff
      rw [rootless]
      exact givenParent_null role (held field found)
  | some given =>
      obtain ⟨other, parent, same, above, holds⟩ := tells.holds given rfl
      obtain rfl := Option.some.inj (found.symm.trans same)
      rw [above]
      exact givenParent_of_holdsAs role holds

/-! ## Placing -/

/-- A draft that joined a parent: nothing of it changed but its key, which kept its kind and its
identifier. -/
structure JoinedTo (draft joined : Draft) (parent : Key) : Prop where
  rest : joined = draft.withKey joined.key draft.keyOrigin (some .registry)
  parent : joined.record.parent? = some parent
  kind : joined.key.kind = draft.key.kind
  identifier : joined.key.identifier = draft.key.identifier

/-- Whether a draft stays where it is: its record has a parent or is a known one, or its object was
met in a relation that does not own it, or nothing is registered for it. -/
def StaysPut (draft : Draft) (registry : ParentRegistry) : Prop :=
  draft.record.parent?.isSome = true ∨ draft.operation = .update ∨
    registry.isRoot draft.object.id = true ∨ registry.parent? draft.object.id = none

theorem not_staysPut_iff : ¬ draft.StaysPut registry ↔
    draft.record.parent? = none ∧ draft.operation = .insert ∧
      registry.isRoot draft.object.id = false ∧
      ∃ parent, registry.parent? draft.object.id = some parent := by
  simp only [StaysPut, not_or, Bool.not_eq_true, Option.isSome_eq_false_iff, Option.isNone_iff_eq_none,
    ← ne_eq, Option.ne_none_iff_exists']
  apply and_congr_right
  intro _
  cases draft.operation <;> simp

/-- A draft that stays where it is asks the registry at most. -/
theorem placeInGroup_of_staysPut (stays : draft.StaysPut registry) :
    placeInGroup.outcome (draft, registry) = (draft.groupValue, draft, registry) := by
  have told : placeInGroup (draft, registry) =
      (liftM draft.groupValue : Attempt (Draft × ParentRegistry) (Option FieldValue))
        (draft, registry) := by
    unfold placeInGroup groupValue
    rw [get_bind]
    cases above : draft.record.parent? with
    | some parent => simp only [above]
    | none =>
        have unsought : (if draft.seeksParent registry = true then
            registry.parent? draft.object.id else none) = none := by
          rcases stays with placed | known | root | unregistered
          · simp [above] at placed
          · simp [seeksParent, known]
          · simp [seeksParent, root]
          · simp [unregistered]
        simp only [above, unsought]
        rfl
  rw [outcome, told]
  cases draft.groupValue with
  | ok value => rfl
  | error error => rfl

theorem placeInGroup_of_registered (sound : draft.IsSound) (new : draft.operation = .insert)
    (rootless : draft.record.parent? = none) (free : registry.isRoot draft.object.id = false)
    (announced : registry.parent? draft.object.id = some parent) (complete : parent.isComplete = true) :
    ∃ joined, draft.JoinedTo joined parent ∧
      placeInGroup.outcome (draft, registry) =
        (joined.groupValue, joined, registry.forgetParent draft.object.id) := by
  obtain ⟨key, below, kind, identifier, joins⟩ :=
    joinParent_of_isComplete sound new rootless complete
  have told : (draft.withKey key draft.keyOrigin (some .registry)).groupValue =
      (draft.withKey key draft.keyOrigin (some .registry)).parentValue parent := by
    have above : (draft.withKey key draft.keyOrigin (some .registry)).record.parent? =
        some parent := below
    rw [groupValue, above]
  refine ⟨draft.withKey key draft.keyOrigin (some .registry), ⟨rfl, below, kind, identifier⟩, ?_⟩
  rw [placeInGroup_of_announced new rootless free announced joins, told]
  rfl

/-- A draft that goes on with the same class and the same parent is told the same again. -/
theorem placeInGroup_again {later : Draft} (told : draft.groupValue = .ok value)
    (schema : later.schema = draft.schema) (parent : later.record.parent? = draft.record.parent?)
    (placed : draft.record.parent?.isSome = true) (registry : ParentRegistry) :
    placeInGroup.outcome (later, registry) = (.ok value, later, registry) := by
  have same : later.groupValue = draft.groupValue := by
    simp only [groupValue, parentValue, parent, schema]
  rw [placeInGroup_of_staysPut (.inl (parent ▸ placed)), same, told]

/-! ## The value in the field -/

theorem applyParent_of_same (straight : draft.parentOrigin ≠ some .key) :
    draft.applyParent draft.record.parent? = .ok draft := by
  cases above : draft.record.parent? with
  | none => exact applyParent_none_of_rootless above
  | some parent => simp [applyParent, above, straight]

/-- The draft of a change to the record that was built. -/
def reopened (draft : Draft) : Draft where
  object := draft.object
  schema := draft.schema
  operation := .update
  record := draft.record

/-- A new record takes any parent, or none. -/
theorem applyParent_of_isBlank (blank : draft.IsBlank) {parent : Option Key}
    (complete : ∀ key, parent = some key → key.isComplete = true) :
    ∃ after, draft.applyParent parent = .ok after ∧ after.record.parent? = parent := by
  cases parent with
  | none => exact ⟨draft, applyParent_none_of_rootless blank.rootless, blank.rootless⟩
  | some parent =>
      have kind : draft.record.kind = draft.schema.kind := congrArg Key.kind blank.key
      obtain ⟨key, built⟩ :=
        Key.incomplete_of_isComplete (kind ▸ blank.valid) (complete parent rfl)
      exact ⟨_, (applyParent_some_iff_of_blank blank).mpr ⟨key, built, rfl⟩,
        (Key.incomplete_ok built).2.1⟩

end Draft

namespace Mapper

variable {mapper : Mapper} {draft other : Draft} {knownKey : Reference → Option Key}
  {value : Option FieldValue} {position : Nat} {registry : ParentRegistry}

/-- Told of its own parent, a record changes nothing, unless a whole key gave it that parent. -/
theorem fillField_of_tellsParent (tells : draft.TellsParent value)
    (held : draft.schema.HoldsParent) (found : draft.schema.positionOf? .parentKey = some position)
    (schema : other.schema = draft.schema) (parent : other.record.parent? = draft.record.parent?) :
    (other.parentOrigin ≠ some .key →
        (mapper.fillField knownKey position (value.getD .null)).Gives other () other) ∧
      (other.parentOrigin = some .key → other.record.parent?.isSome = true →
        (mapper.fillField knownKey position (value.getD .null)).Fails other
          (.conflictingKeyAssignment other.schema.name other.key) other) := by
  obtain ⟨field, plays, there⟩ := ClassSchema.parentKey?_of_position found
  have role := ClassSchema.role_of_parentKey? plays
  have given := tells.givenParent held plays
  rw [← schema] at there
  rw [← parent] at given
  constructor
  · intro straight
    exact (fillField_gives_iff_of_parentField there role).mpr
      ⟨_, given, Draft.applyParent_of_same straight⟩
  · intro whole placed
    obtain ⟨above, placed⟩ := Option.isSome_iff_exists.mp placed
    have refused : other.setParentField field (value.getD .null) =
        .error (.conflictingKeyAssignment other.schema.name other.key) := by
      rw [Draft.setParentField_eq, given, placed]
      simp only [Draft.applyParent, placed, whole]
      rfl
    unfold Fails
    rw [fillField_eq there, role]
    simp only [Attempt.update, refused]

/-- What placing a draft in an entity group does, and what it gives. -/
structure Places (mapper : Mapper) (draft : Draft) (registry : ParentRegistry)
    (value : Option FieldValue) (placed : Draft) (left : ParentRegistry) : Prop where
  stays : draft.StaysPut registry → placed = draft ∧ left = registry
  /-- Otherwise the draft joins the parent that is registered for its object, whose entry alone
  leaves the registry. -/
  joins : ¬ draft.StaysPut registry → ∃ parent, registry.parent? draft.object.id = some parent ∧
    draft.JoinedTo placed parent ∧ registry.LosesOnly left draft.object.id
  tells : placed.TellsParent value
  /-- Once the record has a parent, the same value is given after whatever calls, and whatever is
  registered by then, and nothing changes. -/
  again : placed.record.parent?.isSome = true → ∀ calls : List DraftCall,
    (∀ call ∈ calls, call.KeepsKeys) → ∀ count later,
      Draft.placeInGroup.outcome (placed.moment mapper calls count, later) =
        (.ok value, placed.moment mapper calls count, later)
  /-- The field for the parent takes the value and changes nothing, unless a whole key gave the
  record its parent: then it is refused, as any value but null would be. -/
  refills : ∀ knownKey position, placed.schema.positionOf? .parentKey = some position →
    (placed.parentOrigin ≠ some .key →
      (mapper.fillField knownKey position (value.getD .null)).Gives placed () placed) ∧
    (placed.parentOrigin = some .key →
      (mapper.fillField knownKey position (value.getD .null)).Fails placed
        (.conflictingKeyAssignment placed.schema.name placed.key) placed)
  /-- A draft of a change to the record takes the value at any time and changes nothing. -/
  updates : mapper.update placed.object placed.record = .ok placed.reopened ∧
    ∀ knownKey position, placed.schema.positionOf? .parentKey = some position →
      ∀ calls : List DraftCall, (∀ call ∈ calls, call.KeepsKeys) → ∀ count,
        (mapper.fillField knownKey position (value.getD .null)).Gives
          (placed.reopened.moment mapper calls count) () (placed.reopened.moment mapper calls count)
  /-- A draft of a new record of the class gets the same parent by the value. -/
  inserts : ∀ object fresh, mapper.insert object = .ok fresh → fresh.schema = placed.schema →
    ∀ knownKey position, fresh.schema.positionOf? .parentKey = some position →
      ∃ filled, (mapper.fillField knownKey position (value.getD .null)).Gives fresh () filled ∧
        filled.record.parent? = placed.record.parent?

variable {placed : Draft} {left : ParentRegistry}

theorem update_reopened (known : mapper.schema placed.object.className = .ok placed.schema)
    (sound : placed.IsSound) :
    mapper.update placed.object placed.record = .ok placed.reopened := by
  have kind : placed.record.kind = placed.schema.kind := sound.kind
  rw [update, known]
  change (if placed.record.kind = placed.schema.kind then _ else _) = _
  rw [if_pos kind]
  rfl

/-- A change to a record never gives it another parent than it was told of. -/
theorem fillField_reopened (tells : placed.TellsParent value) (held : placed.schema.HoldsParent)
    (found : placed.schema.positionOf? .parentKey = some position) {calls : List DraftCall}
    (modest : ∀ call ∈ calls, call.KeepsKeys) (count : Nat) :
    (mapper.fillField knownKey position (value.getD .null)).Gives
      (placed.reopened.moment mapper calls count) () (placed.reopened.moment mapper calls count) := by
  have turn : Draft.Turn _ placed.reopened (placed.reopened.moment mapper calls count) :=
    Draft.moment_turn modest (Nat.zero_le count)
  have parent : (placed.reopened.moment mapper calls count).record.parent? =
      placed.record.parent? := turn.parent?_eq_of_update rfl
  have origin : (placed.reopened.moment mapper calls count).parentOrigin = none :=
    turn.parentOrigin_eq_of_update rfl
  refine (fillField_of_tellsParent tells held found turn.schema parent).1 ?_
  rw [origin]
  exact nofun

/-- A draft that gives the parent that it tells of is placed as it should be. -/
theorem places_of_told (sound : placed.IsSound)
    (known : mapper.schema placed.object.className = .ok placed.schema)
    (held : placed.schema.HoldsParent) (told : placed.groupValue = .ok value)
    (tells : placed.TellsParent value)
    (stays : draft.StaysPut registry → placed = draft ∧ left = registry)
    (joins : ¬ draft.StaysPut registry → ∃ parent,
      registry.parent? draft.object.id = some parent ∧ draft.JoinedTo placed parent ∧
        registry.LosesOnly left draft.object.id) :
    mapper.Places draft registry value placed left := by
  refine ⟨stays, joins, tells, ?again, ?refills, ?updates, ?inserts⟩
  case again =>
    intro given calls modest count later
    obtain ⟨parent, above⟩ := Option.isSome_iff_exists.mp given
    have turn : Draft.Turn _ placed (placed.moment mapper calls count) :=
      Draft.moment_turn modest (Nat.zero_le count)
    have same : (placed.moment mapper calls count).record.parent? = placed.record.parent? :=
      (turn.parent?_eq above).trans above.symm
    exact Draft.placeInGroup_again told turn.schema same given later
  case refills =>
    intro knownKey position found
    refine ⟨(fillField_of_tellsParent tells held found rfl rfl).1, fun whole => ?_⟩
    refine (fillField_of_tellsParent tells held found rfl rfl).2 whole (sound.placed ?_)
    rw [whole]
    rfl
  case updates =>
    exact ⟨update_reopened known sound, fun _ _ found _ modest count =>
      fillField_reopened tells held found modest count⟩
  case inserts =>
    intro object fresh opened schema knownKey position found
    obtain ⟨field, plays, there⟩ := ClassSchema.parentKey?_of_position found
    have blank := (insert_ok opened).2.2
    have given := tells.givenParent held (schema ▸ plays)
    obtain ⟨filled, applied, above⟩ : ∃ filled,
        fresh.applyParent placed.record.parent? = .ok filled ∧
          filled.record.parent? = placed.record.parent? :=
      Draft.applyParent_of_isBlank blank fun key above => Draft.isComplete_of_parent? above
    exact ⟨filled, (fillField_gives_iff_of_parentField there
      (ClassSchema.role_of_parentKey? plays)).mpr ⟨_, given, applied⟩, above⟩

/-- **Placing a draft in its entity group.** A draft that was reached by whatever calls is placed
without an error, if its class can hold the key of a parent and the keys in the registry are
complete. It stays where it is or joins the parent that is registered for its object, and the call
tells the parent that the record has then. Where that parent's key is written as a token, the lengths
in it fit in eight bytes. -/
theorem places_in_group {object : Reference} {start : Draft} {calls : List DraftCall}
    (opened : mapper.Opens object start) (wellFormed : start.key.IsWellFormed)
    (modest : ∀ call ∈ calls, call.KeepsKeys) (given : ∀ call ∈ calls, call.GivesWellFormed)
    (held : start.schema.HoldsParent) (count : Nat)
    (complete : ∀ child parent, registry.parent? child = some parent → parent.isComplete = true)
    (registered : registry.GivesWellFormed)
    (fits : ∀ field parent, start.schema.parentKey? = some field → field.type = .string →
      (start.moment mapper calls count).record.parent? = some parent ∨
        registry.parent? object.id = some parent → parent.Fits) :
    ∃ value placed left,
      Draft.placeInGroup.outcome (start.moment mapper calls count, registry) =
        (.ok value, placed, left) ∧
      mapper.Places (start.moment mapper calls count) registry value placed left := by
  have turn : Draft.Turn _ start (start.moment mapper calls count) :=
    Draft.moment_turn modest (Nat.zero_le count)
  have sound : (start.moment mapper calls count).IsSound :=
    Draft.moment_isSound opened.isSound modest count
  have whole : (start.moment mapper calls count).key.IsWellFormed :=
    Draft.moment_isWellFormed wellFormed modest given count
  have same : (start.moment mapper calls count).object = object :=
    turn.object.trans opened.object_eq
  have known : mapper.schema object.className = .ok (start.moment mapper calls count).schema := by
    rw [turn.schema]
    exact opened.schema
  rw [← turn.schema] at held fits
  generalize start.moment mapper calls count = draft at sound whole fits same known held ⊢
  subst same
  by_cases stays : draft.StaysPut registry
  · obtain ⟨value, told, tells⟩ := Draft.groupValue_tells held whole
      fun field parent found text above => fits field parent found text (.inl above)
    refine ⟨value, draft, registry, ?_, ?_⟩
    · rw [Draft.placeInGroup_of_staysPut stays, told]
    · exact places_of_told sound known held told tells (fun _ => ⟨rfl, rfl⟩)
        fun moves => (moves stays).elim
  · obtain ⟨rootless, new, free, parent, announced⟩ := Draft.not_staysPut_iff.mp stays
    obtain ⟨joined, joins, placed⟩ := Draft.placeInGroup_of_registered sound new rootless free
      announced (complete _ _ announced)
    have turned : Draft.Turn False draft joined := by
      have kept : ((Draft.keyLaw False fun _ => True).comap Prod.fst).allows (draft, registry)
          (Draft.placeInGroup.outcome (draft, registry)).2 := Draft.placeInGroup_keeps.allows
      rw [placed] at kept
      exact kept
    have wholeJoined : joined.key.IsWellFormed := by
      have kept : (Draft.keepingForm.comap Prod.fst).allows (draft, registry)
          (Draft.placeInGroup.outcome (draft, registry)).2 :=
        (Draft.placeInGroup_keepsForm registered).allows
      rw [placed] at kept
      exact kept whole
    rw [← turned.schema] at held known fits
    rw [← turned.object] at known
    obtain ⟨value, told, tells⟩ := Draft.groupValue_tells held wholeJoined (by
      intro field other found text above
      rw [joins.parent] at above
      obtain rfl := Option.some.inj above
      exact fits field parent found text (.inr announced))
    refine ⟨value, joined, registry.forgetParent draft.object.id, ?_, ?_⟩
    · rw [placed, told]
    · exact places_of_told (turned.isSound sound) known held told tells (fun put => (stays put).elim)
        fun _ => ⟨parent, announced, joins, registry.losesOnly_forgetParent draft.object.id⟩

end Mapper

/-! ## A chapter below its library, as an example -/

/-- A class with an id below a key that is held as a token. -/
def chapterClass : Schema where
  name := "Chapter"
  kind := "Chapter"
  inheritance := .newTable
  isEmbeddable := false
  fields := [
    { name := "id", type := .long, isPrimaryKey := true },
    { name := "book", type := .string, isParentKey := true }]

def chapterMapper : Mapper where
  settings := {}
  schema? name := if name = "Chapter" then some chapterClass else none

/-- The draft of a new chapter. -/
def newChapter : Draft where
  object := ⟨⟨3⟩, "Chapter"⟩
  schema := chapterClass
  operation := .insert
  record := ⟨⟨[], "Chapter", none⟩, []⟩

theorem library_fits : library.Fits := by
  refine ⟨by decide, List.forall_mem_singleton.mpr ⟨by decide, ?_⟩⟩
  intro name named
  obtain rfl := Identifier.name.inj (Option.some.inj named)
  decide

/-- A chapter with the id 7 joins the library, and is told its token. The library's entry leaves the
registry, and a change to the chapter takes the token again. -/
theorem Mapper.places_in_group_chapter :
    let calls : List DraftCall := [.fillField (fun _ => none) 0 (.int 7)]
    let draft := newChapter.moment chapterMapper calls 1
    let registry : ParentRegistry := { parents := [(newChapter.object.id, library)] }
    ∃ token placed, Draft.placeInGroup.outcome (draft, registry) =
        (.ok (some (.text token)), placed, {}) ∧
      Key.ofToken token = .ok library ∧
      placed.key = ⟨[⟨"Library", .name "central"⟩], "Chapter", some (.id 7)⟩ ∧
      (chapterMapper.fillField (fun _ => none) 1 (.text token)).Gives placed.reopened ()
        placed.reopened := by
  intro calls draft registry
  have modest : ∀ call ∈ calls, call.KeepsKeys := by simp [calls, DraftCall.KeepsKeys]
  have given : ∀ call ∈ calls, call.GivesWellFormed := by
    simp [calls, DraftCall.GivesWellFormed, FieldValue.GivesWellFormed, FieldValue.bare]
  have held : newChapter.schema.HoldsParent := by
    intro field found
    obtain rfl := Option.some.inj found
    exact .inr rfl
  have only (child : Identity) (parent : Key) (found : registry.parent? child = some parent) :
      parent = library := by
    rw [ParentRegistry.parent?, List.lookup_cons] at found
    split at found
    · exact (Option.some.inj found).symm
    · contradiction
  have rootless : draft.record.parent? = none := rfl
  have opened : chapterMapper.Opens newChapter.object newChapter := .inl rfl
  have complete : ∀ child parent, registry.parent? child = some parent →
      parent.isComplete = true := by
    intro child parent found
    rw [only child parent found]
    rfl
  have registered : registry.GivesWellFormed := by
    intro child parent found
    rw [only child parent found]
    decide
  obtain ⟨value, placed, left, done, places⟩ :=
    places_in_group opened (by decide) modest given held 1 complete registered (by
      intro field parent _ _ above
      rcases above with above | above
      · rw [rootless] at above
        contradiction
      · rw [only _ parent above]
        exact library_fits)
  have computed : Draft.placeInGroup.outcome (draft, registry) =
      (.ok (some (.text library.token)), draft.withKey
        ⟨[⟨"Library", .name "central"⟩], "Chapter", some (.id 7)⟩ (some .derived) (some .registry),
        {}) := rfl
  obtain ⟨told, placing⟩ := Prod.mk.inj (computed.symm.trans done)
  obtain rfl := Except.ok.inj told
  obtain ⟨rfl, -⟩ := Prod.mk.inj placing
  obtain ⟨field, parent, plays, above, holds⟩ := places.tells.holds _ rfl
  obtain rfl := Option.some.inj plays
  obtain rfl := Option.some.inj above
  rcases holds with ⟨type, -⟩ | ⟨-, token, same, read⟩
  · contradiction
  · obtain rfl := FieldValue.text.inj same
    exact ⟨_, _, computed, read, rfl, places.updates.2 (fun _ => none) 1 rfl [] (by simp) 0⟩

end RecordMapping
