import RecordMapping.Proofs.Draft.FailedFields
import RecordMapping.Proofs.Draft.Run

/-!
# The parts of a key in either order

A new record may get its identifier first and its parent afterwards, or the other way round. The
first order builds a root and moves it below the parent, the second builds a key without an
identifier and spells it out. What a field for the primary key gives can be read without looking at
the draft (`KeyPart`), and `Draft.Assembled` says what a new record becomes of such a part and a
parent; both orders come to just that, and where it says nothing both fail.
-/

namespace RecordMapping

open Attempt

/-- What a field for the primary key gives. -/
inductive KeyPart where
  /-- Null: the identifier is not known yet. -/
  | missing
  | identifier (identifier : Identifier)
  | whole (key : Key)

namespace KeyPart

/-- The id or the name that a value is. -/
def ofIdentifier (field : Field) (value : FieldValue) : Outcome KeyPart :=
  match value.bare with
  | .null => .ok .missing
  | .int id => .ok (.identifier (.id id))
  | .text name => .ok (.identifier (.name name))
  | other => .error (field.unsupported (.notKey field.type other.typeLabel))

/-- The whole key that a value is. -/
def ofWhole (field : Field) (value : FieldValue) : Outcome KeyPart := do
  match ← Draft.wholeKey field value with
  | none => return .missing
  | some key => return .whole key

/-- What the primary key's field gives by its value. -/
def ofPrimaryKey (className : String) (field : Field) (value : FieldValue) : Outcome KeyPart := do
  match ← field.keyForm with
  | .id => ofIdentifier field value
  | .name =>
      if value.bare.isNull then .error (.invalidPrimaryKey className field.name)
      else ofIdentifier field value
  | _ => ofWhole field value

/-- What any field for the primary key or a part of it gives by its value. -/
def ofField (className : String) (field : Field) (value : FieldValue) : Outcome KeyPart :=
  if field.role = .primaryKey then ofPrimaryKey className field value
  else do
    let _ ← field.keyForm
    ofIdentifier field value

end KeyPart

namespace Draft

variable {draft after : Draft} {part : KeyPart} {parent key : Key} {identifier : Identifier}
  {field : Field} {value : FieldValue}

/-- Applies what a field for the primary key gives. -/
def applyPart (draft : Draft) : KeyPart → Outcome Draft
  | .missing => draft.applyPrimaryKey none .derived
  | .identifier identifier => do
      let key ← draft.siblingKey identifier
      draft.applyPrimaryKey key .derived
  | .whole key => draft.applyPrimaryKey (some key) .whole

theorem identifiedKey_bind (draft : Draft) (field : Field) (value : FieldValue) :
    (do
      let key ← draft.identifiedKey field value
      draft.applyPrimaryKey key .derived) =
      (do
        let part ← KeyPart.ofIdentifier field value
        draft.applyPart part) := by
  unfold identifiedKey KeyPart.ofIdentifier
  cases value.bare <;> rfl

theorem wholeKey_bind (draft : Draft) (field : Field) (value : FieldValue) :
    (do
      let key ← wholeKey field value
      draft.applyPrimaryKey key .whole) =
      (do
        let part ← KeyPart.ofWhole field value
        draft.applyPart part) := by
  unfold KeyPart.ofWhole
  rcases wholeKey field value with error | _ | key <;> rfl

theorem setPrimaryKey_eq (draft : Draft) (field : Field) (value : FieldValue) :
    draft.setPrimaryKey field value =
      (do
        let part ← KeyPart.ofPrimaryKey draft.schema.name field value
        draft.applyPart part) := by
  unfold setPrimaryKey KeyPart.ofPrimaryKey
  rcases field.keyForm with error | form
  · rfl
  · cases form with
    | id => exact identifiedKey_bind draft field value
    | name =>
        by_cases null : value.bare.isNull = true
        · simp only [null]
          rfl
        · simp only [eq_false_of_ne_true null]
          exact identifiedKey_bind draft field value
    | key => exact wholeKey_bind draft field value
    | token => exact wholeKey_bind draft field value

theorem setIdentifier_eq (draft : Draft) (field : Field) (value : FieldValue) :
    draft.setIdentifier field value =
      (do
        let _ ← field.keyForm
        let part ← KeyPart.ofIdentifier field value
        draft.applyPart part) := by
  unfold setIdentifier
  rcases field.keyForm with error | form
  · rfl
  · exact identifiedKey_bind draft field value

/-! ## The rules on new records -/

/-- The draft under another key, and what is known of where it came from. -/
def withKey (draft : Draft) (key : Key) (keyOrigin : Option KeyOrigin)
    (parentOrigin : Option ParentOrigin) : Draft :=
  { draft with record := { draft.record with key }, keyOrigin, parentOrigin }

theorem rekey_eq_ok_iff :
    draft.rekey key = .ok after ↔
      key.kind = draft.record.kind ∧ after = draft.withKey key draft.keyOrigin draft.parentOrigin := by
  constructor
  · intro moved
    obtain ⟨kind, rfl⟩ := rekey_ok moved
    exact ⟨kind, rfl⟩
  · rintro ⟨kind, rfl⟩
    rw [rekey, Record.rekey, if_pos kind]
    rfl

theorem rebase_ok {origin : ParentOrigin} (rebased : draft.rebase key origin = .ok after) :
    key.kind = draft.record.kind ∧ after = draft.withKey key draft.keyOrigin (some origin) := by
  unfold rebase at rebased
  split at rebased
  case isTrue => contradiction
  split at rebased
  case isTrue => contradiction
  case isFalse =>
    simp only [bind_eq_ok_iff, rekey_eq_ok_iff] at rebased
    obtain ⟨_, ⟨kind, rfl⟩, made⟩ := rebased
    exact ⟨kind, (Except.ok.inj made).symm⟩

theorem rebase_eq_ok_iff {origin : ParentOrigin} (new : draft.operation = .insert)
    (unplaced : draft.parentOrigin = none) :
    draft.rebase key origin = .ok after ↔
      key.kind = draft.record.kind ∧ after = draft.withKey key draft.keyOrigin (some origin) := by
  constructor
  · exact rebase_ok
  · rintro ⟨kind, rfl⟩
    exact rebase_of_insert new unplaced kind

/-- Null is taken for nothing. -/
theorem applyPrimaryKey_none (origin : KeyOrigin)
    (applied : draft.applyPrimaryKey none origin = .ok after) : after = draft := by
  simp only [applyPrimaryKey] at applied
  split at applied
  case isTrue => contradiction
  case isFalse => exact (Except.ok.inj applied).symm

theorem applyPart_missing (incomplete : draft.key.isComplete = false) :
    draft.applyPart .missing = .ok draft := by
  simp [applyPart, applyPrimaryKey, incomplete]

theorem applyPart_identifier_iff (incomplete : draft.key.isComplete = false) :
    draft.applyPart (.identifier identifier) = .ok after ↔
      ∃ key, Key.build draft.record.parent? draft.record.kind identifier = .ok key ∧
        after = draft.withKey key (some .derived) draft.parentOrigin := by
  have applied {key : Key}
      (built : Key.build draft.record.parent? draft.record.kind identifier = .ok key) :
      draft.applyPrimaryKey (some key) .derived =
        .ok (draft.withKey key (some .derived) draft.parentOrigin) := by
    obtain ⟨kind, parent, -⟩ := Key.build_ok built
    have rekeyed : draft.applyKey key .derived =
        .ok (draft.withKey key draft.keyOrigin draft.parentOrigin) := by
      unfold applyKey
      cases found : draft.record.parent? with
      | none =>
          have rooted : key.hasParent = false := by
            rw [Key.hasParent_eq_isSome, parent, found]
            rfl
          simp [rooted, rekey_eq_ok_iff, kind]
      | some current => simp [parent, found, rekey_eq_ok_iff, kind]
    unfold applyPrimaryKey
    simp only [kind, ne_eq, not_true_eq_false, ↓reduceIte, incomplete, Bool.false_eq_true, rekeyed]
    rfl
  simp only [applyPart, siblingKey, bind_eq_ok_iff, mapError_eq_ok_iff]
  constructor
  · rintro ⟨_, ⟨key, built, given⟩, done⟩
    obtain rfl := Except.ok.inj given
    rw [applied built] at done
    exact ⟨key, built, (Except.ok.inj done).symm⟩
  · rintro ⟨key, built, rfl⟩
    exact ⟨some key, ⟨key, built, rfl⟩, applied built⟩

/-- A whole key is taken by a record without a parent, which gets its parent with it. -/
theorem applyPart_whole_iff (new : draft.operation = .insert)
    (incomplete : draft.key.isComplete = false) (rootless : draft.record.parent? = none)
    (unplaced : draft.parentOrigin = none) :
    draft.applyPart (.whole key) = .ok after ↔
      key.kind = draft.record.kind ∧
        after = draft.withKey key (some .whole) (if key.hasParent then some .key else none) := by
  unfold applyPart applyPrimaryKey applyKey
  simp only [incomplete, Bool.false_eq_true, ↓reduceIte, rootless]
  by_cases kind : key.kind = draft.record.kind
  · simp only [kind, ne_eq, not_true_eq_false, ↓reduceIte, true_and, bind_eq_ok_iff]
    by_cases below : key.hasParent = true
    · simp only [below, ↓reduceIte, rebase_eq_ok_iff new unplaced, kind, true_and]
      constructor
      · rintro ⟨_, rfl, made⟩
        exact (Except.ok.inj made).symm
      · rintro rfl
        exact ⟨_, rfl, rfl⟩
    · simp only [eq_false_of_ne_true below, Bool.false_eq_true, ↓reduceIte, rekey_eq_ok_iff, kind,
        true_and, unplaced]
      constructor
      · rintro ⟨_, rfl, made⟩
        exact (Except.ok.inj made).symm
      · rintro rfl
        exact ⟨_, rfl, rfl⟩
  · simp [kind]

theorem applyPart_whole_of_parent (incomplete : draft.key.isComplete = false)
    (found : draft.record.parent? = some parent) : draft.applyPart (.whole key) ≠ .ok after := by
  unfold applyPart applyPrimaryKey applyKey
  simp only [incomplete, Bool.false_eq_true, ↓reduceIte, found]
  split
  · exact nofun
  · exact nofun

theorem applyParent_none_of_rootless (rootless : draft.record.parent? = none) :
    draft.applyParent none = .ok draft := by
  simp [applyParent, rootless]

theorem applyParent_none_of_placed (placed : draft.parentOrigin.isSome) :
    draft.applyParent none = .ok draft := by
  obtain ⟨origin, given⟩ := Option.isSome_iff_exists.mp placed
  unfold applyParent
  cases draft.record.parent? <;> simp [given]

/-- A record that has its parent from a whole key is given no other one, nor the same again. -/
theorem applyParent_some_of_key (given : draft.parentOrigin = some .key)
    (found : draft.record.parent? = some key) : draft.applyParent (some parent) ≠ .ok after := by
  unfold applyParent
  simp only [found, given, ↓reduceIte]
  exact nofun

theorem applyParent_some_iff (new : draft.operation = .insert)
    (rootless : draft.record.parent? = none) (unplaced : draft.parentOrigin = none) :
    draft.applyParent (some parent) = .ok after ↔
      ∃ key, draft.movedKey parent = .ok key ∧ key.kind = draft.record.kind ∧
        after = draft.withKey key draft.keyOrigin (some .field) := by
  have notUpdate : draft.operation ≠ .update := by simp [new]
  unfold applyParent
  simp only [rootless, notUpdate, ↓reduceIte, bind_eq_ok_iff, rebase_eq_ok_iff new unplaced]

/-! ## Both orders -/

/-- What a new record becomes of what the primary key's field and the parent's field give: nothing
where neither gives anything, a key without an identifier below a parent alone, a key that is built
in its place from an identifier, and a whole key if no parent comes with it. -/
def Assembled (draft after : Draft) : KeyPart → Option Key → Prop
  | .missing, none => after = draft
  | .missing, some parent =>
      ∃ key, Key.incomplete draft.record.kind (some parent) = .ok key ∧
        after = draft.withKey key none (some .field)
  | .identifier identifier, none =>
      ∃ key, Key.build none draft.record.kind identifier = .ok key ∧
        after = draft.withKey key (some .derived) none
  | .identifier identifier, some parent =>
      ∃ key, Key.build (some parent) draft.record.kind identifier = .ok key ∧
        after = draft.withKey key (some .derived) (some .field)
  | .whole key, none =>
      key.kind = draft.record.kind ∧
        after = draft.withKey key (some .whole) (if key.hasParent then some .key else none)
  | .whole _, some _ => False

theorem IsBlank.rootless (blank : draft.IsBlank) : draft.record.parent? = none :=
  congrArg Key.parent? blank.key

theorem IsBlank.incomplete (blank : draft.IsBlank) : draft.key.isComplete = false :=
  congrArg Key.isComplete blank.key

theorem withKey_of_incomplete {kind : String} {parent : Option Key}
    (built : Key.incomplete kind parent = .ok key) (draft : Draft) (keyOrigin : Option KeyOrigin)
    (parentOrigin : Option ParentOrigin) :
    (draft.withKey key keyOrigin parentOrigin).key.isComplete = false ∧
      (draft.withKey key keyOrigin parentOrigin).record.parent? = parent ∧
      (draft.withKey key keyOrigin parentOrigin).record.kind = kind := by
  obtain ⟨sameKind, below, missing⟩ := Key.incomplete_ok built
  exact ⟨congrArg Option.isSome missing, below, sameKind⟩

theorem applyParent_some_iff_of_blank (blank : draft.IsBlank) :
    draft.applyParent (some parent) = .ok after ↔
      ∃ key, Key.incomplete draft.record.kind (some parent) = .ok key ∧
        after = draft.withKey key none (some .field) := by
  simp only [applyParent_some_iff blank.new blank.rootless blank.unplaced, movedKey, blank.unset,
    mapError_eq_ok_iff]
  constructor
  · rintro ⟨key, built, -, rfl⟩
    exact ⟨key, built, rfl⟩
  · rintro ⟨key, built, rfl⟩
    exact ⟨key, built, (Key.incomplete_ok built).1, rfl⟩

/-- A root that was derived from an identifier moves below a parent as the key that is built
there. -/
theorem applyParent_some_iff_of_derived (blank : draft.IsBlank)
    (built : Key.build none draft.record.kind identifier = .ok key) :
    (draft.withKey key (some .derived) none).applyParent (some parent) = .ok after ↔
      ∃ moved, Key.build (some parent) draft.record.kind identifier = .ok moved ∧
        after = draft.withKey moved (some .derived) (some .field) := by
  obtain ⟨kind, rootless, -⟩ := Key.build_ok built
  have moves {moved : Key} :
      (draft.withKey key (some .derived) none).movedKey parent = .ok moved ↔
        Key.build (some parent) draft.record.kind identifier = .ok moved := by
    rw [← Key.movedUnder_eq_ok_iff_build built]
    exact mapError_eq_ok_iff
  have new : (draft.withKey key (some .derived) none).operation = .insert := blank.new
  rw [applyParent_some_iff new rootless rfl]
  simp only [moves]
  constructor
  · rintro ⟨moved, rebuilt, -, rfl⟩
    exact ⟨moved, rebuilt, rfl⟩
  · rintro ⟨moved, rebuilt, rfl⟩
    exact ⟨moved, rebuilt, (Key.build_ok rebuilt).1.trans kind.symm, rfl⟩

theorem applyParent_none_of_whole :
    (draft.withKey key (some .whole) (if key.hasParent then some .key else none)).applyParent none =
      .ok (draft.withKey key (some .whole) (if key.hasParent then some .key else none)) := by
  by_cases below : key.hasParent = true
  · apply applyParent_none_of_placed
    simp [withKey, below]
  · exact applyParent_none_of_rootless (Key.parent?_eq_none below)

/-- A record whose key was given as a whole takes no parent, not even the one that it has. -/
theorem applyParent_some_of_whole (blank : draft.IsBlank) :
    (draft.withKey key (some .whole) (if key.hasParent then some .key else none)).applyParent
      (some parent) ≠ .ok after := by
  by_cases below : key.hasParent = true
  · obtain ⟨current, found⟩ := Option.isSome_iff_exists.mp (key.hasParent_eq_isSome ▸ below)
    have given : (draft.withKey key (some .whole) (some .key)).parentOrigin = some .key := rfl
    simp only [below, ↓reduceIte]
    exact applyParent_some_of_key given found
  · -- A root is not moved either: it was given as a whole.
    have rootless : (draft.withKey key (some .whole) none).record.parent? = none :=
      Key.parent?_eq_none below
    have new : (draft.withKey key (some .whole) none).operation = .insert := blank.new
    simp only [eq_false_of_ne_true below, Bool.false_eq_true, ↓reduceIte, ne_eq,
      applyParent_some_iff new rootless rfl]
    rintro ⟨_, moved, -⟩
    contradiction

/-- The identifier or the whole key first, the parent afterwards. -/
theorem applyParent_after_applyPart (blank : draft.IsBlank) (parent : Option Key) :
    (∃ middle, draft.applyPart part = .ok middle ∧ middle.applyParent parent = .ok after) ↔
      draft.Assembled after part parent := by
  cases part with
  | missing =>
      simp only [applyPart_missing blank.incomplete, Except.ok.injEq, exists_eq_left']
      cases parent with
      | none =>
          rw [applyParent_none_of_rootless blank.rootless, Except.ok.injEq]
          exact eq_comm
      | some parent => exact applyParent_some_iff_of_blank blank
  | identifier identifier =>
      simp only [applyPart_identifier_iff blank.incomplete, blank.rootless, blank.unplaced]
      cases parent with
      | none =>
          have stays {key : Key} (built : Key.build none draft.record.kind identifier = .ok key) :
              (draft.withKey key (some .derived) none).applyParent none =
                .ok (draft.withKey key (some .derived) none) :=
            applyParent_none_of_rootless (Key.build_ok built).2.1
          constructor
          · rintro ⟨_, ⟨key, built, rfl⟩, applied⟩
            rw [stays built] at applied
            exact ⟨key, built, (Except.ok.inj applied).symm⟩
          · rintro ⟨key, built, rfl⟩
            exact ⟨_, ⟨key, built, rfl⟩, stays built⟩
      | some parent =>
          constructor
          · rintro ⟨_, ⟨key, built, rfl⟩, applied⟩
            exact (applyParent_some_iff_of_derived blank built).mp applied
          · rintro ⟨moved, rebuilt, same⟩
            -- The root has to be there before it can be moved; it asks for less than the child.
            obtain ⟨key, built⟩ := Key.build_none_of_build rebuilt
            refine ⟨_, ⟨key, built, rfl⟩, ?_⟩
            exact (applyParent_some_iff_of_derived blank built).mpr ⟨moved, rebuilt, same⟩
  | whole key =>
      simp only [applyPart_whole_iff blank.new blank.incomplete blank.rootless blank.unplaced]
      cases parent with
      | none =>
          constructor
          · rintro ⟨_, ⟨kind, rfl⟩, applied⟩
            rw [applyParent_none_of_whole] at applied
            exact ⟨kind, (Except.ok.inj applied).symm⟩
          · rintro ⟨kind, rfl⟩
            exact ⟨_, ⟨kind, rfl⟩, applyParent_none_of_whole⟩
      | some parent =>
          constructor
          · rintro ⟨_, ⟨-, rfl⟩, applied⟩
            exact applyParent_some_of_whole blank applied
          · exact False.elim

/-- The parent first, the identifier or the whole key afterwards. -/
theorem applyPart_after_applyParent (blank : draft.IsBlank) (parent : Option Key) :
    (∃ middle, draft.applyParent parent = .ok middle ∧ middle.applyPart part = .ok after) ↔
      draft.Assembled after part parent := by
  cases parent with
  | none =>
      simp only [applyParent_none_of_rootless blank.rootless, Except.ok.injEq, exists_eq_left']
      cases part with
      | missing =>
          rw [applyPart_missing blank.incomplete, Except.ok.injEq]
          exact eq_comm
      | identifier identifier =>
          rw [applyPart_identifier_iff blank.incomplete, blank.rootless, blank.unplaced]
          rfl
      | whole key =>
          exact applyPart_whole_iff blank.new blank.incomplete blank.rootless blank.unplaced
  | some parent =>
      simp only [applyParent_some_iff_of_blank blank]
      cases part with
      | missing =>
          have stays {key : Key} (built : Key.incomplete draft.record.kind (some parent) = .ok key) :
              (draft.withKey key none (some .field)).applyPart .missing =
                .ok (draft.withKey key none (some .field)) :=
            applyPart_missing (withKey_of_incomplete built draft none (some .field)).1
          constructor
          · rintro ⟨_, ⟨key, built, rfl⟩, applied⟩
            rw [stays built] at applied
            exact ⟨key, built, (Except.ok.inj applied).symm⟩
          · rintro ⟨key, built, rfl⟩
            exact ⟨_, ⟨key, built, rfl⟩, stays built⟩
      | identifier identifier =>
          have spelled {key : Key} (built : Key.incomplete draft.record.kind (some parent) = .ok key) :
              (draft.withKey key none (some .field)).applyPart (.identifier identifier) = .ok after ↔
                draft.Assembled after (.identifier identifier) (some parent) := by
            obtain ⟨incomplete, below, kind⟩ := withKey_of_incomplete built draft none (some .field)
            rw [applyPart_identifier_iff incomplete, below, kind]
            rfl
          constructor
          · rintro ⟨_, ⟨key, built, rfl⟩, applied⟩
            exact (spelled built).mp applied
          · rintro ⟨moved, rebuilt, same⟩
            obtain ⟨key, built⟩ := Key.incomplete_of_build rebuilt
            exact ⟨_, ⟨key, built, rfl⟩, (spelled built).mpr ⟨moved, rebuilt, same⟩⟩
      | whole whole =>
          constructor
          · rintro ⟨_, ⟨key, built, rfl⟩, applied⟩
            obtain ⟨incomplete, below, -⟩ := withKey_of_incomplete built draft none (some .field)
            exact applyPart_whole_of_parent incomplete below applied
          · exact False.elim

/-- The parent that the field for the parent's key gives by its value. -/
def givenParent (field : Field) (value : FieldValue) : Outcome (Option Key) := do
  let _ ← field.keyForm
  wholeKey field value

theorem setParentField_eq (draft : Draft) (field : Field) (value : FieldValue) :
    draft.setParentField field value =
      (do
        let parent ← givenParent field value
        draft.applyParent parent) := by
  unfold setParentField givenParent
  rcases field.keyForm with error | form
  · rfl
  · rfl

end Draft

/-! ## Fields of the class -/

/-- Whether a field is the primary key, or the name or the number within it. -/
def Field.givesIdentifier (field : Field) : Bool :=
  field.role = .primaryKey || field.role = .primaryKeyName || field.role = .primaryKeyId

theorem Field.isInKey_of_givesIdentifier {field : Field} (gives : field.givesIdentifier = true) :
    field.isInKey = true := by
  cases inKey : field.isInKey with
  | true => rfl
  | false =>
      rcases field.isInKey_eq_false_iff.mp inKey with role | role <;>
        simp [givesIdentifier, role] at gives

theorem Field.role_of_isInKey {field : Field} (inKey : field.isInKey = true)
    (gives : field.givesIdentifier = false) : field.role = .parentKey := by
  cases role : field.role with
  | parentKey => rfl
  | primaryKey | primaryKeyName | primaryKeyId => simp [givesIdentifier, role] at gives
  | regular => simp [field.isInKey_eq_false_iff.mpr (.inr role)] at inKey
  | relation => simp [field.isInKey_eq_false_iff.mpr (.inl role)] at inKey

theorem Draft.setInKey_eq {draft : Draft} {field : Field} (gives : field.givesIdentifier = true)
    (value : FieldValue) :
    draft.setInKey field value =
      (KeyPart.ofField draft.schema.name field value >>= draft.applyPart) := by
  have spelled : draft.setIdentifier field value =
      ((do let _ ← field.keyForm; KeyPart.ofIdentifier field value) >>= draft.applyPart) := by
    rw [setIdentifier_eq, bind_assoc]
  unfold setInKey KeyPart.ofField
  simp only [Field.givesIdentifier, Bool.or_eq_true, decide_eq_true_eq] at gives
  rcases gives with (role | role) | role
  · simp only [role]
    exact setPrimaryKey_eq draft field value
  · simp only [role]
    exact spelled
  · simp only [role]
    exact spelled

namespace Mapper

variable {mapper : Mapper} {knownKey : Reference → Option Key} {object : Reference}
  {draft middle after : Draft} {field keyField parentField : Field} {position keyAt parentAt : Nat}
  {value : FieldValue}

theorem fillField_of_keyField (mapper : Mapper) (knownKey : Reference → Option Key)
    (value : FieldValue) (found : draft.schema.field position = .ok field)
    (role : field.givesIdentifier = true) :
    mapper.fillField knownKey position value draft =
      Attempt.update (fun draft => KeyPart.ofField draft.schema.name field value >>= draft.applyPart)
        draft := by
  rw [fillField_of_inKey mapper knownKey value found (Field.isInKey_of_givesIdentifier role),
    Attempt.update, Attempt.update, Draft.setInKey_eq role]

theorem fillField_gives_iff_of_keyField (found : draft.schema.field position = .ok field)
    (role : field.givesIdentifier = true) :
    (mapper.fillField knownKey position value).Gives draft () after ↔
      ∃ part, KeyPart.ofField draft.schema.name field value = .ok part ∧
        draft.applyPart part = .ok after := by
  rw [Gives, fillField_of_keyField mapper knownKey value found role, update_eq_ok_iff,
    bind_eq_ok_iff]

theorem fillField_gives_iff_of_parentField (found : draft.schema.field position = .ok field)
    (role : field.role = .parentKey) :
    (mapper.fillField knownKey position value).Gives draft () after ↔
      ∃ parent, Draft.givenParent field value = .ok parent ∧
        draft.applyParent parent = .ok after := by
  unfold Gives
  rw [fillField_eq found, role]
  simp only [update_eq_ok_iff, Draft.setParentField_eq, bind_eq_ok_iff]

theorem fillField_schema (filled : (mapper.fillField knownKey position value).Gives draft () middle) :
    middle.schema = draft.schema :=
  ((fillField_keeps fun _ _ => trivial).of_ok filled).schema

section

variable (opened : mapper.insert object = .ok draft)
  (foundKey : draft.schema.field keyAt = .ok keyField) (roleKey : keyField.givesIdentifier = true)
  (foundParent : draft.schema.field parentAt = .ok parentField)
  (roleParent : parentField.role = .parentKey) (keyValue parentValue : FieldValue)

include opened foundKey roleKey foundParent roleParent

theorem fillKey_fillParent_iff :
    Gives (do
      mapper.fillField knownKey keyAt keyValue
      mapper.fillField knownKey parentAt parentValue) draft () after ↔
      ∃ part parent, KeyPart.ofField draft.schema.name keyField keyValue = .ok part ∧
        Draft.givenParent parentField parentValue = .ok parent ∧
        draft.Assembled after part parent := by
  obtain ⟨-, -, blank⟩ := insert_ok opened
  rw [gives_bind_iff]
  constructor
  · rintro ⟨_, middle, filledKey, filledParent⟩
    rw [← fillField_schema filledKey] at foundParent
    obtain ⟨part, given, applied⟩ := (fillField_gives_iff_of_keyField foundKey roleKey).mp filledKey
    obtain ⟨parent, above, moved⟩ :=
      (fillField_gives_iff_of_parentField foundParent roleParent).mp filledParent
    have assembled := (Draft.applyParent_after_applyPart blank parent).mp ⟨middle, applied, moved⟩
    exact ⟨part, parent, given, above, assembled⟩
  · rintro ⟨part, parent, given, above, assembled⟩
    obtain ⟨middle, applied, moved⟩ :=
      (Draft.applyParent_after_applyPart blank parent).mpr assembled
    have filledKey : (mapper.fillField knownKey keyAt keyValue).Gives draft () middle :=
      (fillField_gives_iff_of_keyField foundKey roleKey).mpr ⟨part, given, applied⟩
    rw [← fillField_schema filledKey] at foundParent
    have filledParent : (mapper.fillField knownKey parentAt parentValue).Gives middle () after :=
      (fillField_gives_iff_of_parentField foundParent roleParent).mpr ⟨parent, above, moved⟩
    exact ⟨(), middle, filledKey, filledParent⟩

theorem fillParent_fillKey_iff :
    Gives (do
      mapper.fillField knownKey parentAt parentValue
      mapper.fillField knownKey keyAt keyValue) draft () after ↔
      ∃ part parent, KeyPart.ofField draft.schema.name keyField keyValue = .ok part ∧
        Draft.givenParent parentField parentValue = .ok parent ∧
        draft.Assembled after part parent := by
  obtain ⟨-, -, blank⟩ := insert_ok opened
  rw [gives_bind_iff]
  constructor
  · rintro ⟨_, middle, filledParent, filledKey⟩
    have same := fillField_schema filledParent
    rw [← same] at foundKey
    obtain ⟨parent, above, moved⟩ :=
      (fillField_gives_iff_of_parentField foundParent roleParent).mp filledParent
    obtain ⟨part, given, applied⟩ := (fillField_gives_iff_of_keyField foundKey roleKey).mp filledKey
    rw [same] at given
    have assembled := (Draft.applyPart_after_applyParent blank parent).mp ⟨middle, moved, applied⟩
    exact ⟨part, parent, given, above, assembled⟩
  · rintro ⟨part, parent, given, above, assembled⟩
    obtain ⟨middle, moved, applied⟩ :=
      (Draft.applyPart_after_applyParent blank parent).mpr assembled
    have filledParent : (mapper.fillField knownKey parentAt parentValue).Gives draft () middle :=
      (fillField_gives_iff_of_parentField foundParent roleParent).mpr ⟨parent, above, moved⟩
    have same := fillField_schema filledParent
    rw [← same] at foundKey given
    have filledKey : (mapper.fillField knownKey keyAt keyValue).Gives middle () after :=
      (fillField_gives_iff_of_keyField foundKey roleKey).mpr ⟨part, given, applied⟩
    exact ⟨(), middle, filledParent, filledKey⟩

end

/-- **The identifier and the parent of a new record may come in either order.** Whatever values the
field for the primary key, or for the name or the number within it, and the field for the parent's
key are given: if one order succeeds, so does the other, and they leave the same draft. -/
theorem fillField_comm_of_insert (opened : mapper.insert object = .ok draft)
    (foundKey : draft.schema.field keyAt = .ok keyField)
    (roleKey : keyField.givesIdentifier = true)
    (foundParent : draft.schema.field parentAt = .ok parentField)
    (roleParent : parentField.role = .parentKey) (keyValue parentValue : FieldValue)
    (after : Draft) :
    Gives (do
      mapper.fillField knownKey keyAt keyValue
      mapper.fillField knownKey parentAt parentValue) draft () after ↔
    Gives (do
      mapper.fillField knownKey parentAt parentValue
      mapper.fillField knownKey keyAt keyValue) draft () after := by
  rw [fillKey_fillParent_iff opened foundKey roleKey foundParent roleParent,
    fillParent_fillKey_iff opened foundKey roleKey foundParent roleParent]

/-- The id of a new book and the key of its library. -/
theorem fillField_comm_of_insert_book :
    bookMapper.insert book = .ok newBook ∧ Gives (do
      bookMapper.fillField (fun _ => none) 1 (.key library)
      bookMapper.fillField (fun _ => none) 0 (.int 7)) newBook ()
      (newBook.withKey ⟨[⟨"Library", .name "central"⟩], "Book", some (.id 7)⟩
        (some .derived) (some .field)) := by
  have opened : bookMapper.insert book = .ok newBook := rfl
  have foundId : newBook.schema.field 0 = .ok { name := "id", type := .long, isPrimaryKey := true } :=
    rfl
  have foundLibrary :
      newBook.schema.field 1 = .ok { name := "library", type := .key, isParentKey := true } := rfl
  refine ⟨opened, ?_⟩
  rw [← fillField_comm_of_insert opened foundId rfl foundLibrary rfl]
  rfl

end Mapper

end RecordMapping
