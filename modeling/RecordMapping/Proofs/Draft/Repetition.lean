import RecordMapping.Proofs.Draft.FailedFields
import RecordMapping.Proofs.Draft.WholeKey

/-!
# Filling a field of the key again

The second time a field of the key takes a value it finds the draft in another state: the key may be
complete now, or lie below a parent. Still it changes nothing, by one of three ways. A complete key
is compared with the one of the record; an identifier is built under the parent that the record has,
which gives the same key; and a parent is compared with that of the record.

One value goes none of these ways: a whole key below a parent that lacks its identifier. It is not
compared, since the key of the record is not complete yet, and the parent that it brought the first
time is in its way (`Mapper.fillField_again`).
-/

namespace RecordMapping

open Attempt

namespace Draft

variable {draft after : Draft} {key parent : Key} {identifier : Identifier} {field : Field}
  {value : FieldValue} {origin : KeyOrigin} {given : Option Key}

/-! ## Identifiers -/

theorem applyPrimaryKey_of_same (complete : draft.key.isComplete = true) :
    draft.applyPrimaryKey (some draft.key) origin = .ok draft := by
  have kind : draft.key.kind = draft.record.kind := rfl
  simp [applyPrimaryKey, complete, kind]

/-- An identifier under the parent of a record gives the same key again. -/
theorem applyPart_identifier_again (applied : draft.applyPart (.identifier identifier) = .ok after) :
    after.applyPart (.identifier identifier) = .ok after := by
  by_cases complete : draft.key.isComplete = true
  · have taken := applied
    simp only [applyPart, siblingKey, bind_eq_ok_iff] at taken
    obtain ⟨_, ⟨key, -, made⟩, taken⟩ := taken
    obtain rfl := Except.ok.inj made
    obtain ⟨-, rfl⟩ := applyPrimaryKey_of_complete complete taken
    exact applied
  · obtain ⟨key, built, rfl⟩ := (applyPart_identifier_iff (eq_false_of_ne_true complete)).mp applied
    obtain ⟨kind, above, identified⟩ := Key.build_ok built
    have rebuilt : Key.build key.parent? key.kind identifier = .ok key := by
      rw [above, kind]
      exact built
    simp only [applyPart, siblingKey, bind_eq_ok_iff, mapError_eq_ok_iff]
    refine ⟨some key, ⟨key, rebuilt, rfl⟩, ?_⟩
    exact applyPrimaryKey_of_same (congrArg Option.isSome identified)

/-! ## Whole keys -/

/-- A whole key goes to a record without a parent, and brings its own. -/
theorem applyKey_whole (applied : draft.applyKey key .whole = .ok after) :
    key.kind = draft.record.kind ∧
      ∃ parentOrigin, after = draft.withKey key draft.keyOrigin parentOrigin := by
  unfold applyKey at applied
  split at applied
  case h_1 => contradiction
  case h_2 =>
    split at applied
    case isTrue =>
      obtain ⟨kind, rfl⟩ := rebase_ok applied
      exact ⟨kind, _, rfl⟩
    case isFalse =>
      obtain ⟨kind, rfl⟩ := rekey_eq_ok_iff.mp applied
      exact ⟨kind, _, rfl⟩

theorem applyPrimaryKey_whole_of_incomplete (incomplete : ¬ draft.key.isComplete = true)
    (applied : draft.applyPrimaryKey (some key) .whole = .ok after) :
    key.kind = draft.record.kind ∧
      ∃ parentOrigin, after = draft.withKey key (some .whole) parentOrigin := by
  simp only [applyPrimaryKey, incomplete] at applied
  split at applied
  case isTrue => contradiction
  case isFalse =>
    simp only [Bool.false_eq_true, ↓reduceIte, bind_eq_ok_iff] at applied
    obtain ⟨placed, taken, made⟩ := applied
    obtain rfl := Except.ok.inj made
    obtain ⟨kind, parentOrigin, rfl⟩ := applyKey_whole taken
    exact ⟨kind, parentOrigin, rfl⟩

/-- Whether a whole key gives a draft a parent, and leaves it without an identifier. -/
structure TakesPartial (draft : Draft) (key : Key) : Prop where
  unidentified : draft.key.isComplete = false
  incomplete : key.isComplete = false
  below : key.hasParent = true

theorem applyPrimaryKey_whole_again (applied : draft.applyPrimaryKey (some key) .whole = .ok after) :
    (¬ draft.TakesPartial key → after.applyPrimaryKey (some key) .whole = .ok after) ∧
      (draft.TakesPartial key →
        after.applyPrimaryKey (some key) .whole = .error (draft.conflict key)) := by
  by_cases complete : draft.key.isComplete = true
  · obtain ⟨-, rfl⟩ := applyPrimaryKey_of_complete complete applied
    refine ⟨fun _ => applied, fun taken => ?_⟩
    rw [taken.unidentified] at complete
    contradiction
  · obtain ⟨-, parentOrigin, rfl⟩ := applyPrimaryKey_whole_of_incomplete complete applied
    have kind : key.kind = (draft.withKey key (some .whole) parentOrigin).record.kind := rfl
    have held : (draft.withKey key (some .whole) parentOrigin).key = key := rfl
    have parent : (draft.withKey key (some .whole) parentOrigin).record.parent? = key.parent? := rfl
    constructor
    · intro straight
      by_cases identified : key.isComplete = true
      · exact applyPrimaryKey_of_same identified
      · have rootless : ¬ key.hasParent = true := fun below =>
          straight ⟨eq_false_of_ne_true complete, eq_false_of_ne_true identified, below⟩
        have put : (draft.withKey key (some .whole) parentOrigin).rekey key =
            .ok (draft.withKey key (some .whole) parentOrigin) := rekey_eq_ok_iff.mpr ⟨kind, rfl⟩
        simp only [applyPrimaryKey, ← kind, held, identified, applyKey, parent,
          Key.parent?_eq_none rootless, rootless, put, ne_eq, not_true_eq_false, ↓reduceIte,
          Bool.false_eq_true]
        rfl
    · intro taken
      obtain ⟨above, found⟩ := Option.isSome_iff_exists.mp (key.hasParent_eq_isSome ▸ taken.below)
      simp only [applyPrimaryKey, ← kind, held, taken.incomplete, applyKey, parent, found, ne_eq,
        not_true_eq_false, ↓reduceIte, Bool.false_eq_true]
      rfl

/-- **What a field for the primary key gives is given again without a change**, unless it is a whole
key that brought a parent and no identifier. -/
theorem applyPart_again {part : KeyPart} (applied : draft.applyPart part = .ok after) :
    ((∀ key, part = .whole key → ¬ draft.TakesPartial key) → after.applyPart part = .ok after) ∧
      ∀ key, part = .whole key → draft.TakesPartial key →
        after.applyPart part = .error (draft.conflict key) := by
  cases part with
  | missing =>
      obtain rfl := applyPrimaryKey_none .derived applied
      exact ⟨fun _ => applied, nofun⟩
  | identifier identifier => exact ⟨fun _ => applyPart_identifier_again applied, nofun⟩
  | whole key =>
      obtain ⟨same, refused⟩ := applyPrimaryKey_whole_again applied
      refine ⟨fun straight => same (straight key rfl), ?_⟩
      rintro _ ⟨⟩ taken
      exact refused taken

/-! ## Parents -/

theorem applyParent_again (applied : draft.applyParent given = .ok after) :
    after.applyParent given = .ok after := by
  have done := applied
  unfold applyParent at done
  split at done
  case h_1 =>
    obtain rfl := Except.ok.inj done
    exact applied
  case h_2 =>
    split at done
    case isTrue => contradiction
    case isFalse =>
      obtain rfl := Except.ok.inj done
      exact applied
  case h_3 =>
    split at done
    case isTrue => contradiction
    split at done
    case isTrue =>
      obtain rfl := Except.ok.inj done
      exact applied
    case isFalse => contradiction
  case h_4 parent rootless =>
    split at done
    case isTrue => contradiction
    case isFalse =>
      -- The draft was given this very parent, and by the field for it.
      simp only [bind_eq_ok_iff] at done
      obtain ⟨key, moved, rebased⟩ := done
      obtain ⟨-, rfl⟩ := rebase_ok rebased
      have above : (draft.withKey key draft.keyOrigin (some .field)).record.parent? = some parent :=
        (movedKey_ok moved).1
      have byField : (draft.withKey key draft.keyOrigin (some .field)).parentOrigin = some .field :=
        rfl
      simp [applyParent, above, byField]

end Draft

/-! ## Fields -/

/-- Whether the field is the primary key and takes a value for a whole key. -/
structure Field.TakesWhole (field : Field) (value : FieldValue) (key : Key) : Prop where
  role : field.role = .primaryKey
  form : field.keyForm = .ok .key ∨ field.keyForm = .ok .token
  read : Draft.wholeKey field value = .ok (some key)

theorem KeyPart.ofIdentifier_ne_whole {field : Field} {value : FieldValue} {key : Key} :
    ofIdentifier field value ≠ .ok (.whole key) := by
  unfold ofIdentifier
  cases value.bare <;> simp

theorem KeyPart.ofWhole_eq_whole_iff {field : Field} {value : FieldValue} {key : Key} :
    ofWhole field value = .ok (.whole key) ↔ Draft.wholeKey field value = .ok (some key) := by
  unfold ofWhole
  rcases Draft.wholeKey field value with error | _ | other
  · exact ⟨nofun, nofun⟩
  · exact ⟨nofun, nofun⟩
  · constructor
    · rintro ⟨⟩
      rfl
    · rintro ⟨⟩
      rfl

/-- A field gives a whole key just if it is the primary key and takes its value for one. -/
theorem KeyPart.ofField_eq_whole_iff {className : String} {field : Field} {value : FieldValue}
    {key : Key} : ofField className field value = .ok (.whole key) ↔ field.TakesWhole value key := by
  by_cases role : field.role = .primaryKey
  case neg =>
    rw [ofField, if_neg role]
    refine ⟨fun given => ?_, fun taken => (role taken.role).elim⟩
    obtain ⟨_, -, read⟩ := bind_eq_ok_iff.mp given
    exact (ofIdentifier_ne_whole read).elim
  case pos =>
    rw [ofField, if_pos role, ofPrimaryKey, bind_eq_ok_iff]
    constructor
    · rintro ⟨form, typed, given⟩
      cases form with
      | id => exact (ofIdentifier_ne_whole given).elim
      | name =>
          simp only at given
          split at given
          case isTrue => contradiction
          case isFalse => exact (ofIdentifier_ne_whole given).elim
      | key => exact ⟨role, .inl typed, ofWhole_eq_whole_iff.mp given⟩
      | token => exact ⟨role, .inr typed, ofWhole_eq_whole_iff.mp given⟩
    · rintro ⟨-, typed | typed, read⟩
      · exact ⟨.key, typed, ofWhole_eq_whole_iff.mpr read⟩
      · exact ⟨.token, typed, ofWhole_eq_whole_iff.mpr read⟩

namespace Mapper

variable {mapper : Mapper} {knownKey : Reference → Option Key} {draft after : Draft} {field : Field}
  {position : Nat} {value : FieldValue}

/-- **A field of the key that takes a value takes it again and changes nothing**, unless it is the
primary key and the value gave the draft a parent but no identifier. Then, and only then, the parent
is in the way of the same value. -/
theorem fillField_again (found : draft.schema.field position = .ok field)
    (inKey : field.isInKey = true)
    (filled : (mapper.fillField knownKey position value).Gives draft () after)
    (knownThen : Reference → Option Key) :
    ((∀ key, field.TakesWhole value key → ¬ draft.TakesPartial key) →
        (mapper.fillField knownThen position value).Gives after () after) ∧
      ∀ key, field.TakesWhole value key → draft.TakesPartial key →
        (mapper.fillField knownThen position value).Fails after
          (.conflictingKeyAssignment draft.schema.name key) after := by
  have schema := fillField_schema filled
  have foundAgain : after.schema.field position = .ok field := by
    rw [schema]
    exact found
  cases gives : field.givesIdentifier with
  | true =>
      obtain ⟨part, read, applied⟩ := (fillField_gives_iff_of_keyField found gives).mp filled
      obtain ⟨same, refused⟩ := Draft.applyPart_again applied
      have readAgain : KeyPart.ofField after.schema.name field value = .ok part := by
        rw [schema]
        exact read
      constructor
      · intro straight
        refine (fillField_gives_iff_of_keyField foundAgain gives).mpr
          ⟨part, readAgain, same fun key whole => straight key ?_⟩
        exact KeyPart.ofField_eq_whole_iff.mp (whole ▸ read)
      · intro key whole taken
        rw [← KeyPart.ofField_eq_whole_iff, read] at whole
        have answered : (KeyPart.ofField after.schema.name field value >>= after.applyPart) =
            .error (draft.conflict key) := by
          rw [readAgain]
          exact refused key (Except.ok.inj whole) taken
        rw [Fails, fillField_of_keyField mapper knownThen value foundAgain gives, Attempt.update,
          answered]
        rfl
  | false =>
      have role := Field.role_of_isInKey inKey gives
      obtain ⟨parent, read, applied⟩ := (fillField_gives_iff_of_parentField found role).mp filled
      refine ⟨fun _ => ?_, fun key whole => ?_⟩
      · exact (fillField_gives_iff_of_parentField foundAgain role).mpr
          ⟨parent, read, Draft.applyParent_again applied⟩
      · have primary := whole.role
        rw [role] at primary
        contradiction

/-- A key with a library and a number is taken twice. -/
theorem fillField_again_volume :
    let whole : Key := ⟨[⟨"Library", .name "central"⟩], "Book", some (.id 7)⟩
    let placed := Draft.newVolume.withKey whole (some .whole) (some .key)
    (Draft.volumeMapper.fillField (fun _ => none) 1 (.key whole)).Gives Draft.newVolume () placed ∧
      (Draft.volumeMapper.fillField (fun _ => none) 1 (.key whole)).Gives placed () placed := by
  intro whole placed
  have found : Draft.newVolume.schema.field 1 =
      .ok { name := "key", type := .key, isPrimaryKey := true } := rfl
  have filled : (Draft.volumeMapper.fillField (fun _ => none) 1 (.key whole)).Gives
      Draft.newVolume () placed := rfl
  refine ⟨filled, (fillField_again found rfl filled fun _ => none).1 fun key taken brought => ?_⟩
  obtain rfl : whole = key := Option.some.inj (Except.ok.inj taken.read)
  exact nomatch brought.incomplete

/-- A key that brings a library but no number is refused the second time, though nothing else gave
the book a parent. -/
theorem not_fillField_again_volume :
    let unnumbered : Key := ⟨[⟨"Library", .name "central"⟩], "Book", none⟩
    let placed := Draft.newVolume.withKey unnumbered (some .whole) (some .key)
    Draft.volumeMapper.insert book = .ok Draft.newVolume ∧
      (Draft.volumeMapper.fillField (fun _ => none) 1 (.key unnumbered)).Gives
        Draft.newVolume () placed ∧
      ¬ (Draft.volumeMapper.fillField (fun _ => none) 1 (.key unnumbered)).Gives
        placed () placed := by
  intro unnumbered placed
  have refused : (Draft.volumeMapper.fillField (fun _ => none) 1 (.key unnumbered)).Fails placed
      (.conflictingKeyAssignment "Book" unnumbered) placed := rfl
  refine ⟨rfl, rfl, fun taken => ?_⟩
  exact nomatch refused.symm.trans taken

end Mapper

end RecordMapping
