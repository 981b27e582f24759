import RecordMapping.Proofs.Draft.Ownership
import RecordMapping.Proofs.Draft.Repetition
import RecordMapping.Proofs.Key.Constructible

/-!
# Drafts with well-formed keys

Keys reach a draft from five sides: from identifiers, which are checked when a key is built of them,
and as a whole from values of fields, from their tokens, from the registry of parents and from the
store. Where those that are given as a whole are well formed, each call leaves the draft with a
well-formed key, whether it succeeds or fails, and so does a run.
-/

namespace RecordMapping

open Attempt

/-- Whether a key that a value is, under any wrappers, is well formed. -/
def FieldValue.GivesWellFormed (value : FieldValue) : Prop :=
  ∀ key, value.bare = .key key → key.IsWellFormed

/-- Whether the keys that are registered for parents are well formed. -/
def ParentRegistry.GivesWellFormed (registry : ParentRegistry) : Prop :=
  ∀ child parent, registry.parent? child = some parent → parent.IsWellFormed

/-- The calls whose keys, as far as they are given as a whole, are well formed. -/
def DraftCall.GivesWellFormed : DraftCall → Prop
  | fillField _ _ value => value.GivesWellFormed
  | fillFields _ provide _ => ∀ position value, provide position = .ok value → value.GivesWellFormed
  | placeInGroup registry => registry.GivesWellFormed
  | assignKey key => key.IsWellFormed
  | resolve _ _ => True

namespace Draft

variable {draft after : Draft} {key parent : Key} {part : KeyPart} {field : Field}
  {value : FieldValue} {given : Option Key} {origin : KeyOrigin} {registry : ParentRegistry}

/-- The law of keeping the key well formed. -/
def keepingForm : Law Draft where
  allows before after := before.key.IsWellFormed → after.key.IsWellFormed
  reports _ _ := True
  refl _ wellFormed := wellFormed
  trans first second wellFormed := second (first wellFormed)
  carry _ _ := trivial

/-! ## The rules for keys -/

/-- A token stands for a well-formed key. -/
theorem wholeKey_isWellFormed (wellFormed : value.GivesWellFormed)
    (read : wholeKey field value = .ok (some key)) : key.IsWellFormed := by
  unfold wholeKey at read
  split at read
  case h_1 => simp at read
  case h_2 found =>
    obtain rfl := Option.some.inj (Except.ok.inj read)
    exact wellFormed _ found
  case h_3 =>
    obtain ⟨other, decoded, made⟩ := bind_eq_ok_iff.mp read
    obtain rfl := Option.some.inj (Except.ok.inj made)
    exact (Key.ofToken_eq_ok_iff.mp decoded).2.1
  case h_4 => contradiction

theorem applyPrimaryKey_key (applied : draft.applyPrimaryKey (some key) origin = .ok after) :
    after.key = key := by
  by_cases complete : draft.key.isComplete = true
  · obtain ⟨same, rfl⟩ := applyPrimaryKey_of_complete complete applied
    exact same
  · exact (applyPrimaryKey_of_incomplete complete applied).1

theorem applyPart_isWellFormed (wellFormed : draft.key.IsWellFormed)
    (whole : ∀ key, part = .whole key → key.IsWellFormed)
    (applied : draft.applyPart part = .ok after) : after.key.IsWellFormed := by
  cases part with
  | missing =>
      rw [applyPrimaryKey_none .derived applied]
      exact wellFormed
  | identifier identifier =>
      simp only [applyPart, siblingKey, bind_eq_ok_iff, mapError_eq_ok_iff] at applied
      obtain ⟨_, ⟨key, built, made⟩, taken⟩ := applied
      obtain rfl := Except.ok.inj made
      obtain ⟨above, -, valid⟩ := Key.build_eq_ok_iff.mp built
      rw [applyPrimaryKey_key taken, Key.isWellFormed_iff, above]
      exact ⟨fun parent found => Key.parent_isWellFormed wellFormed found, valid⟩
  | whole key =>
      rw [applyPrimaryKey_key applied]
      exact whole key rfl

theorem incomplete_isWellFormed {kind : String} (above : parent.IsWellFormed)
    (built : Key.incomplete kind (some parent) = .ok key) : key.IsWellFormed := by
  obtain ⟨below, -, valid⟩ := Key.incomplete_eq_ok_iff.mp built
  rw [Key.isWellFormed_iff, below]
  refine ⟨fun other same => ?_, valid⟩
  obtain rfl := Option.some.inj same
  exact above

theorem movedKey_isWellFormed (wellFormed : draft.key.IsWellFormed) (above : parent.IsWellFormed)
    (moved : draft.movedKey parent = .ok key) : key.IsWellFormed := by
  unfold movedKey at moved
  split at moved
  case h_1 => exact incomplete_isWellFormed above (mapError_eq_ok_iff.mp moved)
  case h_2 => exact Key.movedUnder_isWellFormed wellFormed above (mapError_eq_ok_iff.mp moved)
  case h_3 => contradiction

theorem applyParent_isWellFormed (wellFormed : draft.key.IsWellFormed)
    (above : ∀ parent, given = some parent → parent.IsWellFormed)
    (applied : draft.applyParent given = .ok after) : after.key.IsWellFormed := by
  unfold applyParent at applied
  split at applied
  case h_1 =>
    obtain rfl := Except.ok.inj applied
    exact wellFormed
  case h_2 =>
    split at applied
    case isTrue => contradiction
    case isFalse =>
      obtain rfl := Except.ok.inj applied
      exact wellFormed
  case h_3 =>
    split at applied
    case isTrue => contradiction
    split at applied
    case isTrue =>
      obtain rfl := Except.ok.inj applied
      exact wellFormed
    case isFalse => contradiction
  case h_4 parent _ =>
    split at applied
    case isTrue => contradiction
    case isFalse =>
      obtain ⟨key, moved, rebased⟩ := bind_eq_ok_iff.mp applied
      obtain ⟨-, rfl⟩ := rebase_ok rebased
      exact movedKey_isWellFormed wellFormed (above parent rfl) moved

theorem joinParent_isWellFormed (wellFormed : draft.key.IsWellFormed) (above : parent.IsWellFormed)
    (joined : draft.joinParent parent = .ok after) : after.key.IsWellFormed := by
  obtain ⟨key, moved, rebased⟩ := bind_eq_ok_iff.mp joined
  obtain ⟨-, rfl⟩ := rebase_ok rebased
  rw [mapError_eq_ok_iff] at moved
  split at moved
  case isTrue => exact Key.movedUnder_isWellFormed wellFormed above moved
  case isFalse => exact incomplete_isWellFormed above moved

theorem placeInGroup_keepsForm (wellFormed : registry.GivesWellFormed) :
    placeInGroup.Keeps (keepingForm.comap Prod.fst) (draft, registry) := by
  apply keeps_placeInGroup fun _ _ _ _ => trivial
  intro parent _ announced
  cases joined : draft.joinParent parent with
  | ok after => exact fun kept => joinParent_isWellFormed kept (wellFormed _ _ announced) joined
  | error error => trivial

theorem assignKey_isWellFormed (wellFormed : key.IsWellFormed)
    (assigned : draft.assignKey key = .ok after) : after.key.IsWellFormed := by
  rw [assignKey_ok assigned]
  exact wellFormed

end Draft

/-! ## Fields -/

namespace Mapper

variable {mapper : Mapper} {knownKey : Reference → Option Key} {draft : Draft} {field : Field}
  {position : Nat} {value : FieldValue} {provide : Nat → Outcome FieldValue}

theorem setInKey_isWellFormed {after : Draft} (inKey : field.isInKey = true)
    (wellFormed : draft.key.IsWellFormed) (given : value.GivesWellFormed)
    (applied : draft.setInKey field value = .ok after) : after.key.IsWellFormed := by
  cases gives : field.givesIdentifier with
  | true =>
      rw [Draft.setInKey_eq gives, bind_eq_ok_iff] at applied
      obtain ⟨part, read, taken⟩ := applied
      refine Draft.applyPart_isWellFormed wellFormed (fun key whole => ?_) taken
      rw [whole] at read
      exact Draft.wholeKey_isWellFormed given (KeyPart.ofField_eq_whole_iff.mp read).read
  | false =>
      have role := Field.role_of_isInKey inKey gives
      simp only [Draft.setInKey, role, Draft.setParentField_eq, Draft.givenParent,
        bind_eq_ok_iff] at applied
      obtain ⟨parent, ⟨_, -, read⟩, taken⟩ := applied
      refine Draft.applyParent_isWellFormed wellFormed (fun above same => ?_) taken
      rw [same] at read
      exact Draft.wholeKey_isWellFormed given read

/-- **A field leaves the key well formed** if a key that it is given is. -/
theorem fillField_keepsForm (given : value.GivesWellFormed) :
    (mapper.fillField knownKey position value).Keeps Draft.keepingForm draft := by
  cases found : draft.schema.field position with
  | error error =>
      unfold Keeps
      rw [fillField_of_absent mapper knownKey value found]
      exact ⟨Draft.keepingForm.refl draft, trivial⟩
  | ok field =>
      by_cases inKey : field.isInKey = true
      · unfold Keeps
        rw [fillField_of_inKey mapper knownKey value found inKey]
        apply keeps_update
        cases applied : draft.setInKey field value with
        | ok after => exact fun wellFormed => setInKey_isWellFormed inKey wellFormed given applied
        | error error => trivial
      · unfold Keeps
        rw [fillField_of_not_inKey mapper knownKey value found (eq_false_of_ne_true inKey)]
        apply keeps_storeField
        intro draft reached
        apply keeps_storeReached (fun _ _ => trivial)
        intro noted properties wellFormed
        rw [(draft.sameSetting_put noted properties).key]
        exact wellFormed

end Mapper

/-! ## Calls and runs -/

namespace DraftCall

variable {mapper : Mapper} {call : DraftCall} {draft : Draft}

/-- **Every call leaves the key well formed**, if the keys that it is given are. -/
theorem attempt_keepsForm (modest : call.KeepsKeys) (given : call.GivesWellFormed) :
    (call.attempt mapper).Keeps Draft.keepingForm draft := by
  cases call with
  | fillField knownKey position value => exact Mapper.fillField_keepsForm given
  | fillFields knownKey provide positions =>
      exact keeps_each fun position _ _ =>
        keeps_outcome_bind (fun _ _ => trivial) fun value provided =>
          Mapper.fillField_keepsForm (given position value provided)
  | placeInGroup registry =>
      apply keeps_bind
      · apply keeps_withLocal
        · exact Draft.placeInGroup_keepsForm given
        · exact fun _ kept => kept
        · exact fun _ _ => trivial
      · exact fun _ _ _ => keeps_pure ()
  | assignKey key =>
      apply keeps_update
      cases assigned : draft.assignKey key with
      | ok after => exact fun _ => Draft.assignKey_isWellFormed given assigned
      | error error => trivial
  | resolve framework around =>
      apply keeps_bind
      · apply keeps_withLocal
        · exact Mapper.resolve_keeps modest
        · intro space reached wellFormed
          rw [reached.2.key]
          exact wellFormed
        · exact fun _ _ => trivial
      · exact fun _ _ _ => keeps_pure ()

end DraftCall

/-- **A run leaves the key well formed.** -/
theorem Draft.moment_isWellFormed {mapper : Mapper} {calls : List DraftCall} {start : Draft}
    (wellFormed : start.key.IsWellFormed) (modest : ∀ call ∈ calls, call.KeepsKeys)
    (given : ∀ call ∈ calls, call.GivesWellFormed) (count : Nat) :
    (start.moment mapper calls count).key.IsWellFormed := by
  have kept : keepingForm.allows (start.moment mapper calls 0) (start.moment mapper calls count) := by
    apply moment_allows (Nat.zero_le count)
    intro turn call _ _ found
    have member := List.mem_of_getElem? found
    exact (DraftCall.attempt_keepsForm (modest call member) (given call member)).allows
  exact kept wellFormed

end RecordMapping
