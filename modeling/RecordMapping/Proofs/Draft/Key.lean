import RecordMapping.Proofs.Draft.Turn

/-!
# The rules for keys, as turns

Each rule that changes the key of a draft turns it, and on a draft that a run has reached none of
them finds that the record was given a parent before.
-/

namespace RecordMapping

namespace Draft

variable {draft after : Draft} {key parent : Key} {loses : Prop} {reported : MappingError → Prop}

/-! ## Replacing the key -/

theorem rekey_ok (moved : draft.rekey key = .ok after) :
    key.kind = draft.key.kind ∧ after = { draft with record := { draft.record with key } } := by
  unfold rekey Record.rekey at moved
  split at moved
  case isTrue sameKind =>
    obtain rfl := Except.ok.inj moved
    exact ⟨sameKind, rfl⟩
  case isFalse => contradiction

theorem rekey_reports : Reports (·.isRebuild = false) (draft.rekey key) := by
  apply reports_bind
  · unfold Record.rekey
    split
    · exact reports_ok _
    · exact reports_error rfl
  · intro record _
    exact reports_ok _

theorem rekey_governs (turned : key.kind = draft.key.kind →
    Turn loses draft { draft with record := { draft.record with key } }) :
    (keyLaw loses reported).Governs draft (draft.rekey key) := by
  cases moved : draft.rekey key with
  | ok after =>
      obtain ⟨kind, rfl⟩ := rekey_ok moved
      exact turned kind
  | error error => exact rekey_reports.spared error moved

/-- A key that is put in the place of an incomplete one, under the same parent, spells it out. -/
theorem rekey_governs_spelled (missing : draft.key.isComplete = false)
    (parent : key.parent? = draft.record.parent?) :
    (keyLaw loses reported).Governs draft (draft.rekey key) :=
  rekey_governs fun kind => ⟨rfl, rfl, rfl, .spelled missing kind parent rfl⟩

theorem rebase_of_insert {origin : ParentOrigin} (new : draft.operation = .insert)
    (first : draft.parentOrigin = none) (kind : key.kind = draft.record.kind) :
    draft.rebase key origin = .ok
      { draft with record := { draft.record with key }, parentOrigin := some origin } := by
  have notUpdate : draft.operation ≠ .update := by simp [new]
  rw [rebase, if_neg (by simp [first]), if_neg notUpdate, rekey, Record.rekey, if_pos kind]
  rfl

/-- A draft without a parent that is moved below one is placed. -/
theorem rebase_governs {origin : ParentOrigin} (rootless : draft.record.parent? = none)
    (below : key.parent? = some parent)
    (identifier : draft.operation = .insert → draft.key.isComplete → ¬ loses →
      key.identifier = draft.key.identifier) :
    (keyLaw loses reported).Governs draft (draft.rebase key origin) := by
  unfold rebase
  split
  case isTrue given =>
    -- The one check for a second parent. A sound draft without a parent was never given one.
    intro sound
    rw [sound.parentOrigin_eq_none rootless] at given
    contradiction
  split
  case isTrue => exact governs_error rfl
  case isFalse _ notUpdate =>
    have new : draft.operation = .insert := by
      cases operation : draft.operation with
      | insert => rfl
      | update => exact (notUpdate operation).elim
    apply Law.governs_bind rekey_reports.spared
    intro moved rekeyed
    obtain ⟨kind, rfl⟩ := rekey_ok rekeyed
    refine ⟨rfl, rfl, rfl, .placed new rootless kind ?_ (identifier new)⟩
    exact Option.isSome_iff_exists.mpr ⟨parent, below⟩

/-! ## The primary key -/

theorem applyKey_governs {origin : KeyOrigin} (missing : draft.key.isComplete = false) :
    (keyLaw loses reported).Governs draft (draft.applyKey key origin) := by
  unfold applyKey
  split
  case h_1 parent found =>
    split
    case isTrue => exact governs_error rfl
    split
    case isFalse => exact governs_error rfl
    case isTrue sameParent =>
      exact rekey_governs_spelled missing (sameParent.trans found.symm)
  case h_2 rootless =>
    split
    case isTrue parented =>
      rw [Key.hasParent_eq_isSome] at parented
      obtain ⟨parent, below⟩ := Option.isSome_iff_exists.mp parented
      apply rebase_governs rootless below
      intro _ complete
      rw [missing] at complete
      contradiction
    case isFalse rooted =>
      rw [Key.hasParent_eq_isSome, Option.not_isSome_iff_eq_none] at rooted
      exact rekey_governs_spelled missing (rooted.trans rootless.symm)

theorem applyPrimaryKey_governs {key : Option Key} {origin : KeyOrigin} :
    (keyLaw loses reported).Governs draft (draft.applyPrimaryKey key origin) := by
  unfold applyPrimaryKey
  cases key with
  | none =>
      simp only
      split
      case isTrue => exact governs_error rfl
      case isFalse => exact governs_same
  | some key =>
      simp only
      split
      case isTrue => exact governs_error rfl
      split
      case isTrue =>
        split
        case isTrue => exact governs_same
        case isFalse => exact governs_error rfl
      case isFalse _ incomplete =>
        rw [Bool.not_eq_true] at incomplete
        have governed : (keyLaw loses reported).Governs draft (draft.applyKey key origin) :=
          applyKey_governs incomplete
        apply Law.governs_bind governed.reports
        intro middle applied
        exact (governed.of_ok applied).withKeyOrigin _

/-! ## The parent -/

/-- The drafts that lose their identifier when the field for the parent is given a key: new ones
without a parent whose complete key was set by no field. -/
structure LosesKeyUnder (draft : Draft) (parent : Key) : Prop where
  new : draft.operation = .insert
  rootless : draft.record.parent? = none
  complete : draft.key.isComplete
  unset : draft.keyOrigin = none
  parentComplete : parent.isComplete

theorem movedKey_ok (moved : draft.movedKey parent = .ok key) :
    key.parent? = some parent ∧
      (draft.keyOrigin.isSome → key.identifier = draft.key.identifier) := by
  unfold movedKey at moved
  split at moved
  case h_1 unset =>
    rw [mapError_eq_ok_iff] at moved
    obtain ⟨-, below, -⟩ := Key.incomplete_ok moved
    exact ⟨below, by simp [unset]⟩
  case h_2 =>
    rw [mapError_eq_ok_iff] at moved
    obtain ⟨-, below, identifier⟩ := Key.movedUnder_ok moved
    exact ⟨below, fun _ => identifier⟩
  case h_3 => contradiction

/-- Only a complete key can be a parent. -/
theorem isComplete_of_parent? (below : key.parent? = some parent) : parent.isComplete := by
  unfold Key.parent? at below
  split at below
  case h_1 => contradiction
  case h_2 =>
    obtain rfl := Option.some.inj below
    rfl

theorem movedKey_reports : Reports (·.isRebuild = false) (draft.movedKey parent) := by
  unfold movedKey
  split
  · exact reports_mapError fun _ => rfl
  · exact reports_mapError fun _ => rfl
  · exact reports_error rfl

theorem applyParent_governs {parent : Option Key} :
    (keyLaw (∃ key, parent = some key ∧ draft.LosesKeyUnder key) reported).Governs draft
      (draft.applyParent parent) := by
  unfold applyParent
  split
  case h_1 => exact governs_same
  case h_2 =>
    split
    case isTrue => exact governs_error rfl
    case isFalse => exact governs_same
  case h_3 =>
    split
    case isTrue => exact governs_error rfl
    split
    case isTrue => exact governs_same
    case isFalse => exact governs_error rfl
  case h_4 parent rootless =>
    split
    case isTrue => exact governs_error rfl
    apply Law.governs_bind movedKey_reports.spared
    intro key moved
    obtain ⟨below, kept⟩ := movedKey_ok moved
    apply rebase_governs rootless below
    intro new complete safe
    apply kept
    -- A key that no field has set would be lost, against what was assumed.
    rw [← Option.ne_none_iff_isSome]
    intro unset
    exact safe ⟨parent, rfl, new, rootless, complete, unset, isComplete_of_parent? below⟩

/-- The converse of the exception: such drafts do lose their identifier. -/
theorem applyParent_of_losesKey (sound : draft.IsSound) (lost : draft.LosesKeyUnder parent) :
    ∃ after, draft.applyParent (some parent) = .ok after ∧ after.key.isComplete = false := by
  have kind : Kind.check draft.record.kind = .ok () := by
    have same : draft.record.kind = draft.schema.kind := sound.kind
    rw [same]
    exact sound.valid lost.new
  obtain ⟨key, built⟩ := Key.incomplete_of_isComplete kind lost.parentComplete
  obtain ⟨sameKind, -, missing⟩ := Key.incomplete_ok built
  have moved : draft.movedKey parent = .ok key := by
    rw [movedKey, lost.unset, built]
    rfl
  have applied : draft.applyParent (some parent) = draft.rebase key .field := by
    have notUpdate : draft.operation ≠ .update := by simp [lost.new]
    unfold applyParent
    rw [lost.rootless]
    simp only [if_neg notUpdate, moved]
    rfl
  rw [applied, rebase_of_insert lost.new (sound.parentOrigin_eq_none lost.rootless) sameKind]
  refine ⟨_, rfl, ?_⟩
  change key.identifier.isSome = false
  rw [missing]
  rfl

/-! ## The assigned key -/

theorem assignKey_governs : (keyLaw loses reported).Governs draft (draft.assignKey key) := by
  unfold assignKey
  split
  case isTrue => exact governs_same
  split
  case isTrue => exact governs_error rfl
  split
  case isTrue => exact governs_error rfl
  split
  case isTrue => exact governs_error rfl
  case isFalse _ incomplete _ sameParent =>
    rw [Bool.not_eq_true] at incomplete
    rw [not_not] at sameParent
    exact rekey_governs_spelled incomplete sameParent

/-! ## The registered parent -/

theorem joinParent_governs (rootless : draft.record.parent? = none) :
    (keyLaw loses reported).Governs draft (draft.joinParent parent) := by
  unfold joinParent
  apply Law.governs_bind
  · apply Reports.spared
    exact reports_mapError fun _ => rfl
  intro key moved
  rw [mapError_eq_ok_iff] at moved
  split at moved
  case isTrue =>
    obtain ⟨-, below, identifier⟩ := Key.movedUnder_ok moved
    exact rebase_governs rootless below fun _ _ _ => identifier
  case isFalse incomplete =>
    obtain ⟨-, below, -⟩ := Key.incomplete_ok moved
    exact rebase_governs rootless below fun _ complete => (incomplete complete).elim

theorem keyForm_reports {field : Field} : Reports (·.isRebuild = false) field.keyForm := by
  unfold Field.keyForm
  split
  all_goals first | exact reports_ok _ | exact reports_error rfl

theorem parentValue_reports : Reports (·.isRebuild = false) (draft.parentValue parent) := by
  unfold parentValue
  split
  · exact reports_ok _
  · apply reports_bind keyForm_reports
    intro form _
    split
    · exact reports_ok _
    · exact reports_ok _

/-- **What placing keeps.** Placing a draft keeps a law if giving it the parent that is registered for
its object does, and the class's form of a parent's key reports nothing else. -/
theorem keeps_placeInGroup {law : Law Draft} {registry : ParentRegistry}
    (values : ∀ placed parent, Reports (law.reports placed) (parentValue placed parent))
    (joins : ∀ parent, draft.record.parent? = none →
      registry.parent? draft.object.id = some parent → law.Governs draft (draft.joinParent parent)) :
    placeInGroup.Keeps (law.comap Prod.fst) (draft, registry) := by
  unfold placeInGroup
  apply Attempt.keeps_get_bind
  simp only
  split
  · exact Attempt.keeps_ofOutcome (values draft _)
  case h_2 rootless =>
    split
    · exact Attempt.keeps_pure none
    case h_2 parent found =>
      have announced : registry.parent? draft.object.id = some parent := by
        by_cases seeks : draft.seeksParent registry = true
        · rw [if_pos seeks] at found
          exact found
        · rw [if_neg seeks] at found
          contradiction
      have governed := joins parent rootless announced
      apply Attempt.keeps_bind
      · exact Attempt.keeps_set (law.refl draft)
      rintro _ _ ⟨⟩
      apply Attempt.keeps_outcome_bind
      · exact governed.reports
      intro joined done
      apply Attempt.keeps_bind
      · exact Attempt.keeps_set (governed.of_ok done)
      rintro _ _ ⟨⟩
      exact Attempt.keeps_ofOutcome (values joined parent)

/-- **Placing a draft in its entity group turns its key**, and never takes the identifier away. -/
theorem placeInGroup_keeps {registry : ParentRegistry} :
    placeInGroup.Keeps ((keyLaw loses reported).comap Prod.fst) (draft, registry) :=
  keeps_placeInGroup (fun _ _ => parentValue_reports.spared) fun _ rootless _ =>
    joinParent_governs rootless

/-! ## Fields of the key -/

variable {field : Field} {value : FieldValue}

theorem wholeKey_reports : Reports (·.isRebuild = false) (wholeKey field value) := by
  unfold wholeKey
  split
  · exact reports_ok _
  · exact reports_ok _
  · exact reports_bind (reports_mapError fun _ => rfl) fun _ _ => reports_ok _
  · exact reports_error rfl

theorem identifiedKey_reports :
    Reports (·.isRebuild = false) (draft.identifiedKey field value) := by
  have sibling (identifier : Identifier) :
      Reports (·.isRebuild = false) (draft.siblingKey identifier) :=
    reports_bind (reports_mapError fun _ => rfl) fun _ _ => reports_ok _
  unfold identifiedKey
  split
  · exact reports_ok _
  · exact sibling _
  · exact sibling _
  · exact reports_error rfl

theorem setPrimaryKey_governs :
    (keyLaw loses reported).Governs draft (draft.setPrimaryKey field value) := by
  unfold setPrimaryKey
  apply Law.governs_bind keyForm_reports.spared
  intro form _
  split
  case h_1 =>
    exact Law.governs_bind identifiedKey_reports.spared fun _ _ => applyPrimaryKey_governs
  case h_2 =>
    split
    case isTrue => exact governs_error rfl
    case isFalse =>
      exact Law.governs_bind identifiedKey_reports.spared fun _ _ => applyPrimaryKey_governs
  case h_3 => exact Law.governs_bind wholeKey_reports.spared fun _ _ => applyPrimaryKey_governs

theorem setIdentifier_governs :
    (keyLaw loses reported).Governs draft (draft.setIdentifier field value) := by
  apply Law.governs_bind keyForm_reports.spared
  intro _ _
  exact Law.governs_bind identifiedKey_reports.spared fun _ _ => applyPrimaryKey_governs

/-- The drafts that lose their identifier to a value of the field for the parent. -/
def LosesKeyTo (draft : Draft) (field : Field) (value : FieldValue) : Prop :=
  (∃ form, field.keyForm = .ok form) ∧
    ∃ parent, wholeKey field value = .ok (some parent) ∧ draft.LosesKeyUnder parent

theorem setParentField_governs :
    (keyLaw (draft.LosesKeyTo field value) reported).Governs draft
      (draft.setParentField field value) := by
  apply Law.governs_bind keyForm_reports.spared
  intro form typed
  apply Law.governs_bind wholeKey_reports.spared
  intro parent read
  apply governs_mono applyParent_governs
  rintro ⟨key, rfl, lost⟩
  exact ⟨⟨form, typed⟩, key, read, lost⟩

theorem setParentField_of_losesKey (sound : draft.IsSound) (lost : draft.LosesKeyTo field value) :
    ∃ after, draft.setParentField field value = .ok after ∧ after.key.isComplete = false := by
  obtain ⟨⟨form, typed⟩, parent, read, lostUnder⟩ := lost
  obtain ⟨after, applied, incomplete⟩ := applyParent_of_losesKey sound lostUnder
  refine ⟨after, ?_, incomplete⟩
  simp only [setParentField, bind_eq_ok_iff]
  exact ⟨form, typed, some parent, read, applied⟩

end Draft

end RecordMapping
