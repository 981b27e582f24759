import RecordMapping.Proofs.Draft.KeyParts
import RecordMapping.Proofs.Draft.Run
import RecordMapping.Proofs.Key.Constructible

/-!
# Keys that are assigned

A store gives an id to a record whose key lacks one, and the draft takes the key that is completed so.
Completing checks the kind and the id, taking compares the kind and the parent with those of the
record. As the kind of a draft that was reached is always one that keys may have, the two never
disagree: what completes the key of a draft is what the draft takes (`Draft.assignment_of_run`).
-/

namespace RecordMapping

namespace Key

variable {key other completed : Key} {id : Int64}

/-- The levels above a key are told by its parent. -/
theorem ancestors_eq_of_parent? (same : key.parent? = other.parent?) :
    key.ancestors = other.ancestors := by
  have lineage (key : Key) : lineageUnder key.parent? = .ok key.ancestors :=
    lineageUnder_eq_ok_iff.mpr (rfl : parent? ⟨key.ancestors, key.kind, key.identifier⟩ = key.parent?)
  exact Except.ok.inj ((lineage key).symm.trans (same ▸ lineage other))

/-- A key is completed with an id if it lacks one, the id is positive, and its kind is one that keys
may have. Nothing else of it changes. -/
theorem withId_eq_ok_iff :
    key.withId id = .ok completed ↔
      (key.isComplete = false ∧ Kind.IsValid key.kind ∧ 0 < id) ∧
        completed = { key with identifier := some (.id id) } := by
  unfold withId
  split
  case isTrue complete => simp [complete]
  case isFalse missing =>
    rw [Bool.not_eq_true] at missing
    rw [build_eq_ok_iff]
    constructor
    · intro built
      obtain ⟨above, last, valid⟩ := built
      obtain ⟨kind, identifier⟩ := Segment.mk.inj last
      have ancestors := ancestors_eq_of_parent? above
      have validKind : Kind.IsValid completed.kind := valid.kind
      have positive : 0 < id := valid.identifier (.id id) identifier
      rw [kind] at validKind
      exact ⟨⟨missing, validKind, positive⟩, by rw [← ancestors, ← kind, ← identifier]⟩
    · intro accepted
      obtain ⟨⟨-, validKind, positive⟩, rfl⟩ := accepted
      refine ⟨rfl, rfl, validKind, fun identifier same => ?_⟩
      obtain rfl := Option.some.inj same
      exact positive

end Key

namespace Draft

variable {draft after : Draft} {key : Key}

/-- **A draft takes its own key, and each key that completes it.** Nothing but the key changes. -/
theorem assignKey_eq_ok_iff :
    draft.assignKey key = .ok after ↔
      (key = draft.key ∨ draft.key.isComplete = false ∧ key.isComplete = true ∧
          key.kind = draft.record.kind ∧ key.parent? = draft.record.parent?) ∧
        after = { draft with record := { draft.record with key } } := by
  unfold assignKey
  split
  case isTrue same =>
    subst same
    simp only [true_or, true_and, Except.ok.injEq]
    exact eq_comm
  case isFalse different =>
    have other : key ≠ draft.key := fun same => different same.symm
    split
    case isTrue complete => simp [other, complete]
    split
    case isTrue missing => simp_all
    split
    case isTrue elsewhere => simp [other, elsewhere]
    case isFalse lacking complete sameParent =>
      rw [rekey_eq_ok_iff, withKey]
      simp_all

end Draft

/-- The kind of a draft is one that keys may have: that of a new record was checked when it was opened,
and that of a known one is the kind of its key. -/
theorem Mapper.Opens.kind_isValid {mapper : Mapper} {object : Reference} {draft : Draft}
    (opened : mapper.Opens object draft)
    (known : draft.operation = .update → draft.key.IsWellFormed) :
    Kind.IsValid draft.schema.kind := by
  have sound := opened.isSound
  cases operation : draft.operation with
  | insert => exact Kind.check_eq_ok_iff.mp (sound.valid operation)
  | update =>
      rw [← sound.kind]
      exact (Key.isWellFormed_iff.mp (known operation)).2.kind

namespace Draft

/-- **Assigned keys are taken exactly when they complete the record.** Whatever calls led to a draft,
it takes a key if that is its own or completes its own: under the same parent, of the same kind, and
with an identifier where the draft has none. Then nothing but the key changes. A key that lacks its
identifier can be completed with each positive id, and with no other one; the completed key has the
same kind and the same parent, and the draft takes it. A record that was known before has a
well-formed key, as every key is that can be had (`Key.Obtainable.isWellFormed`). -/
theorem assignment_of_run {mapper : Mapper} {object : Reference} {start : Draft}
    {calls : List DraftCall} (opened : mapper.Opens object start)
    (known : start.operation = .update → start.key.IsWellFormed)
    (modest : ∀ call ∈ calls, call.KeepsKeys) (count : Nat) :
    let draft := start.moment mapper calls count
    (∀ key, (∃ after, draft.assignKey key = .ok after) ↔
      key = draft.key ∨ draft.key.isComplete = false ∧ key.isComplete = true ∧
        key.kind = draft.record.kind ∧ key.parent? = draft.record.parent?) ∧
    (∀ key after, draft.assignKey key = .ok after →
      after = { draft with record := { draft.record with key } }) ∧
    (draft.key.isComplete = false → ∀ id,
      ((∃ completed, draft.key.withId id = .ok completed) ↔ 0 < id) ∧
      ∀ completed, draft.key.withId id = .ok completed →
        completed.id? = some id ∧ completed.kind = draft.key.kind ∧
          completed.parent? = draft.key.parent? ∧
          draft.assignKey completed =
            .ok { draft with record := { draft.record with key := completed } }) := by
  intro draft
  have turn : Turn _ start draft := moment_turn modest (Nat.zero_le count)
  have valid : Kind.IsValid draft.key.kind := by
    rw [(moment_isSound opened.isSound modest count).kind, turn.schema]
    exact opened.kind_isValid known
  refine ⟨?accepted, ?changed, ?completed⟩
  case accepted =>
    intro key
    simp only [assignKey_eq_ok_iff, exists_and_left, exists_eq, and_true]
  case changed => exact fun key after assigned => (assignKey_eq_ok_iff.mp assigned).2
  case completed =>
    intro missing id
    constructor
    · simp only [Key.withId_eq_ok_iff, exists_and_left, exists_eq, and_true]
      exact ⟨fun accepted => accepted.2.2, fun positive => ⟨missing, valid, positive⟩⟩
    · intro completed built
      obtain ⟨-, rfl⟩ := Key.withId_eq_ok_iff.mp built
      exact ⟨rfl, rfl, rfl, assignKey_eq_ok_iff.mpr ⟨.inr ⟨missing, rfl, rfl, rfl⟩, rfl⟩⟩

/-- A new book that was placed in its library is given the id 7, but not one that is not positive. -/
theorem assignment_of_run_book :
    let calls : List DraftCall := [.fillField (fun _ => none) 1 (.key library)]
    let draft := newBook.moment bookMapper calls 1
    let numbered : Key := ⟨[⟨"Library", .name "central"⟩], "Book", some (.id 7)⟩
    draft.key.isComplete = false ∧ draft.key.withId 7 = .ok numbered ∧
      (¬ ∃ completed, draft.key.withId 0 = .ok completed) ∧
      draft.assignKey numbered = .ok { draft with record := { draft.record with key := numbered } } := by
  intro calls draft numbered
  have modest : ∀ call ∈ calls, call.KeepsKeys := by simp [calls, DraftCall.KeepsKeys]
  have missing : draft.key.isComplete = false := rfl
  have placed : draft.key = ⟨[⟨"Library", .name "central"⟩], "Book", none⟩ := rfl
  have built : draft.key.withId 7 = .ok numbered := by
    rw [placed]
    rfl
  obtain ⟨-, -, completes⟩ := assignment_of_run newBook_opens (by simp [newBook]) modest 1
  have refused := (completes missing 0).1
  exact ⟨missing, built, fun accepted => absurd (refused.mp accepted) (by decide),
    ((completes missing 7).2 numbered built).2.2.2⟩

end Draft

end RecordMapping
