import RecordMapping.Proofs.Draft.Run

/-!
# The identity of a record during a run

A complete key keeps its last level through a run, with one exception: a new record without a
parent, whose key the store assigned and no field has set, loses its identifier when the field for
the parent is given a key. `DraftCall.LosesKey` names these calls exactly: a run without them
keeps the identity, and each of them passes through a draft whose key is incomplete.
-/

namespace RecordMapping

open Attempt

/-- The drafts that a call passes through. The fields that are filled one after the other are each
filled in sight of the others. -/
def DraftCall.Passes (mapper : Mapper) (call : DraftCall) (draft passed : Draft) : Prop :=
  match call with
  | .fillFields knownKey provide positions =>
      ∃ earlier, earlier <+: positions ∧
        passed = (fillFields knownKey provide earlier).left mapper draft
  | call => passed = call.left mapper draft

namespace Mapper

variable {mapper : Mapper} {knownKey : Reference → Option Key} {draft filled : Draft}
  {provide : Nat → Outcome FieldValue}

theorem fillFields_concat {position : Nat} {positions : List Nat} {value : FieldValue}
    {after : Draft} (before : mapper.fillFields knownKey provide positions draft = .ok () filled)
    (provided : provide position = .ok value)
    (done : mapper.fillField knownKey position value filled = .ok () after) :
    mapper.fillFields knownKey provide (positions ++ [position]) draft = .ok () after := by
  induction positions generalizing draft with
  | nil =>
      obtain ⟨-, rfl⟩ := EStateM.Result.ok.inj before
      rw [List.nil_append, fillFields_cons_of_ok provided done]
      rfl
  | cons first rest ih =>
      obtain ⟨_, middle, filledFirst, filledRest⟩ := Gives.bind before
      obtain ⟨given, asked, answered, filledField⟩ := filledFirst.bind
      obtain ⟨providedFirst, rfl⟩ := answered.lift
      rw [List.cons_append, fillFields_cons_of_ok providedFirst filledField]
      exact ih filledRest

end Mapper

namespace DraftCall

variable {mapper : Mapper} {call : DraftCall} {draft : Draft}

/-- A call that takes the identifier passes through a draft with an incomplete key. -/
theorem passes_incomplete (sound : draft.IsSound) (lost : call.LosesKey mapper draft) :
    ∃ passed, call.Passes mapper draft passed ∧ passed.key.isComplete = false := by
  cases call with
  | fillField knownKey position value =>
      obtain ⟨after, filled, incomplete⟩ :=
        Mapper.fillField_of_losesKey mapper knownKey sound lost
      refine ⟨after, ?_, incomplete⟩
      change after = ((mapper.fillField knownKey position value).outcome draft).2
      rw [outcome, filled]
  | fillFields knownKey provide positions =>
      obtain ⟨earlier, position, later, value, filled, rfl, before, provided, lostAt⟩ := lost
      have reached : (fillFields knownKey provide earlier).left mapper draft = filled := by
        change ((mapper.fillFields knownKey provide earlier).outcome draft).2 = filled
        rw [outcome, before]
      have modest : (fillFields knownKey provide earlier).KeepsKeys := trivial
      have soundFilled : filled.IsSound := by
        rw [← reached]
        exact (left_turn modest).isSound sound
      obtain ⟨after, filledField, incomplete⟩ :=
        Mapper.fillField_of_losesKey mapper knownKey soundFilled lostAt
      refine ⟨after, ⟨earlier ++ [position], ⟨later, ?_⟩, ?_⟩, incomplete⟩
      · rw [List.append_assoc, List.singleton_append]
      · change after = ((mapper.fillFields knownKey provide (earlier ++ [position])).outcome draft).2
        rw [outcome, Mapper.fillFields_concat before provided filledField]
  | placeInGroup registry => exact lost.elim
  | assignKey key => exact lost.elim
  | resolve framework around => exact lost.elim

end DraftCall

namespace Draft

variable {mapper : Mapper} {object : Reference} {start : Draft} {calls : List DraftCall}
  {earlier later : Nat}

/-- **The identity of a record during a run.** Once the key is complete it stays so, and its last
level stays the same, as long as no call takes the identifier away; and each call that does passes
through a draft whose key is incomplete. -/
theorem identity_of_run (opened : mapper.Opens object start)
    (modest : ∀ call ∈ calls, call.KeepsKeys)
    (complete : (start.moment mapper calls earlier).key.isComplete) :
    ((∀ count (call : DraftCall), earlier ≤ count → calls[count]? = some call →
        ¬ call.LosesKey mapper (start.moment mapper calls count)) →
      ∀ later, earlier ≤ later →
        (start.moment mapper calls later).key.isComplete ∧
          (start.moment mapper calls later).key.last =
            (start.moment mapper calls earlier).key.last) ∧
    (∀ count (call : DraftCall), earlier ≤ count → calls[count]? = some call →
      call.LosesKey mapper (start.moment mapper calls count) →
      ∃ passed, call.Passes mapper (start.moment mapper calls count) passed ∧
        passed.key.isComplete = false) := by
  constructor
  · intro safe later ordered
    have turn : Turn _ (start.moment mapper calls earlier) (start.moment mapper calls later) :=
      moment_turn modest ordered
    have last : (start.moment mapper calls later).key.last =
        (start.moment mapper calls earlier).key.last := by
      apply turn.last_eq _ complete
      rintro ⟨count, call, after, -, found, lost⟩
      exact safe count call after found lost
    refine ⟨?_, last⟩
    have identifier := congrArg Segment.identifier last
    rw [Key.isComplete] at complete ⊢
    exact (congrArg Option.isSome identifier).trans complete
  · intro count call _ _ lost
    exact DraftCall.passes_incomplete (moment_isSound opened.isSound modest count) lost

/-- A book whose id a field has set keeps it below a library that it is given later. -/
theorem identity_of_run_book :
    let calls : List DraftCall :=
      [.fillField (fun _ => none) 0 (.int 7), .fillField (fun _ => none) 1 (.key library)]
    (newBook.moment bookMapper calls 2).key.last = ⟨"Book", some (.id 7)⟩ := by
  intro calls
  have modest : ∀ call ∈ calls, call.KeepsKeys := by simp [calls, DraftCall.KeepsKeys]
  have complete : (newBook.moment bookMapper calls 1).key.isComplete := rfl
  have safe : ∀ count (call : DraftCall), 1 ≤ count → calls[count]? = some call →
      ¬ call.LosesKey bookMapper (newBook.moment bookMapper calls count) := by
    rintro (_ | _ | count) call ordered found
    · contradiction
    · obtain rfl := Option.some.inj found
      rintro ⟨_, _, _, _, _, _, lost⟩
      exact nomatch lost.unset
    · contradiction
  exact ((identity_of_run newBook_opens modest complete).1 safe 2 (by decide)).2

/-- A book whose id was assigned loses it to a library that it is given afterwards. -/
theorem not_identity_of_assigned_book :
    let calls : List DraftCall :=
      [.assignKey ⟨[], "Book", some (.id 7)⟩, .fillField (fun _ => none) 1 (.key library)]
    bookMapper.Opens book newBook ∧ (∀ call ∈ calls, call.KeepsKeys) ∧
      (newBook.moment bookMapper calls 1).key = ⟨[], "Book", some (.id 7)⟩ ∧
      (newBook.moment bookMapper calls 2).key = ⟨[⟨"Library", .name "central"⟩], "Book", none⟩ := by
  intro calls
  exact ⟨newBook_opens, by simp [calls, DraftCall.KeepsKeys], rfl, rfl⟩

end Draft

end RecordMapping
