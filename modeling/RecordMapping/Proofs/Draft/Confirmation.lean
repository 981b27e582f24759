import RecordMapping.Proofs.Draft.LostRelations
import RecordMapping.Proofs.Draft.Sightings
import RecordMapping.Proofs.Value.Sameness

/-!
# Records that already hold what is computed

When the keys of relations are written, a value is computed for each and compared with the one that
the record holds. A draft confirms some relations if the values that are computed for them, one
after the other, count as the same as those that it holds (`Draft.Confirms`). Exactly then resolving
tells of no change (`Mapper.resolve_gives_false_iff`). The comparison is an equivalence that agrees
with whatever else is asked of a value (`Value.same_congruence`), so that no change is ever seen
between a value and the same one computed again, and a record confirms whatever another one does
that holds values that count as the same (`Draft.Confirms.of_same`).
-/

namespace RecordMapping

open Attempt

namespace Draft

variable {World : Type} {framework : Framework World} {draft : Draft} {pending : Pending}
  {noted : List Pending} {start finish : Surroundings World} {final : Workspace World}

/-- Whether the values computed for some relations between two moments count as the same as those
that the record of a draft holds. -/
inductive Confirms (framework : Framework World) (draft : Draft) :
    List Pending → Surroundings World → Surroundings World → Prop where
  | nil (around : Surroundings World) : Confirms framework draft [] around around
  | cons {pending : Pending} {rest : List Pending} {start middle finish : Surroundings World}
      {held fresh : Value} (found : draft.record.get? pending.property = some held)
      (computed : (childKeys framework draft pending).Gives start fresh middle)
      (alike : held.same fresh = true) (others : Confirms framework draft rest middle finish) :
      Confirms framework draft (pending :: rest) start finish

/-- A record confirms what another one does if it holds values that count as the same as those of
the other. This needs the comparison to be transitive. -/
theorem Confirms.of_same {twin : Draft} (key : twin.key = draft.key)
    (schema : twin.schema = draft.schema) (object : twin.object = draft.object)
    (alike : ∀ name held, draft.record.get? name = some held →
      ∃ other, twin.record.get? name = some other ∧ other.same held = true)
    (confirmed : Confirms framework draft noted start finish) :
    Confirms framework twin noted start finish := by
  induction confirmed with
  | nil around => exact .nil around
  | cons found computed same _ ih =>
      obtain ⟨other, foundThere, sameThere⟩ := alike _ _ found
      rw [← childKeys_congr key schema object] at computed
      exact .cons foundThere computed (Value.same_is_equivalence.trans sameThere same) ih

theorem exists_same_of_beq_some {held : Option Value} {fresh : Value}
    (alike : (held == some fresh) = true) :
    ∃ value, held = some value ∧ value.same fresh = true := by
  cases held with
  | none => contradiction
  | some value => exact ⟨value, rfl, alike⟩

/-- The keys of one relation are left alone exactly if the record holds the same. -/
theorem writeChildKeys_gives_false_iff :
    (writeChildKeys framework pending).Gives ⟨draft, start⟩ false final ↔
      ∃ held fresh after, draft.record.get? pending.property = some held ∧
        (childKeys framework draft pending).Gives start fresh after ∧
        held.same fresh = true ∧ final = ⟨draft, after⟩ := by
  constructor
  · intro done
    unfold writeChildKeys at done
    obtain ⟨fresh, middle, collected, rest⟩ := done.get_bind.bind
    obtain ⟨after, computed, rfl⟩ := collected.onPart
    by_cases alike : (draft.record.get? pending.property == some fresh) = true
    · rw [if_pos alike] at rest
      obtain ⟨-, rfl⟩ := rest.pure
      obtain ⟨held, found, same⟩ := exists_same_of_beq_some alike
      exact ⟨held, fresh, after, found, computed, same, rfl⟩
    · rw [if_neg alike] at rest
      obtain ⟨_, _, -, made⟩ := rest.bind
      exact absurd made.pure.1 Bool.false_ne_true
  · rintro ⟨held, fresh, after, found, computed, same, rfl⟩
    unfold Gives at computed
    unfold writeChildKeys
    rw [Gives, get_bind]
    apply (bind_of_ok (onPart_of_ok computed)).trans
    rw [if_pos (by rw [found]; exact same)]
    rfl

/-- **A loop over relations tells of no change exactly if the draft confirms them all.** The
induction is on the relations: as long as nothing is written the draft is the one at the start, with
which every value is compared. -/
theorem writeAllChildKeys_gives_false_iff :
    (writeAllChildKeys framework noted).Gives ⟨draft, start⟩ false final ↔
      final.draft = draft ∧ Confirms framework draft noted start final.surroundings := by
  induction noted generalizing start with
  | nil =>
      constructor
      · intro done
        obtain ⟨-, rfl⟩ := done.pure
        exact ⟨rfl, .nil start⟩
      · rintro ⟨rfl, confirmed⟩
        cases confirmed
        rfl
  | cons pending rest ih =>
      unfold writeAllChildKeys
      rw [gives_bind_iff]
      constructor
      · rintro ⟨changed, middle, written, remaining⟩
        obtain ⟨changedMore, last, writtenRest, made⟩ := remaining.bind
        obtain ⟨told, rfl⟩ := made.pure
        obtain ⟨rfl, rfl⟩ : changed = false ∧ changedMore = false := by simpa using told.symm
        obtain ⟨held, fresh, after, found, computed, same, rfl⟩ :=
          writeChildKeys_gives_false_iff.mp written
        obtain ⟨left, others⟩ := ih.mp writtenRest
        exact ⟨left, .cons found computed same others⟩
      · rintro ⟨left, confirmed⟩
        cases confirmed with
        | @cons _ _ _ middle _ held fresh found computed same others =>
            have written : (writeChildKeys framework pending).Gives ⟨draft, start⟩ false
                ⟨draft, middle⟩ :=
              writeChildKeys_gives_false_iff.mpr ⟨held, fresh, middle, found, computed, same, rfl⟩
            have writtenRest := ih.mpr ⟨left, others⟩
            exact ⟨false, _, written, gives_bind_iff.mpr ⟨false, final, writtenRest, rfl⟩⟩

end Draft

namespace Mapper

variable {World : Type} {mapper : Mapper} {framework : Framework World}
  {space final : Workspace World}

/-- **Resolving tells of no change exactly if the record already holds all that is computed**, by
the comparison of stored values. -/
theorem resolve_gives_false_iff (waits : space.draft.pending ≠ [])
    (complete : space.draft.key.isComplete = true) :
    (mapper.resolve framework).Gives space false final ↔
      ∃ ready, (mapper.prepare framework space.draft.pending).Gives
          { space with draft := { space.draft with pending := [] } } () ready ∧
        final.draft = ready.draft ∧
        Draft.Confirms framework ready.draft (mapper.unskipped space.draft) ready.surroundings
          final.surroundings := by
  constructor
  · intro done
    obtain ⟨-, ready, prepared, written⟩ := resolve_parts waits done
    exact ⟨ready, prepared, Draft.writeAllChildKeys_gives_false_iff.mp written⟩
  · intro confirmed
    obtain ⟨ready, prepared, confirmed⟩ := confirmed
    rw [Gives, resolve_of_complete waits complete, resolvePending_eq_prepare]
    exact (bind_of_ok prepared).trans (Draft.writeAllChildKeys_gives_false_iff.mpr confirmed)

end Mapper

/-- **Counting as the same is an equivalence that nothing contradicts.** It is reflexive, symmetric
and transitive on stored values of whatever depth. Values that count as the same have the same type,
are both null or not, and are both kept out of the index or not; lists count as the same exactly if
they are as long and their items do; floats, exactly if their bits agree or they are the same
number. Exactly where a record holds the same values as are computed for some relations, no change
is told and the draft stays as it is. -/
theorem Value.same_congruence :
    Equivalence (fun first second : Value => first.same second = true) ∧
      (∀ first second : Value, first.same second = true →
        first.typeLabel = second.typeLabel ∧ first.isNull = second.isNull ∧
          first.isUnindexable = second.isUnindexable) ∧
      (∀ items others : List Value, (Value.list items).same (.list others) = true ↔
        items.length = others.length ∧
          ∀ (index : Nat) (here : index < items.length) (there : index < others.length),
            items[index].same others[index] = true) ∧
      (∀ x y : Binary64, (Value.float x).same (.float y) = true ↔
        x = y ∨ (x.isNaN = false ∧ y.isNaN = false ∧ x.number = y.number)) ∧
      ∀ (World : Type) (framework : Framework World) (draft : Draft) (noted : List Pending)
        (start finish : Surroundings World),
        Draft.Confirms framework draft noted start finish ↔
          Draft.writeAllChildKeys framework noted ⟨draft, start⟩ = .ok false ⟨draft, finish⟩ := by
  refine ⟨same_is_equivalence, ?views, fun _ _ => same_list_iff, fun _ _ => same_float_iff,
    ?confirms⟩
  case views =>
    intro first second alike
    exact ⟨eq_of_same typeLabel_canonical alike, eq_of_same isNull_canonical alike,
      eq_of_same isUnindexable_canonical alike⟩
  case confirms =>
    intro World framework draft noted start finish
    constructor
    · intro confirmed
      exact Draft.writeAllChildKeys_gives_false_iff.mpr ⟨rfl, confirmed⟩
    · intro done
      exact (Draft.writeAllChildKeys_gives_false_iff.mp done).2

def negativeZero : Binary64 :=
  ⟨0x8000000000000000⟩

/-- A list of a NaN and, one level down, of a zero. -/
def readings (zero : Binary64) : Value :=
  .list [.float ⟨0x7FF0000000000123⟩, .list [.float zero]]

/-- A library that holds the key of its book. -/
def stockedLibrary : Draft :=
  { libraryWithBooks with record := ⟨library, [⟨"books", .ofKeys [bookKey], true⟩]⟩ }

/-- Readings with either zero count as the same, the NaN in them notwithstanding, and so do the
lists in them. The key of the book is not written once more. -/
theorem Value.same_congruence_readings :
    (readings negativeZero).same (readings ⟨0⟩) = true ∧
      (readings ⟨0⟩).same (readings negativeZero) = true ∧
      (readings negativeZero).typeLabel = (readings ⟨0⟩).typeLabel ∧
      (Value.list [.float negativeZero]).same (.list [.float ⟨0⟩]) = true ∧
      negativeZero.number = (⟨0⟩ : Binary64).number ∧
      Draft.writeAllChildKeys flushingFramework [notedBooks] ⟨stockedLibrary, ⟨{}, some bookKey⟩⟩ =
        .ok false ⟨stockedLibrary, ⟨{}, some bookKey⟩⟩ := by
  obtain ⟨equivalence, views, lists, floats, confirms⟩ := same_congruence
  have alike : (readings negativeZero).same (readings ⟨0⟩) = true := by decide
  have inner : (Value.list [.float negativeZero]).same (.list [.float ⟨0⟩]) = true :=
    ((lists _ _).mp alike).2 1 (by decide) (by decide)
  have zeros : (Value.float negativeZero).same (.float ⟨0⟩) = true :=
    ((lists _ _).mp inner).2 0 (by decide) (by decide)
  have numbers : negativeZero.number = (⟨0⟩ : Binary64).number := by
    rcases (floats _ _).mp zeros with equal | ⟨-, -, numbers⟩
    · contradiction
    · exact numbers
  have confirmed : Draft.Confirms flushingFramework stockedLibrary [notedBooks]
      ⟨{}, some bookKey⟩ ⟨{}, some bookKey⟩ :=
    .cons rfl rfl (same_self (.ofKeys [bookKey])) (.nil _)
  exact ⟨alike, equivalence.symm alike, (views _ _ alike).1, inner, numbers,
    (confirms _ _ _ _ _ _).mp confirmed⟩

end RecordMapping
