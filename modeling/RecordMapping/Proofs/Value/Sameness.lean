import Mathlib.Data.List.Forall2
import RecordMapping.Proofs.Number.Binary64
import RecordMapping.Proofs.Record

/-!
# When stored values count as the same

Stored values are compared by a relation of their own: floats count as the same if their bits agree,
so that a NaN is the same as itself, and also if they compare as equal, so that the two zeros are
the same. `Value.canonical` takes the signs of zeros away at every depth, and values count as the
same if and only if their canonical values are equal (`Value.same_iff`). So sameness is an
equivalence (`Value.same_is_equivalence`), and what does not look at the signs of zeros is the same
for values that count as the same (`Value.eq_of_same`).
-/

namespace RecordMapping.Value

mutual

/-- The value with the signs of zeros taken off, at every depth. -/
def canonical : Value → Value
  | .float value => .float value.canonical
  | .list items => .list (canonicalItems items)
  | value => value

/-- The items of a list with the signs of zeros taken off. -/
def canonicalItems : List Value → List Value
  | [] => []
  | item :: rest => item.canonical :: canonicalItems rest

end

mutual

/-- **Values count as the same if they are equal but for the signs of zeros.** The induction is on
the first value; the second one has to be built in the same way. -/
theorem same_iff :
    (first second : Value) → (first.same second = true ↔ first.canonical = second.canonical)
  | .null, second | .boolean _, second | .integer _, second | .text _, second
  | .longText _, second | .blob _, second | .timestamp _, second | .key _, second => by
      cases second <;> simp [same, canonical]
  | .float _, second => by
      cases second with
      | float _ => rw [same, Binary64.eq_or_ieeeEq_iff, canonical, canonical, float.injEq]
      | _ => simp [same, canonical]
  | .list items, second => by
      cases second with
      | list others => rw [same, sameItems_iff items others, canonical, canonical, list.injEq]
      | _ => simp [same, canonical]

theorem sameItems_iff : (items others : List Value) →
    (sameItems items others = true ↔ canonicalItems items = canonicalItems others)
  | [], others => by cases others <;> simp [sameItems, canonicalItems]
  | item :: rest, others => by
      cases others with
      | nil => simp [sameItems, canonicalItems]
      | cons other more =>
          rw [sameItems, Bool.and_eq_true, same_iff item other, sameItems_iff rest more,
            canonicalItems, canonicalItems, List.cons.injEq]

end

variable {first second : Value} {items others : List Value}

theorem same_is_equivalence :
    Equivalence (fun first second : Value => first.same second = true) where
  refl := same_self
  symm alike := (same_iff _ _).mpr ((same_iff _ _).mp alike).symm
  trans left right := (same_iff _ _).mpr (((same_iff _ _).mp left).trans ((same_iff _ _).mp right))

/-- What does not look at the signs of zeros cannot tell values apart that count as the same. -/
theorem eq_of_same {α : Type} {view : Value → α}
    (blind : ∀ value, view value.canonical = view value) (alike : first.same second = true) :
    view first = view second :=
  calc view first = view first.canonical := (blind first).symm
    _ = view second.canonical := congrArg view ((same_iff first second).mp alike)
    _ = view second := blind second

theorem typeLabel_canonical (value : Value) : value.canonical.typeLabel = value.typeLabel := by
  cases value <;> simp [canonical, typeLabel]

theorem isNull_canonical (value : Value) : value.canonical.isNull = value.isNull := by
  cases value <;> simp [canonical, isNull]

theorem isUnindexable_canonical (value : Value) :
    value.canonical.isUnindexable = value.isUnindexable := by
  cases value <;> simp [canonical, isUnindexable]

theorem sameItems_iff_forall₂ : sameItems items others = true ↔
    List.Forall₂ (fun item other => item.same other = true) items others := by
  induction items generalizing others with
  | nil => cases others <;> simp [sameItems]
  | cons item rest ih =>
      cases others with
      | nil => simp [sameItems]
      | cons other more => rw [sameItems, Bool.and_eq_true, ih, List.forall₂_cons]

/-- Lists count as the same if they have as many items, and those at each place count as the
same. -/
theorem same_list_iff : (list items).same (list others) = true ↔
    items.length = others.length ∧
      ∀ (index : Nat) (here : index < items.length) (there : index < others.length),
        items[index].same others[index] = true := by
  rw [same, sameItems_iff_forall₂, List.forall₂_iff_get]
  rfl

/-- Floats count as the same if they have the same bits, or if they are numbers and the same
ones. -/
theorem same_float_iff {x y : Binary64} : (float x).same (float y) = true ↔
    x = y ∨ (x.isNaN = false ∧ y.isNaN = false ∧ x.number = y.number) := by
  rw [same, Bool.or_eq_true, beq_iff_eq, Binary64.ieeeEq_iff_number_eq]

end RecordMapping.Value
