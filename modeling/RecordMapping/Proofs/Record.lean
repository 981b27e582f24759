import Mathlib.Data.List.Nodup
import RecordMapping.Record

/-!
# Properties that are set and read

A property reads as the value that it was set to last, and setting one leaves the others alone.
-/

namespace RecordMapping

namespace Property

theorem find?_put (property : Property) (properties : List Property) :
    (put property properties).find? (fun other => other.name = property.name) = some property := by
  induction properties with
  | nil => simp [put]
  | cons first rest ih =>
      rw [put]
      split
      case isTrue => simp
      case isFalse different => rw [List.find?_cons_of_neg (by simpa using different), ih]

theorem find?_put_of_ne {property : Property} {name : String} (different : property.name ≠ name)
    (properties : List Property) :
    (put property properties).find? (fun other => other.name = name) =
      properties.find? fun other => other.name = name := by
  induction properties with
  | nil => simp [put, different]
  | cons first rest ih =>
      rw [put]
      split
      case isTrue same =>
        rw [List.find?_cons_of_neg (by simpa using different),
          List.find?_cons_of_neg (by simpa [same] using different)]
      case isFalse => rw [List.find?_cons, List.find?_cons, ih]

theorem eq_or_mem_of_mem_put {property other : Property} {properties : List Property}
    (member : other ∈ put property properties) : other = property ∨ other ∈ properties := by
  induction properties with
  | nil => exact .inl (List.mem_singleton.mp member)
  | cons first rest ih =>
      rw [put] at member
      split at member
      case isTrue =>
        rcases List.mem_cons.mp member with same | later
        · exact .inl same
        · exact .inr (List.mem_cons_of_mem first later)
      case isFalse =>
        rcases List.mem_cons.mp member with same | later
        · exact .inr (same ▸ List.mem_cons_self)
        · exact (ih later).imp id (List.mem_cons_of_mem first)

/-- A property takes the place of the one of its name, or is added at the end. -/
theorem names_put_eq (property : Property) (properties : List Property) :
    (put property properties).map Property.name =
      if property.name ∈ properties.map Property.name then properties.map Property.name
      else properties.map Property.name ++ [property.name] := by
  induction properties with
  | nil => rfl
  | cons first rest ih =>
      rw [put]
      by_cases here : first.name = property.name
      · rw [if_pos here, List.map_cons, List.map_cons, here, if_pos List.mem_cons_self]
      · rw [if_neg here, List.map_cons, List.map_cons, ih]
        simp only [List.mem_cons, Ne.symm here, false_or]
        split <;> rfl

theorem names_put (property : Property) (properties : List Property) :
    properties.map Property.name <+: (put property properties).map Property.name := by
  rw [names_put_eq]
  split
  · exact List.prefix_refl _
  · exact List.prefix_append _ _

theorem mem_put_iff {property other : Property} {properties : List Property}
    (distinct : (properties.map Property.name).Nodup) :
    other ∈ put property properties ↔
      other = property ∨ other ∈ properties ∧ other.name ≠ property.name := by
  induction properties with
  | nil => simp [put]
  | cons first rest ih =>
      rw [List.map_cons, List.nodup_cons, List.mem_map, not_exists] at distinct
      rw [put]
      split
      case isTrue here =>
        have apart (later : other ∈ rest) : other.name ≠ property.name := fun same =>
          distinct.1 other ⟨later, same.trans here.symm⟩
        simp only [List.mem_cons]
        constructor
        · intro member
          rcases member with same | later
          · exact .inl same
          · exact .inr ⟨.inr later, apart later⟩
        · intro member
          rcases member with same | ⟨rfl | later, different⟩
          · exact .inl same
          · exact (different here).elim
          · exact .inr later
      case isFalse different =>
        rw [List.mem_cons, ih distinct.2, List.mem_cons]
        constructor
        · intro member
          rcases member with rfl | same | ⟨later, apart⟩
          · exact .inr ⟨.inl rfl, different⟩
          · exact .inl same
          · exact .inr ⟨.inr later, apart⟩
        · intro member
          rcases member with same | ⟨rfl | later, apart⟩
          · exact .inr (.inl same)
          · exact .inl rfl
          · exact .inr (.inr ⟨later, apart⟩)

/-- Where names are distinct, the first property of a name is the only one that is removed. -/
theorem erase_eq_filter {name : String} {properties : List Property}
    (distinct : (properties.map Property.name).Nodup) :
    erase name properties = properties.filter fun property => property.name ≠ name := by
  induction properties with
  | nil => rfl
  | cons first rest ih =>
      rw [List.map_cons, List.nodup_cons, List.mem_map, not_exists] at distinct
      rw [erase]
      split
      case isTrue here =>
        have others : ∀ property ∈ rest, property.name ≠ name := fun property later same =>
          distinct.1 property ⟨later, same.trans here.symm⟩
        rw [List.filter_cons_of_neg (by simpa using here), List.filter_eq_self.mpr (by simpa using others)]
      case isFalse different => rw [List.filter_cons_of_pos (by simpa using different), ih distinct.2]

end Property

namespace Record

theorem get?_put (record : Record) (name : String) (value : Value) (indexed : Bool) :
    (record.put name value indexed).get? name = some value := by
  have found := Property.find?_put ⟨name, value, indexed && !value.isUnindexable⟩ record.properties
  exact congrArg (Option.map Property.value) found

theorem get?_put_of_ne {name other : String} (different : name ≠ other) (record : Record)
    (value : Value) (indexed : Bool) :
    (record.put name value indexed).get? other = record.get? other :=
  congrArg (Option.map Property.value) (Property.find?_put_of_ne different record.properties)

variable {record : Record} {name : String}

/-- Where names are distinct, a record reads as the value of the one property of that name. -/
theorem get?_eq_some_iff {value : Value} (distinct : (record.properties.map Property.name).Nodup) :
    record.get? name = some value ↔ ∃ indexed, ⟨name, value, indexed⟩ ∈ record.properties := by
  rw [get?, Option.map_eq_some_iff]
  constructor
  · intro reads
    obtain ⟨property, found, rfl⟩ := reads
    obtain rfl : property.name = name := by simpa using List.find?_some found
    exact ⟨property.indexed, List.mem_of_find?_eq_some found⟩
  · intro there
    obtain ⟨indexed, member⟩ := there
    cases found : record.properties.find? fun property => property.name = name with
    | none => exact (List.find?_eq_none.mp found _ member (decide_eq_true rfl)).elim
    | some property =>
        have named : property.name = name := by simpa using List.find?_some found
        have same := List.inj_on_of_nodup_map distinct (List.mem_of_find?_eq_some found) member named
        exact ⟨property, rfl, congrArg Property.value same⟩

theorem has_iff : record.has name = true ↔ name ∈ record.properties.map Property.name := by
  simp only [has, List.any_eq_true, decide_eq_true_eq, List.mem_map]

theorem lacksIndex_iff :
    record.lacksIndex name = true ↔ ∃ value, ⟨name, value, false⟩ ∈ record.properties := by
  simp only [lacksIndex, List.any_eq_true, Bool.and_eq_true, decide_eq_true_eq, Bool.not_eq_true']
  constructor
  · intro there
    obtain ⟨⟨_, value, _⟩, member, rfl, rfl⟩ := there
    exact ⟨value, member⟩
  · intro there
    obtain ⟨value, member⟩ := there
    exact ⟨⟨name, value, false⟩, member, rfl, rfl⟩

theorem isEmpty_iff : record.isEmpty = true ↔ ∀ name, name ∉ record.properties.map Property.name := by
  rw [isEmpty, List.isEmpty_iff, ← List.map_eq_nil_iff, List.eq_nil_iff_forall_not_mem]

theorem rekey_eq_ok_iff {key : Key} {after : Record} :
    record.rekey key = .ok after ↔ key.kind = record.kind ∧ after = { record with key } := by
  rw [rekey]
  split
  case isTrue same => simp [same, eq_comm]
  case isFalse different => simp [different]

end Record

namespace Value

mutual

theorem same_self : (value : Value) → same value value = true
  | .null => rfl
  | .boolean _ | .integer _ | .text _ | .longText _ | .blob _ | .timestamp _ | .key _ => by
      simp only [same, BEq.rfl]
  | .float _ => by simp only [same, BEq.rfl, Bool.true_or]
  | .list items => by rw [same, sameItems_self items]

theorem sameItems_self : (items : List Value) → sameItems items items = true
  | [] => rfl
  | item :: rest => by rw [sameItems, same_self item, sameItems_self rest, Bool.and_self]

end

theorem eq_of_same_null {value : Value} (alike : same value .null) : value = .null := by
  cases value <;> simp_all [same]

theorem eq_of_same_key {value : Value} {key : Key} (alike : same value (.key key)) :
    value = .key key := by
  cases value <;> simp_all [same]

theorem eq_of_sameItems_keys {items : List Value} {keys : List Key}
    (alike : sameItems items (keys.map .key)) : items = keys.map .key := by
  induction keys generalizing items with
  | nil =>
      cases items with
      | nil => rfl
      | cons _ _ => simp [sameItems] at alike
  | cons key rest ih =>
      cases items with
      | nil => simp [sameItems] at alike
      | cons item others =>
          simp only [List.map_cons, sameItems, Bool.and_eq_true] at alike
          rw [List.map_cons, eq_of_same_key alike.1, ih alike.2]

theorem eq_of_same_ofKeys {value : Value} {keys : List Key} (alike : same value (ofKeys keys)) :
    value = ofKeys keys := by
  unfold ofKeys at alike ⊢
  cases value with
  | list items => exact congrArg list (eq_of_sameItems_keys alike)
  | _ => simp [same] at alike

end Value

end RecordMapping
