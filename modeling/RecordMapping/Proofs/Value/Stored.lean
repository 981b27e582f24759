import RecordMapping.Proofs.Value.Plain

/-!
# What is stored of a value

A stored value stands for a value of a field (`Value.fieldValue`). What `Conversion.stored` gives stands
for the value that it was given, without its wrappers, and only a text that is not part of a list is
ever stored as a long one (`Conversion.Images`). So storing loses nothing but wrappers. It fails only
for objects, be they the value itself or reached in it (`FieldValue.Reaches`).
-/

namespace RecordMapping

namespace Value

mutual

/-- The value of a field that a stored value stands for. -/
def fieldValue : Value → FieldValue
  | .null => .null
  | .boolean value => .bool value
  | .integer value => .int value
  | .float value => .float value
  | .text value => .text value
  | .longText value => .text value
  | .blob bytes => .bytes bytes
  | .timestamp value => .dateTime value
  | .key value => .key value
  | .list items => .list (fieldValues items)

/-- The values that the items of a list stand for. -/
def fieldValues : List Value → List FieldValue
  | [] => []
  | item :: rest => item.fieldValue :: fieldValues rest

end

mutual

/-- Whether a text in the value, at whatever depth, is a long one. -/
def holdsLongText : Value → Bool
  | .longText _ => true
  | .list items => anyHoldsLongText items
  | _ => false

/-- Whether a text in one of some values is a long one. -/
def anyHoldsLongText : List Value → Bool
  | [] => false
  | item :: rest => item.holdsLongText || anyHoldsLongText rest

end

variable {value : Value} {items : List Value}

theorem fieldValues_eq_map (items : List Value) : fieldValues items = items.map fieldValue := by
  induction items with
  | nil => rfl
  | cons item rest ih => rw [fieldValues, ih, List.map_cons]

theorem anyHoldsLongText_eq_false_iff :
    anyHoldsLongText items = false ↔ ∀ item ∈ items, item.holdsLongText = false := by
  induction items with
  | nil => simp [anyHoldsLongText]
  | cons item rest ih => rw [anyHoldsLongText, Bool.or_eq_false_iff, ih, List.forall_mem_cons]

theorem fieldValue_eq_text_iff {text : String} :
    value.fieldValue = .text text ↔ value = .text text ∨ value = .longText text := by
  cases value <;> simp [fieldValue]

theorem fieldValue_eq_list_iff {values : List FieldValue} :
    value.fieldValue = .list values ↔ ∃ items, value = .list items ∧ items.map fieldValue = values := by
  cases value <;> simp [fieldValue, fieldValues_eq_map]

end Value

namespace FieldValue

variable {value inner : FieldValue}

/-- The values that are reached through wrappers and the items of lists. -/
inductive Reaches : FieldValue → FieldValue → Prop where
  | here (value : FieldValue) : Reaches value value
  | unwrap {inner target : FieldValue} (within : Reaches inner target) :
      Reaches (.tracked inner) target
  | item {items : List FieldValue} {item target : FieldValue} (member : item ∈ items)
      (within : Reaches item target) : Reaches (.list items) target

/-- Whether the value can be one of a basic field, as far as its items are. -/
def isBasic : FieldValue → Bool
  | .object _ => false
  | .embedded _ => false
  | _ => true

/-- No stored value stands for a value in which an object is reached. -/
theorem Reaches.not_stands (reached : value.Reaches inner) (basic : inner.isBasic = false)
    (stored : Value) : value.plain ≠ stored.fieldValue := by
  induction reached generalizing stored with
  | here value =>
      cases value with
      | object _ => cases stored <;> simp [Value.fieldValue, plain]
      | embedded _ => cases stored <;> simp [Value.fieldValue, plain]
      | _ => contradiction
  | unwrap _ ih => exact ih basic stored
  | @item items item target member _ ih =>
      intro same
      rw [plain, plainItems_eq_map, eq_comm, Value.fieldValue_eq_list_iff] at same
      obtain ⟨storedItems, -, images⟩ := same
      have image : item.plain ∈ storedItems.map Value.fieldValue :=
        images ▸ List.mem_map_of_mem member
      obtain ⟨storedItem, -, same⟩ := List.mem_map.mp image
      exact ih basic storedItem same.symm

theorem reaches_of_bare : (value : FieldValue) → value.bare.Reaches inner → value.Reaches inner
  | .tracked wrapped, reached => .unwrap (reaches_of_bare wrapped reached)
  | .null, reached | .bool _, reached | .int _, reached | .float _, reached | .text _, reached
  | .bytes _, reached | .dateTime _, reached | .key _, reached | .object _, reached
  | .list _, reached | .embedded _, reached => reached

end FieldValue

namespace Conversion

/-! ## Items of lists -/

mutual

/-- The stored form of an item is the one value without long texts that stands for it. -/
theorem storedItem_eq_ok_iff (field : Field) :
    (value : FieldValue) → (stored : Value) → (storedItem field value = .ok stored ↔
      value.plain = stored.fieldValue ∧ stored.holdsLongText = false)
  | .null, stored | .bool _, stored | .int _, stored | .float _, stored | .text _, stored
  | .bytes _, stored | .dateTime _, stored | .key _, stored | .object _, stored
  | .embedded _, stored => by
      cases stored <;>
        simp [storedItem, Value.fieldValue, FieldValue.plain, Value.holdsLongText]
  | .tracked inner, stored => by
      rw [storedItem, FieldValue.plain, storedItem_eq_ok_iff field inner stored]
  | .list items, stored => by
      rw [storedItem, bind_eq_ok_iff, FieldValue.plain]
      simp only [storedItems_eq_ok_iff field items]
      cases stored <;>
        simp [Value.fieldValue, Value.holdsLongText, pure, Except.pure]

theorem storedItems_eq_ok_iff (field : Field) :
    (values : List FieldValue) → (stored : List Value) → (storedItems field values = .ok stored ↔
      FieldValue.plainItems values = Value.fieldValues stored ∧
        Value.anyHoldsLongText stored = false)
  | [], stored => by
      cases stored <;> simp [storedItems, Value.fieldValues, FieldValue.plainItems,
        Value.anyHoldsLongText]
  | value :: rest, stored => by
      simp only [storedItems, bind_eq_ok_iff, storedItem_eq_ok_iff field value,
        storedItems_eq_ok_iff field rest]
      cases stored with
      | nil => simp [Value.fieldValues, FieldValue.plainItems, pure, Except.pure]
      | cons first others =>
          simp only [Value.fieldValues, FieldValue.plainItems, Value.anyHoldsLongText,
            Bool.or_eq_false_iff, List.cons.injEq]
          constructor
          · intro parts
            obtain ⟨_, ⟨sameFirst, short⟩, _, ⟨sameRest, shortRest⟩, made⟩ := parts
            obtain ⟨rfl, rfl⟩ := List.cons.inj (Except.ok.inj made)
            exact ⟨⟨sameFirst, sameRest⟩, short, shortRest⟩
          · intro whole
            obtain ⟨⟨sameFirst, sameRest⟩, short, shortRest⟩ := whole
            exact ⟨first, ⟨sameFirst, short⟩, others, ⟨sameRest, shortRest⟩, rfl⟩

end

/-- The error for a value in which an object is reached. -/
def Refuses (field : Field) (value : FieldValue) (error : MappingError) : Prop :=
  ∃ inner, value.Reaches inner ∧ inner.isBasic = false ∧
    error = .unsupportedFieldType field.name (.notBasic inner.typeLabel)

mutual

theorem refuses_of_storedItem (field : Field) {error : MappingError} :
    (value : FieldValue) → storedItem field value = .error error → Refuses field value error
  | .null, failed | .bool _, failed | .int _, failed | .float _, failed | .text _, failed
  | .bytes _, failed | .dateTime _, failed | .key _, failed => by contradiction
  | .object target, failed =>
      ⟨.object target, .here _, rfl, (Except.error.inj failed).symm⟩
  | .embedded values, failed =>
      ⟨.embedded values, .here _, rfl, (Except.error.inj failed).symm⟩
  | .tracked wrapped, failed => by
      obtain ⟨inner, reached, refused⟩ := refuses_of_storedItem field wrapped failed
      exact ⟨inner, .unwrap reached, refused⟩
  | .list items, failed => by
      rw [storedItem, bind_eq_error_iff] at failed
      rcases failed with itemsFailed | ⟨_, -, impossible⟩
      · obtain ⟨item, member, inner, reached, refused⟩ :=
          refuses_of_storedItems field items itemsFailed
        exact ⟨inner, .item member reached, refused⟩
      · contradiction

theorem refuses_of_storedItems (field : Field) {error : MappingError} :
    (values : List FieldValue) → storedItems field values = .error error →
      ∃ value ∈ values, Refuses field value error
  | [], failed => by contradiction
  | value :: rest, failed => by
      simp only [storedItems, bind_eq_error_iff] at failed
      rcases failed with here | ⟨_, -, later | ⟨_, -, impossible⟩⟩
      · exact ⟨value, List.mem_cons_self, refuses_of_storedItem field value here⟩
      · obtain ⟨item, member, refused⟩ := refuses_of_storedItems field rest later
        exact ⟨item, List.mem_cons_of_mem value member, refused⟩
      · contradiction

end

/-! ## Whole values -/

variable {conversion : Conversion} {field : Field} {value : FieldValue} {stored : Value}

/-- Whether a stored value stands for a value of a field, with long texts in the right place. -/
structure Images (conversion : Conversion) (field : Field) (value : FieldValue) (stored : Value) :
    Prop where
  /-- What is stored stands for the value without its wrappers, whatever their depth. -/
  stands : value.plain = stored.fieldValue
  /-- A text is stored as a long one if its field is for large texts, or if it has more bytes than the
  index takes. -/
  long : ∀ text, stored = .longText text ↔ value.bare = .text text ∧
    (field.isLargeText = true ∨ conversion.textLimit.toNat < text.utf8ByteSize)
  /-- No text in a list is stored as a long one. -/
  short : ∀ items, stored = .list items → ∀ item ∈ items, item.holdsLongText = false

theorem images_of_text {text : String} (holds : value.bare = .text text) :
    conversion.Images field value stored ↔ conversion.storedText field text = stored := by
  have plain : value.plain = .text text := by
    rw [← value.plain_bare, holds]
    rfl
  unfold storedText
  constructor
  · intro images
    have stands := images.stands
    rw [plain, eq_comm, Value.fieldValue_eq_text_iff] at stands
    have long := images.long text
    rw [holds] at long
    split
    case isTrue large => exact (long.mpr ⟨rfl, large⟩).symm
    case isFalse small =>
      rcases stands with rfl | rfl
      · rfl
      · exact (small (long.mp rfl).2).elim
  · split
    case isTrue large =>
      intro same
      rw [← same]
      refine ⟨plain, fun other => ?_, nofun⟩
      rw [holds, Value.longText.injEq, FieldValue.text.injEq]
      exact ⟨fun same => ⟨same, same ▸ large⟩, And.left⟩
    case isFalse small =>
      intro same
      rw [← same]
      refine ⟨plain, fun other => ?_, nofun⟩
      rw [holds, FieldValue.text.injEq]
      exact ⟨nofun, fun ⟨same, large⟩ => (small (same ▸ large)).elim⟩

theorem images_of_not_text (other : ∀ text, value.bare ≠ .text text) :
    conversion.Images field value stored ↔
      value.bare.plain = stored.fieldValue ∧ stored.holdsLongText = false := by
  rw [value.plain_bare]
  constructor
  · intro images
    refine ⟨images.stands, ?_⟩
    cases stored with
    | longText text => exact (other text ((images.long text).mp rfl).1).elim
    | list items => exact Value.anyHoldsLongText_eq_false_iff.mpr (images.short items rfl)
    | _ => rfl
  · intro image
    obtain ⟨stands, short⟩ := image
    refine ⟨stands, fun text => ?_, fun items list => ?_⟩
    · refine ⟨fun long => ?_, fun ⟨holds, _⟩ => (other text holds).elim⟩
      rw [long] at short
      contradiction
    · rw [list] at short
      exact Value.anyHoldsLongText_eq_false_iff.mp short

/-- The stored form of a value is its image. -/
theorem stored_eq_ok_iff :
    conversion.stored field value = .ok stored ↔ conversion.Images field value stored := by
  unfold Conversion.stored
  split
  case h_1 text holds => rw [images_of_text holds, Except.ok.injEq]
  case h_2 other => rw [images_of_not_text other, storedItem_eq_ok_iff]

theorem refuses_of_stored {error : MappingError}
    (failed : conversion.stored field value = .error error) : Refuses field value error := by
  unfold Conversion.stored at failed
  split at failed
  · contradiction
  · obtain ⟨inner, reached, refused⟩ := refuses_of_storedItem field value.bare failed
    exact ⟨inner, FieldValue.reaches_of_bare value reached, refused⟩

/-- **Storing a value keeps all but its wrappers.** It fails exactly if an object is reached in the
value, and names the field then. Otherwise it gives the image of the value, so that two values of a
field that are stored alike differ in wrappers only. -/
theorem stored_keeps_value (conversion : Conversion) (field : Field) (value : FieldValue) :
    ((∃ error, conversion.stored field value = .error error) ↔
      ∃ inner, value.Reaches inner ∧ inner.isBasic = false) ∧
    (∀ error, conversion.stored field value = .error error →
      ∃ inner, value.Reaches inner ∧ inner.isBasic = false ∧
        error = .unsupportedFieldType field.name (.notBasic inner.typeLabel)) ∧
    (∀ stored, conversion.stored field value = .ok stored ↔
      conversion.Images field value stored) ∧
    (∀ other stored, conversion.stored field value = .ok stored →
      conversion.stored field other = .ok stored → value.plain = other.plain) := by
  refine ⟨⟨?reached, ?refused⟩, fun _ => refuses_of_stored, fun _ => stored_eq_ok_iff, ?alike⟩
  case reached =>
    intro fails
    obtain ⟨error, failed⟩ := fails
    obtain ⟨inner, reached, compound, -⟩ := refuses_of_stored failed
    exact ⟨inner, reached, compound⟩
  case refused =>
    intro holdsObject
    obtain ⟨inner, reached, compound⟩ := holdsObject
    cases done : conversion.stored field value with
    | error error => exact ⟨error, rfl⟩
    | ok stored => exact (reached.not_stands compound stored (stored_eq_ok_iff.mp done).stands).elim
  case alike =>
    intro other stored first second
    have stands := (stored_eq_ok_iff.mp first).stands
    rw [stands, (stored_eq_ok_iff.mp second).stands]

/-- A list of titles is stored alike whether it is tracked or its items are, and no text in it is a
long one, although the index takes only three bytes. A title that is an object is refused. -/
theorem stored_keeps_value_titles :
    let conversion : Conversion := { textLimit := 3 }
    let titles : Field := { name := "titles", type := .list }
    let tracked : FieldValue := .tracked (.list [.text "Dune", .null])
    let loose : FieldValue := .list [.tracked (.text "Dune"), .null]
    let objects : FieldValue := .list [.null, .tracked (.object ⟨⟨1⟩, "Book"⟩)]
    let stored : Value := .list [.text "Dune", .null]
    conversion.stored titles tracked = .ok stored ∧ conversion.Images titles tracked stored ∧
      tracked.plain = loose.plain ∧
      (∃ error, conversion.stored titles objects = .error error) ∧
      conversion.stored titles (.text "Dune") = .ok (.longText "Dune") := by
  intro conversion titles tracked loose objects stored
  have first : conversion.stored titles tracked = .ok stored := rfl
  have second : conversion.stored titles loose = .ok stored := rfl
  obtain ⟨-, -, images, alike⟩ := stored_keeps_value conversion titles tracked
  have reached : objects.Reaches (.object ⟨⟨1⟩, "Book"⟩) := .item (by simp) (.unwrap (.here _))
  have refused := (stored_keeps_value conversion titles objects).1.mpr ⟨_, reached, rfl⟩
  exact ⟨first, (images stored).mp first, alike loose stored first second, refused, rfl⟩

end Conversion

end RecordMapping
