import RecordMapping.Mapper.Conversion
import RecordMapping.Proofs.Key.TokenLength
import RecordMapping.Proofs.MessagePack.Lead
import RecordMapping.Proofs.Time.Reading
import RecordMapping.Proofs.Value.Plain

/-!
# Packed values told apart

Every part of a packed value tells where it ends, so that a value can be read off the front of any
bytes in at most one way (`encode_append_inj`): the name of its variant comes first, and the content
of a variant is a form that announces its length, or a count of items with the items behind it.
Texts are read back as what they stand for: a key from its token, a moment from its text. The text
takes a leap second within a minute for the second after it, so a value is told up to that only
(`FieldValue.written`).

MessagePack has no headers for texts, byte arrays and lists from 2^32 bytes or items on, so all this
holds of values in which there are none of these (`FieldValue.Fits`).
-/

namespace RecordMapping

/-- A value whose texts, key tokens, byte arrays and lists, at any depth, have headers. -/
inductive FieldValue.Fits : FieldValue → Prop where
  | null : Fits .null
  | bool (value : Bool) : Fits (.bool value)
  | int (value : Int64) : Fits (.int value)
  | float (value : Binary64) : Fits (.float value)
  | text {value : String} (short : value.utf8ByteSize < 2 ^ 32) : Fits (.text value)
  | bytes {value : List UInt8} (short : value.length < 2 ^ 32) : Fits (.bytes value)
  | dateTime (value : Timestamp) : Fits (.dateTime value)
  | key {value : Key} (short : value.token.utf8ByteSize < 2 ^ 32) : Fits (.key value)
  | tracked {inner : FieldValue} (inside : Fits inner) : Fits (.tracked inner)
  | list {items : List FieldValue} (short : items.length < 2 ^ 32)
      (inside : ∀ item ∈ items, Fits item) : Fits (.list items)
  | object {target : Reference} (short : target.className.utf8ByteSize < 2 ^ 32) :
      Fits (.object target)
  | embedded {values : List FieldValue} (short : values.length < 2 ^ 32)
      (inside : ∀ value ∈ values, Fits value) : Fits (.embedded values)

theorem FieldValue.Fits.bare {value : FieldValue} (fits : value.Fits) : value.bare.Fits := by
  induction fits with
  | tracked _ ih => exact ih
  | null => exact .null
  | bool value => exact .bool value
  | int value => exact .int value
  | float value => exact .float value
  | text short => exact .text short
  | bytes short => exact .bytes short
  | dateTime value => exact .dateTime value
  | key short => exact .key short
  | list short inside => exact .list short inside
  | object short => exact .object short
  | embedded short inside => exact .embedded short inside

namespace FieldValue

/-! ## Moments in values -/

mutual

/-- The moments in a value, at any depth. -/
def moments : FieldValue → List Timestamp
  | .dateTime value => [value]
  | .tracked inner => inner.moments
  | .list items => itemMoments items
  | .embedded values => itemMoments values
  | _ => []

/-- The moments in the values of a list. -/
def itemMoments : List FieldValue → List Timestamp
  | [] => []
  | item :: rest => item.moments ++ itemMoments rest

end

mutual

/-- The value with each of its moments, at any depth, as it is read from the text. -/
def written : FieldValue → FieldValue
  | .dateTime value => .dateTime value.written
  | .tracked inner => .tracked inner.written
  | .list items => .list (writtenItems items)
  | .embedded values => .embedded (writtenItems values)
  | value => value

/-- The values of a list with their moments as they are read from the texts. -/
def writtenItems : List FieldValue → List FieldValue
  | [] => []
  | item :: rest => item.written :: writtenItems rest

end

theorem writtenItems_eq_map (items : List FieldValue) : writtenItems items = items.map written := by
  induction items with
  | nil => rfl
  | cons item rest ih => rw [writtenItems, ih, List.map_cons]

mutual

/-- Without a leap second within a minute, a value is read back as it is. -/
theorem written_of_leapEndsMinute : (value : FieldValue) →
    (∀ moment ∈ value.moments, moment.LeapEndsMinute) → value.written = value
  | .null, _ | .bool _, _ | .int _, _ | .float _, _ | .text _, _ | .bytes _, _ | .key _, _
  | .object _, _ => rfl
  | .dateTime value, leap => by
      rw [written, Timestamp.written_of_leapEndsMinute (leap value List.mem_cons_self)]
  | .tracked inner, leap => by rw [written, written_of_leapEndsMinute inner leap]
  | .list items, leap => by rw [written, writtenItems_of_leapEndsMinute items leap]
  | .embedded values, leap => by rw [written, writtenItems_of_leapEndsMinute values leap]

theorem writtenItems_of_leapEndsMinute : (items : List FieldValue) →
    (∀ moment ∈ itemMoments items, moment.LeapEndsMinute) → writtenItems items = items
  | [], _ => rfl
  | item :: rest, leap => by
      obtain ⟨here, others⟩ := List.forall_mem_append.mp leap
      rw [writtenItems, written_of_leapEndsMinute item here,
        writtenItems_of_leapEndsMinute rest others]

end

theorem moments_bare (value : FieldValue) : value.bare.moments = value.moments := by
  match value with
  | .tracked inner => exact inner.moments_bare
  | .null | .bool _ | .int _ | .float _ | .text _ | .bytes _ | .dateTime _ | .key _ | .object _
  | .list _ | .embedded _ => rfl

theorem isNull_written (value : FieldValue) : value.written.isNull = value.isNull := by
  cases value <;> rfl

end FieldValue

namespace MessagePack

variable {rest otherRest : List UInt8}

/-! ## Texts and numbers -/

theorem eq_of_utf8 {first second : String}
    (same : first.toUTF8.data.toList = second.toUTF8.data.toList) : first = second := by
  apply String.toByteArray_inj.mp
  apply ByteArray.ext
  exact Array.toList_inj.mp same

theorem text_append_inj {first second : String} (short : first.utf8ByteSize < 2 ^ 32)
    (otherShort : second.utf8ByteSize < 2 ^ 32)
    (same : text first ++ rest = text second ++ otherRest) : first = second ∧ rest = otherRest := by
  simp only [text, List.append_assoc] at same
  obtain ⟨lengths, contents⟩ :=
    (textHeader_announces short).append_inj (textHeader_announces otherShort) same
  obtain ⟨bytes, rests⟩ := List.append_inj contents lengths
  exact ⟨eq_of_utf8 bytes, rests⟩

theorem bool_append_inj {first second : Bool}
    (same : [if first then (0xC3 : UInt8) else 0xC2] ++ rest =
      [if second then 0xC3 else 0xC2] ++ otherRest) : first = second ∧ rest = otherRest := by
  obtain ⟨bytes, rests⟩ := List.append_inj same rfl
  refine ⟨?_, rests⟩
  cases first <;> cases second <;> first | rfl | exact absurd bytes (by decide)

theorem signed_append_inj {first second : Int64}
    (same : signed first ++ rest = signed second ++ otherRest) :
    first = second ∧ rest = otherRest := by
  obtain ⟨numbers, rests⟩ := (signed_announces first).append_inj (signed_announces second) same
  exact ⟨Int64.toInt_inj.mp numbers, rests⟩

theorem float_announces (value : Binary64) :
    Announces (readCount 0) (float value) value.bits.toNat :=
  announces_long 0xCB (readCount_bigEndian (by decide) value.bits.toNat_lt)

theorem float_append_inj {first second : Binary64}
    (same : float first ++ rest = float second ++ otherRest) :
    first = second ∧ rest = otherRest := by
  obtain ⟨bits, rests⟩ := (float_announces first).append_inj (float_announces second) same
  exact ⟨congrArg Binary64.mk (UInt64.toNat_inj.mp bits), rests⟩

theorem byte_append_inj {first second : UInt8}
    (same : unsigned first.toNat ++ rest = unsigned second.toNat ++ otherRest) :
    first = second ∧ rest = otherRest := by
  have bound := first.toNat_lt
  have otherBound := second.toNat_lt
  obtain ⟨numbers, rests⟩ :=
    (unsigned_announces (by omega)).append_inj (unsigned_announces (by omega)) same
  exact ⟨UInt8.toNat_inj.mp (Int.ofNat_inj.mp numbers), rests⟩

/-! ## Items -/

/-- Items that tell themselves, or a view of them, from what follows them do so together, once their
count is known. -/
theorem flatMap_append_inj {α β : Type} {write : α → List UInt8} (view : α → β)
    {first second : List α}
    (told : ∀ a ∈ first, ∀ b ∈ second, ∀ rest otherRest,
      write a ++ rest = write b ++ otherRest → view a = view b ∧ rest = otherRest)
    (counts : first.length = second.length)
    (same : first.flatMap write ++ rest = second.flatMap write ++ otherRest) :
    first.map view = second.map view ∧ rest = otherRest := by
  induction first generalizing second with
  | nil =>
      obtain rfl := List.length_eq_zero_iff.mp counts.symm
      exact ⟨rfl, same⟩
  | cons a items ih =>
      obtain ⟨b, others, rfl⟩ := List.exists_cons_of_length_eq_add_one counts.symm
      simp only [List.flatMap_cons, List.append_assoc] at same
      obtain ⟨views, behind⟩ := told a List.mem_cons_self b List.mem_cons_self _ _ same
      obtain ⟨otherViews, rests⟩ := ih
        (fun a member b otherMember =>
          told a (List.mem_cons_of_mem _ member) b (List.mem_cons_of_mem _ otherMember))
        (Nat.succ.inj counts) behind
      rw [List.map_cons, List.map_cons, views, otherViews]
      exact ⟨rfl, rests⟩

theorem array_append_inj {α β : Type} {write : α → List UInt8} (view : α → β)
    {first second : List α}
    (told : ∀ a ∈ first, ∀ b ∈ second, ∀ rest otherRest,
      write a ++ rest = write b ++ otherRest → view a = view b ∧ rest = otherRest)
    (short : first.length < 2 ^ 32) (otherShort : second.length < 2 ^ 32)
    (same : arrayHeader first.length ++ first.flatMap write ++ rest =
      arrayHeader second.length ++ second.flatMap write ++ otherRest) :
    first.map view = second.map view ∧ rest = otherRest := by
  simp only [List.append_assoc] at same
  obtain ⟨counts, items⟩ :=
    (arrayHeader_announces short).append_inj (arrayHeader_announces otherShort) same
  exact flatMap_append_inj view told counts items

theorem encodeItems_eq_flatMap (items : List FieldValue) :
    encodeItems items = items.flatMap encode := by
  induction items with
  | nil => rfl
  | cons item rest ih => rw [encodeItems, List.flatMap_cons, ih]

/-! ## References -/

theorem identity_append_inj {first second : Identity}
    (same : identity first ++ rest = identity second ++ otherRest) :
    first = second ∧ rest = otherRest := by
  simp only [identity, List.cons_append, List.cons.injEq, true_and] at same
  obtain ⟨bytes, rests⟩ := List.append_inj same
    ((Bytes.length_bigEndian _ _).trans (Bytes.length_bigEndian _ _).symm)
  have small (id : Identity) : id.bits.toNat < 256 ^ 16 := id.bits.isLt
  have numbers := congrArg (fun bytes => Bytes.ofLittleEndian bytes.reverse) bytes
  simp only [Bytes.ofLittleEndian_reverse_bigEndian] at numbers
  rw [Nat.mod_eq_of_lt (small first), Nat.mod_eq_of_lt (small second)] at numbers
  exact ⟨congrArg Identity.mk (BitVec.eq_of_toNat_eq numbers), rests⟩

theorem object_append_inj {first second : Reference} (short : first.className.utf8ByteSize < 2 ^ 32)
    (otherShort : second.className.utf8ByteSize < 2 ^ 32)
    (same : object first ++ rest = object second ++ otherRest) :
    first = second ∧ rest = otherRest := by
  simp only [object, List.append_assoc] at same
  obtain ⟨ids, behind⟩ :=
    identity_append_inj (List.append_cancel_left (List.append_cancel_left same))
  obtain ⟨classNames, rests⟩ :=
    text_append_inj short otherShort (List.append_cancel_left behind)
  rw [Reference.mk.injEq]
  exact ⟨⟨ids, classNames⟩, rests⟩

/-! ## Moments and keys -/

/-- The text of a moment is short whatever the moment. -/
theorem dateTime_append_inj {first second : Timestamp}
    (same : text (first.text "Z") ++ rest = text (second.text "Z") ++ otherRest) :
    first.written = second.written ∧ rest = otherRest := by
  have short (moment : Timestamp) : (moment.text "Z").utf8ByteSize < 2 ^ 32 := by
    have length := moment.length_text_le
    have size := (utf8ByteSize_bounds (moment.text "Z").toList).2
    rw [String.ofList_toList] at size
    omega
  obtain ⟨texts, rests⟩ := text_append_inj (short first) (short second) same
  exact ⟨Timestamp.text_eq_iff.mp texts, rests⟩

theorem key_append_inj {first second : Key} (short : first.token.utf8ByteSize < 2 ^ 32)
    (otherShort : second.token.utf8ByteSize < 2 ^ 32)
    (same : text first.token ++ rest = text second.token ++ otherRest) :
    first = second ∧ rest = otherRest := by
  obtain ⟨tokens, rests⟩ := text_append_inj short otherShort same
  exact ⟨Key.token_inj (Key.fits_of_token (by omega)) (Key.fits_of_token (by omega)) tokens, rests⟩

/-! ## Variants -/

/-- The name that a value's bytes start with. -/
def variantName : FieldValue → String
  | .null => "Null"
  | .bool _ => "Bool"
  | .int _ => "Int"
  | .float _ => "Float"
  | .text _ => "Text"
  | .bytes _ => "Bytes"
  | .dateTime _ => "DateTime"
  | .key _ => "Key"
  | .tracked _ => "Tracked"
  | .list _ => "List"
  | .object _ => "Object"
  | .embedded _ => "Embedded"

/-- What comes behind the name. -/
def content : FieldValue → List UInt8
  | .null => []
  | .bool value => [if value then 0xC3 else 0xC2]
  | .int value => signed value
  | .float value => float value
  | .text value => text value
  | .bytes value => arrayHeader value.length ++ value.flatMap fun byte => unsigned byte.toNat
  | .dateTime value => text (value.text "Z")
  | .key value => text value.token
  | .tracked inner => encode inner
  | .list items => arrayHeader items.length ++ items.flatMap encode
  | .object value => object value
  | .embedded values => arrayHeader values.length ++ values.flatMap encode

theorem encode_eq (value : FieldValue) :
    encode value = (if value.isNull then [] else mapHeader 1) ++ text (variantName value) ++
      content value := by
  cases value <;>
    simp [encode, variant, variantName, content, FieldValue.isNull, encodeItems_eq_flatMap]

/-- A variant is a map, and null is a text. -/
theorem head?_encode (value : FieldValue) :
    (encode value).head? = some (if value.isNull then 0xA4 else 0x81) := by
  rw [encode_eq]
  cases value <;> rfl

/-- Pairs of values of one variant. -/
inductive SameVariant : FieldValue → FieldValue → Prop where
  | null : SameVariant .null .null
  | bool (a b : Bool) : SameVariant (.bool a) (.bool b)
  | int (a b : Int64) : SameVariant (.int a) (.int b)
  | float (a b : Binary64) : SameVariant (.float a) (.float b)
  | text (a b : String) : SameVariant (.text a) (.text b)
  | bytes (a b : List UInt8) : SameVariant (.bytes a) (.bytes b)
  | dateTime (a b : Timestamp) : SameVariant (.dateTime a) (.dateTime b)
  | key (a b : Key) : SameVariant (.key a) (.key b)
  | tracked (a b : FieldValue) : SameVariant (.tracked a) (.tracked b)
  | list (a b : List FieldValue) : SameVariant (.list a) (.list b)
  | object (a b : Reference) : SameVariant (.object a) (.object b)
  | embedded (a b : List FieldValue) : SameVariant (.embedded a) (.embedded b)

variable {first second : FieldValue}

theorem sameVariant_of_name (same : variantName first = variantName second) :
    SameVariant first second := by
  cases first <;> cases second <;> first | constructor | simp [variantName] at same

theorem length_variantName (value : FieldValue) : (variantName value).utf8ByteSize < 2 ^ 32 := by
  cases value <;> simp only [variantName] <;> decide

theorem variant_append_inj (same : encode first ++ rest = encode second ++ otherRest) :
    SameVariant first second ∧ content first ++ rest = content second ++ otherRest := by
  have heads := congrArg List.head? same
  rw [List.head?_append, List.head?_append, head?_encode, head?_encode] at heads
  have nulls : first.isNull = second.isNull := by
    revert heads
    cases first.isNull <;> cases second.isNull <;> simp
  rw [encode_eq, encode_eq, nulls] at same
  simp only [List.append_assoc] at same
  obtain ⟨names, contents⟩ := text_append_inj (length_variantName first)
    (length_variantName second) (List.append_cancel_left same)
  exact ⟨sameVariant_of_name names, contents⟩

/-! ## Values -/

mutual

/-- A value and what is read back of it have the same bytes. -/
theorem encode_written : (value : FieldValue) → encode value.written = encode value
  | .null | .bool _ | .int _ | .float _ | .text _ | .bytes _ | .key _ | .object _ => rfl
  | .dateTime value => by
      rw [FieldValue.written, encode, encode, Timestamp.text_written]
  | .tracked inner => by rw [FieldValue.written, encode, encode, encode_written inner]
  | .list items => by
      rw [FieldValue.written, encode, encode, encodeItems_written items,
        FieldValue.writtenItems_eq_map, List.length_map]
  | .embedded values => by
      rw [FieldValue.written, encode, encode, encodeItems_written values,
        FieldValue.writtenItems_eq_map, List.length_map]

theorem encodeItems_written : (items : List FieldValue) →
    encodeItems (FieldValue.writtenItems items) = encodeItems items
  | [] => rfl
  | item :: rest => by
      rw [FieldValue.writtenItems, encodeItems, encodeItems, encode_written item,
        encodeItems_written rest]

end

/-- **A packed value is told from what follows it.** The induction is on the first value; the second
has the same variant, and its parts fit as those of the first do. -/
theorem encode_append_inj (fits : first.Fits) (otherFits : second.Fits)
    (same : encode first ++ rest = encode second ++ otherRest) :
    first.written = second.written ∧ rest = otherRest := by
  induction fits generalizing second rest otherRest with
  | null =>
      obtain ⟨⟨⟩, rests⟩ := variant_append_inj same
      exact ⟨rfl, rests⟩
  | bool value =>
      obtain ⟨⟨⟩, contents⟩ := variant_append_inj same
      obtain ⟨rfl, rests⟩ := bool_append_inj contents
      exact ⟨rfl, rests⟩
  | int value =>
      obtain ⟨⟨⟩, contents⟩ := variant_append_inj same
      obtain ⟨rfl, rests⟩ := signed_append_inj contents
      exact ⟨rfl, rests⟩
  | float value =>
      obtain ⟨⟨⟩, contents⟩ := variant_append_inj same
      obtain ⟨rfl, rests⟩ := float_append_inj contents
      exact ⟨rfl, rests⟩
  | text short =>
      obtain ⟨⟨⟩, contents⟩ := variant_append_inj same
      cases otherFits with | text otherShort
      obtain ⟨rfl, rests⟩ := text_append_inj short otherShort contents
      exact ⟨rfl, rests⟩
  | bytes short =>
      obtain ⟨⟨⟩, contents⟩ := variant_append_inj same
      cases otherFits with | bytes otherShort
      obtain ⟨bytes, rests⟩ :=
        array_append_inj id (fun _ _ _ _ _ _ => byte_append_inj) short otherShort contents
      rw [List.map_id, List.map_id] at bytes
      rw [bytes]
      exact ⟨rfl, rests⟩
  | dateTime value =>
      obtain ⟨⟨⟩, contents⟩ := variant_append_inj same
      obtain ⟨moments, rests⟩ := dateTime_append_inj contents
      exact ⟨congrArg FieldValue.dateTime moments, rests⟩
  | key short =>
      obtain ⟨⟨⟩, contents⟩ := variant_append_inj same
      cases otherFits with | key otherShort
      obtain ⟨rfl, rests⟩ := key_append_inj short otherShort contents
      exact ⟨rfl, rests⟩
  | tracked inside ih =>
      obtain ⟨⟨⟩, contents⟩ := variant_append_inj same
      cases otherFits with | tracked otherInside
      obtain ⟨inner, rests⟩ := ih otherInside contents
      exact ⟨congrArg FieldValue.tracked inner, rests⟩
  | list short inside ih =>
      obtain ⟨⟨⟩, contents⟩ := variant_append_inj same
      cases otherFits with | list otherShort otherInside
      obtain ⟨items, rests⟩ := array_append_inj FieldValue.written
        (fun a member b otherMember _ _ => ih a member (otherInside b otherMember))
        short otherShort contents
      rw [← FieldValue.writtenItems_eq_map, ← FieldValue.writtenItems_eq_map] at items
      exact ⟨congrArg FieldValue.list items, rests⟩
  | object short =>
      obtain ⟨⟨⟩, contents⟩ := variant_append_inj same
      cases otherFits with | object otherShort
      obtain ⟨rfl, rests⟩ := object_append_inj short otherShort contents
      exact ⟨rfl, rests⟩
  | embedded short inside ih =>
      obtain ⟨⟨⟩, contents⟩ := variant_append_inj same
      cases otherFits with | embedded otherShort otherInside
      obtain ⟨values, rests⟩ := array_append_inj FieldValue.written
        (fun a member b otherMember _ _ => ih a member (otherInside b otherMember))
        short otherShort contents
      rw [← FieldValue.writtenItems_eq_map, ← FieldValue.writtenItems_eq_map] at values
      exact ⟨congrArg FieldValue.embedded values, rests⟩

/-- Packed values have the same bytes, or the one begins the other, only if the same value is read
back of both. -/
theorem written_eq_of_prefix (fits : first.Fits) (otherFits : second.Fits)
    (front : encode first <+: encode second) : first.written = second.written := by
  obtain ⟨rest, same⟩ := front
  have extended : encode first ++ rest = encode second ++ [] := by rw [same, List.append_nil]
  exact (encode_append_inj fits otherFits extended).1

theorem encode_eq_of_written (same : first.written = second.written) :
    encode first = encode second := by
  rw [← encode_written first, same, encode_written]

end MessagePack

namespace Conversion

/-- The library's own packing always succeeds. -/
theorem packed_default (textLimit : UInt64) (field : Field) (value : FieldValue) :
    ({ textLimit } : Conversion).packed field value =
      .ok (if value.bare.isNull then .null else .blob (MessagePack.encode value.bare)) := by
  unfold packed
  cases value.bare <;> rfl

/-- Values are packed to the same stored value if and only if the same value is read back of what is
inside their outer wrappers. -/
theorem packed_eq_iff {first second : FieldValue} (textLimit : UInt64) (field : Field)
    (fits : first.Fits) (otherFits : second.Fits) :
    ({ textLimit } : Conversion).packed field first =
        ({ textLimit } : Conversion).packed field second ↔
      first.bare.written = second.bare.written := by
  rw [packed_default, packed_default, Except.ok.injEq]
  constructor
  · intro same
    split at same <;> split at same
    case isTrue.isTrue isNull otherIsNull =>
      rw [FieldValue.isNull_iff.mp isNull, FieldValue.isNull_iff.mp otherIsNull]
    case isFalse.isFalse =>
      have front : MessagePack.encode first.bare <+: MessagePack.encode second.bare :=
        ⟨[], by rw [List.append_nil, Value.blob.inj same]⟩
      exact MessagePack.written_eq_of_prefix fits.bare otherFits.bare front
    all_goals contradiction
  · intro same
    have nulls : first.bare.isNull = second.bare.isNull := by
      rw [← first.bare.isNull_written, same, FieldValue.isNull_written]
    rw [nulls, MessagePack.encode_eq_of_written same]

/-- **Packing loses nothing but the outer wrappers and leap seconds within minutes.** Values are
packed to the same stored value if and only if they are the same inside their outer wrappers, up to
moments in a leap second that ends no minute: the text takes these for moments in the second after
it. No packed value is a proper front of another one, so that a blob can be read as at most one
value up to that. Values with no such moment are the same outright. -/
theorem packed_inj (textLimit : UInt64) (field : Field) {first second : FieldValue}
    (fits : first.Fits) (otherFits : second.Fits) :
    let conversion : Conversion := { textLimit }
    (∀ stored, conversion.packed field first = .ok stored →
      (conversion.packed field second = .ok stored ↔
        first.bare.written = second.bare.written)) ∧
      (MessagePack.encode first <+: MessagePack.encode second ↔
        MessagePack.encode first = MessagePack.encode second) ∧
      (MessagePack.encode first = MessagePack.encode second ↔ first.written = second.written) ∧
      ((∀ moment ∈ first.moments ++ second.moments, moment.LeapEndsMinute) →
        (∀ stored, conversion.packed field first = .ok stored →
          conversion.packed field second = .ok stored → first.bare = second.bare) ∧
          (MessagePack.encode first <+: MessagePack.encode second → first = second)) := by
  intro conversion
  have told (front : MessagePack.encode first <+: MessagePack.encode second) :
      first.written = second.written := MessagePack.written_eq_of_prefix fits otherFits front
  have bytes (same : first.written = second.written) :
      MessagePack.encode first = MessagePack.encode second := MessagePack.encode_eq_of_written same
  have stores := packed_eq_iff textLimit field fits otherFits
  refine ⟨fun stored packed => ?_, ⟨fun front => bytes (told front), fun same => ?_⟩,
    ⟨fun same => ?_, bytes⟩, fun leap => ?_⟩
  · rw [← stores, ← packed]
    exact eq_comm
  · exact same ▸ List.prefix_refl _
  · exact told (same ▸ List.prefix_refl _)
  · obtain ⟨leaps, otherLeaps⟩ := List.forall_mem_append.mp leap
    constructor
    · intro stored packed otherPacked
      have same := stores.mp (packed.trans otherPacked.symm)
      rwa [FieldValue.written_of_leapEndsMinute _ (first.moments_bare ▸ leaps),
        FieldValue.written_of_leapEndsMinute _ (second.moments_bare ▸ otherLeaps)] at same
    · intro front
      have same := told front
      rwa [FieldValue.written_of_leapEndsMinute _ leaps,
        FieldValue.written_of_leapEndsMinute _ otherLeaps] at same

/-- What a field may hold, with wrappers outside and inside, and a moment in the leap second that
ended the year 2016. -/
def loan : FieldValue :=
  .tracked (.embedded [.text "central", .key ⟨[], "Book", some (.id 5)⟩,
    .dateTime ⟨1483228799, 1500000000, by decide, by decide, by decide⟩,
    .list [.tracked .null, .object ⟨.ofSerial 1, "Reader"⟩]])

theorem fits_loan : loan.Fits := by
  have items (item : FieldValue)
      (member : item ∈ [.tracked .null, .object ⟨.ofSerial 1, "Reader"⟩]) : item.Fits := by
    simp only [List.mem_cons, List.not_mem_nil, or_false] at member
    rcases member with rfl | rfl
    · exact .tracked .null
    · exact .object (by decide)
  refine .tracked (.embedded (by decide) fun value member => ?_)
  simp only [List.mem_cons, List.not_mem_nil, or_false] at member
  rcases member with rfl | rfl | rfl | rfl
  · exact .text (by decide)
  · exact .key (by decide)
  · exact .dateTime _
  · exact .list (by decide) items

theorem packed_inj_loan :
    let field : Field := { name := "loan", type := .object "Loan", isPacked := true }
    let conversion : Conversion := { textLimit := 1500 }
    (conversion.packed field (.tracked loan) = .ok (.blob (MessagePack.encode loan.bare)) ∧
      conversion.packed field loan = .ok (.blob (MessagePack.encode loan.bare)) ∧
      (FieldValue.tracked loan).bare = loan.bare) ∧
      ¬ MessagePack.encode loan <+: MessagePack.encode (.tracked loan) := by
  intro field conversion
  have fits := fits_loan
  have wrapped := FieldValue.Fits.tracked fits_loan
  have leaps : ∀ moment ∈ (FieldValue.tracked loan).moments ++ loan.moments,
      moment.LeapEndsMinute := by decide
  have otherLeaps : ∀ moment ∈ loan.moments ++ (FieldValue.tracked loan).moments,
      moment.LeapEndsMinute := by decide
  have sameInside := ((packed_inj 1500 field wrapped fits).2.2.2 leaps).1 _ rfl rfl
  refine ⟨⟨rfl, rfl, sameInside⟩, fun front => ?_⟩
  have once := ((packed_inj 1500 field fits wrapped).2.2.2 otherLeaps).2 front
  exact FieldValue.noConfusion (FieldValue.tracked.inj once)

/-- Packing can lose more than the outer wrappers: a moment in a leap second after second 30 and one
in second 31 have the same text. -/
theorem not_packed_inj_within_minute :
    let leap : Timestamp := ⟨30, 1500000000, by decide, by decide, by decide⟩
    let next : Timestamp := ⟨31, 500000000, by decide, by decide, by decide⟩
    let field : Field := { name := "due", type := .dateTime, isPacked := true }
    let conversion : Conversion := { textLimit := 1500 }
    (FieldValue.dateTime leap).Fits ∧ (FieldValue.dateTime next).Fits ∧
      (∃ stored, conversion.packed field (.dateTime leap) = .ok stored ∧
        conversion.packed field (.dateTime next) = .ok stored) ∧
      (FieldValue.dateTime leap).bare ≠ (FieldValue.dateTime next).bare := by
  intro leap next field conversion
  have written : leap.written = next.written := by decide
  have same : MessagePack.encode (.dateTime leap) = MessagePack.encode (.dateTime next) :=
    MessagePack.encode_eq_of_written (congrArg FieldValue.dateTime written)
  refine ⟨.dateTime leap, .dateTime next, ⟨_, rfl, ?_⟩, ?_⟩
  · exact congrArg (fun bytes => Except.ok (Value.blob bytes)) same.symm
  · intro equal
    have seconds : (30 : Int) = 31 := congrArg Timestamp.seconds (FieldValue.dateTime.inj equal)
    contradiction

end Conversion

end RecordMapping
