import RecordMapping.Key.Token
import RecordMapping.Proofs.Bytes.Base64Url
import RecordMapping.Proofs.Bytes.Endian
import RecordMapping.Proofs.Key.WellFormed
import RecordMapping.Proofs.Text.Blank

/-!
# Tokens as a bijection

Each reader of the token format undoes its writer and accepts nothing else: it reads a value and
leaves a rest exactly when the bytes are the written value followed by the rest. The format is
thus prefix-free at every level, and a text is read as a key exactly when it is, blanks around it
apart, the token of that key.

Lengths and counts are written in eight bytes, so all this holds of keys whose lengths and counts
fit in eight bytes (`Key.Fits`); what is read always does.
-/

namespace RecordMapping

namespace Key.Token

/-- A text whose length in bytes fits in eight bytes. -/
def TextFits (text : String) : Prop :=
  text.utf8ByteSize < 2 ^ 64

instance (text : String) : Decidable (TextFits text) :=
  inferInstanceAs (Decidable (text.utf8ByteSize < 2 ^ 64))

/-- A level whose texts have lengths that fit in eight bytes. -/
structure SegmentFits (segment : Segment) : Prop where
  kind : TextFits segment.kind
  name : ∀ name, segment.identifier = some (.name name) → TextFits name

end Key.Token

/-- A key whose token can tell its lengths and counts. -/
structure Key.Fits (key : Key) : Prop where
  count : key.path.length < 2 ^ 64
  segments : ∀ segment ∈ key.path, Key.Token.SegmentFits segment

namespace Key.Token

variable {bytes rest : List UInt8}

theorem take_eq_ok_iff {count : Nat} {taken : List UInt8} :
    take count bytes = .ok (taken, rest) ↔ bytes = taken ++ rest ∧ taken.length = count := by
  unfold take
  split
  case isTrue short =>
    simp only [reduceCtorEq, false_iff, not_and]
    rintro rfl rfl
    rw [List.length_append] at short
    omega
  case isFalse long =>
    simp only [Except.ok.injEq, List.splitAt_eq, Prod.mk.injEq]
    constructor
    · rintro ⟨rfl, rfl⟩
      exact ⟨(List.take_append_drop count bytes).symm, List.length_take_of_le (by omega)⟩
    · rintro ⟨rfl, rfl⟩
      exact ⟨List.take_left, List.drop_left⟩

theorem takeByte_eq_ok_iff {byte : UInt8} :
    takeByte bytes = .ok (byte, rest) ↔ bytes = byte :: rest := by
  cases bytes <;> simp [takeByte]

theorem takeNumber_eq_ok_iff {number : Nat} :
    takeNumber bytes = .ok (number, rest) ↔
      bytes = Bytes.littleEndian 8 number ++ rest ∧ number < 2 ^ 64 := by
  rw [takeNumber, bind_eq_ok_iff]
  constructor
  · rintro ⟨⟨taken, left⟩, split, read⟩
    obtain ⟨rfl, length⟩ := take_eq_ok_iff.mp split
    obtain ⟨rfl, rfl⟩ := Prod.mk.inj (Except.ok.inj read)
    have bound := Bytes.ofLittleEndian_lt taken
    have written := Bytes.littleEndian_ofLittleEndian taken
    rw [length] at bound written
    exact ⟨by rw [written], bound⟩
  · rintro ⟨rfl, small⟩
    refine ⟨(Bytes.littleEndian 8 number, rest),
      take_eq_ok_iff.mpr ⟨rfl, Bytes.length_littleEndian 8 number⟩, ?_⟩
    simp only [Bytes.ofLittleEndian_littleEndian 8 number small]
    rfl

theorem fromUTF8?_eq_some_iff {text : String} :
    String.fromUTF8? ⟨bytes.toArray⟩ = some text ↔ bytes = text.toUTF8.data.toList := by
  unfold String.fromUTF8?
  constructor
  · intro read
    split at read
    case isFalse => contradiction
    obtain rfl := Option.some.inj read
    rfl
  · rintro rfl
    have whole : (⟨text.toUTF8.data.toList.toArray⟩ : ByteArray) = text.toUTF8 := by
      rw [Array.toArray_toList]
    rw [whole]
    exact dif_pos text.isValidUTF8

theorem takeText_eq_ok_iff {text : String} :
    takeText bytes = .ok (text, rest) ↔ bytes = textBytes text ++ rest ∧ TextFits text := by
  simp only [takeText, bind_eq_ok_iff, Prod.exists, takeNumber_eq_ok_iff, take_eq_ok_iff]
  constructor
  · rintro ⟨length, behind, ⟨rfl, small⟩, taken, left, ⟨rfl, rfl⟩, read⟩
    split at read
    case h_1 found decoded =>
      obtain ⟨rfl, rfl⟩ := Prod.mk.inj (Except.ok.inj read)
      obtain rfl := fromUTF8?_eq_some_iff.mp decoded
      exact ⟨by rw [textBytes, lengthBytes, List.append_assoc], small⟩
    case h_2 => contradiction
  · rintro ⟨rfl, small⟩
    refine ⟨text.toUTF8.data.toList.length, text.toUTF8.data.toList ++ rest,
      ⟨by rw [textBytes, lengthBytes, List.append_assoc], small⟩,
      text.toUTF8.data.toList, rest, ⟨rfl, rfl⟩, ?_⟩
    simp only [fromUTF8?_eq_some_iff.mpr rfl]
    rfl

theorem ofNat_toNat_toUInt64 (value : Int64) : Int64.ofNat value.toUInt64.toNat = value := by
  rw [← Int64.toBitVec_inj]
  simp

theorem takeIdentifier_eq_ok_iff {identifier : Option Identifier} :
    takeIdentifier bytes = .ok (identifier, rest) ↔
      bytes = identifierBytes identifier ++ rest ∧
        ∀ name, identifier = some (.name name) → TextFits name := by
  simp only [takeIdentifier, bind_eq_ok_iff, Prod.exists, takeByte_eq_ok_iff]
  constructor
  · rintro ⟨tag, behind, rfl, read⟩
    split at read
    case isTrue missing =>
      obtain ⟨rfl, rfl⟩ := Prod.mk.inj (Except.ok.inj read)
      exact ⟨by rw [missing]; rfl, by simp⟩
    split at read
    case isTrue numbered =>
      simp only [bind_eq_ok_iff, Prod.exists, takeNumber_eq_ok_iff] at read
      obtain ⟨number, left, ⟨rfl, small⟩, built⟩ := read
      obtain ⟨rfl, rfl⟩ := Prod.mk.inj (Except.ok.inj built)
      refine ⟨?_, by simp⟩
      rw [numbered, identifierBytes, Int64.toUInt64_ofNat', UInt64.toNat_ofNat_of_lt' small]
      rfl
    split at read
    case isTrue named =>
      simp only [bind_eq_ok_iff, Prod.exists, takeText_eq_ok_iff] at read
      obtain ⟨name, left, ⟨rfl, small⟩, built⟩ := read
      obtain ⟨rfl, rfl⟩ := Prod.mk.inj (Except.ok.inj built)
      refine ⟨by rw [named]; rfl, ?_⟩
      rintro _ ⟨⟩
      exact small
    case isFalse => contradiction
  · rintro ⟨rfl, small⟩
    rcases identifier with _ | value | name
    · exact ⟨0, rest, rfl, rfl⟩
    · refine ⟨1, Bytes.littleEndian 8 value.toUInt64.toNat ++ rest, rfl, ?_⟩
      have number : takeNumber (Bytes.littleEndian 8 value.toUInt64.toNat ++ rest) =
          .ok (value.toUInt64.toNat, rest) :=
        takeNumber_eq_ok_iff.mpr ⟨rfl, value.toUInt64.toNat_lt⟩
      refine bind_eq_ok_iff.mpr ⟨_, number, ?_⟩
      simp only [ofNat_toNat_toUInt64]
      rfl
    · refine ⟨2, textBytes name ++ rest, rfl, ?_⟩
      exact bind_eq_ok_iff.mpr ⟨_, takeText_eq_ok_iff.mpr ⟨rfl, small name rfl⟩, rfl⟩

/-- **Levels are read as they were written.** The induction is on the count of levels; each level
is read off the front and leaves the bytes of the others. -/
theorem takePath_eq_ok_iff {count : Nat} {path : List Segment} :
    takePath count bytes = .ok (path, rest) ↔
      bytes = path.flatMap segmentBytes ++ rest ∧ path.length = count ∧
        ∀ segment ∈ path, SegmentFits segment := by
  induction count generalizing bytes rest path with
  | zero =>
      simp only [takePath, Except.ok.injEq, Prod.mk.injEq, List.length_eq_zero_iff]
      constructor
      · rintro ⟨rfl, rfl⟩
        exact ⟨rfl, rfl, by simp⟩
      · rintro ⟨rfl, rfl, -⟩
        exact ⟨rfl, rfl⟩
  | succ count ih =>
      simp only [takePath, bind_eq_ok_iff, Prod.exists, takeText_eq_ok_iff,
        takeIdentifier_eq_ok_iff, ih]
      constructor
      · rintro ⟨kind, _, ⟨rfl, kindFits⟩, identifier, _, ⟨rfl, nameFits⟩, levels, behind,
          ⟨rfl, rfl, levelsFit⟩, built⟩
        obtain ⟨rfl, rfl⟩ := Prod.mk.inj (Except.ok.inj built)
        refine ⟨?_, rfl, List.forall_mem_cons.mpr ⟨⟨kindFits, nameFits⟩, levelsFit⟩⟩
        simp only [List.flatMap_cons, segmentBytes, List.append_assoc]
      · rintro ⟨rfl, length, fits⟩
        cases path with
        | nil => contradiction
        | cons first levels =>
            obtain ⟨firstFits, levelsFit⟩ := List.forall_mem_cons.mp fits
            refine ⟨first.kind, _, ⟨?_, firstFits.kind⟩, first.identifier, _,
              ⟨rfl, firstFits.name⟩, levels, rest, ⟨rfl, Nat.succ.inj length, levelsFit⟩, rfl⟩
            simp only [List.flatMap_cons, segmentBytes, List.append_assoc]

theorem pathOf_eq_ok_iff {path : List Segment} :
    pathOf bytes = .ok path ↔
      bytes = pathBytes path ∧ path.length < 2 ^ 64 ∧ ∀ segment ∈ path, SegmentFits segment := by
  simp only [pathOf, bind_eq_ok_iff, Prod.exists, takeByte_eq_ok_iff]
  constructor
  · rintro ⟨found, behind, rfl, read⟩
    split at read
    case isTrue foreign => contradiction
    case isFalse known =>
      rw [not_not] at known
      simp only [bind_eq_ok_iff, Prod.exists, takeNumber_eq_ok_iff, takePath_eq_ok_iff] at read
      obtain ⟨count, _, ⟨rfl, small⟩, levels, left, ⟨rfl, rfl, fits⟩, ended⟩ := read
      split at ended
      case isTrue nothing =>
        obtain rfl := List.isEmpty_iff.mp nothing
        obtain rfl := Except.ok.inj ended
        exact ⟨by rw [known, pathBytes, lengthBytes, List.append_nil], small, fits⟩
      case isFalse => contradiction
  · rintro ⟨rfl, small, fits⟩
    refine ⟨version, _, rfl, ?_⟩
    simp only [ne_eq, not_true_eq_false, ↓reduceIte, bind_eq_ok_iff, Prod.exists,
      takeNumber_eq_ok_iff, takePath_eq_ok_iff]
    exact ⟨path.length, _, ⟨rfl, small⟩, path, [], ⟨(List.append_nil _).symm, rfl, fits⟩, rfl⟩

/-- **Canonical tokens.** A text is read as a key exactly when the key is well formed, its lengths
and counts fit in eight bytes, and the text without the blanks around it is the key's token. -/
theorem read_eq_ok_iff {token : String} {key : Key} :
    read token = .ok key ↔
      Text.trimBlank token.toList = key.token.toList ∧ key.IsWellFormed ∧ key.Fits := by
  have spelled : key.token.toList = Bytes.Base64Url.encode (pathBytes key.path) :=
    String.toList_ofList
  rw [read, spelled]
  split
  case h_1 undecoded =>
    simp only [reduceCtorEq, false_iff, not_and]
    intro same
    rw [same, Bytes.Base64Url.decode?_encode] at undecoded
    contradiction
  case h_2 bytes decoded =>
    rw [Bytes.Base64Url.encode_of_decode? decoded]
    simp only [bind_eq_ok_iff, pathOf_eq_ok_iff, mapError_eq_ok_iff, Key.ofPath_eq_ok_iff]
    constructor
    · rintro ⟨path, ⟨rfl, small, fits⟩, rfl, wellFormed⟩
      exact ⟨rfl, wellFormed, small, fits⟩
    · rintro ⟨same, wellFormed, fits⟩
      have bytesEq : bytes = pathBytes key.path := by
        apply Option.some.inj
        rw [← Bytes.Base64Url.decode?_encode bytes, same, Bytes.Base64Url.decode?_encode]
      exact ⟨key.path, ⟨bytesEq, fits.count, fits.segments⟩, rfl, wellFormed⟩

end Key.Token

namespace Key

theorem ofToken_eq_ok_iff {text : String} {key : Key} :
    ofToken text = .ok key ↔
      Text.trimBlank text.toList = key.token.toList ∧ key.IsWellFormed ∧ key.Fits := by
  rw [ofToken, mapError_eq_ok_iff, Token.read_eq_ok_iff]

/-- A token has no blanks, so trimming leaves it as it is. -/
theorem trimBlank_token (key : Key) : Text.trimBlank key.token.toList = key.token.toList := by
  apply Text.trimBlank_eq_self
  intro c member
  rw [token, String.toList_ofList] at member
  exact Bytes.Base64Url.not_isBlank_of_mem_encode member

theorem ofToken_token {key : Key} (wellFormed : key.IsWellFormed) (fits : key.Fits) :
    ofToken key.token = .ok key :=
  ofToken_eq_ok_iff.mpr ⟨key.trimBlank_token, wellFormed, fits⟩

/-- A text that is no token is reported as a malformed key, whatever is wrong with it. -/
theorem ofToken_error {text : String} {error : MappingError} (failed : ofToken text = .error error) :
    ∃ fault, error = .malformedKey fault := by
  rw [ofToken, mapError_eq_error_iff] at failed
  obtain ⟨fault, -, rfl⟩ := failed
  exact ⟨fault, rfl⟩

/-- **Tokens are a bijection with the well-formed keys.** A text is read as a key exactly when,
blanks around it apart, it is the token of that key; every other text is malformed. So reading
undoes writing, writing undoes reading, and no two keys share a token. -/
theorem ofToken_canonical :
    (∀ (text : String) (key : Key), key.IsWellFormed → key.Fits →
      (ofToken text = .ok key ↔ Text.trimBlank text.toList = key.token.toList)) ∧
    (∀ text : String,
      (¬ ∃ key : Key, key.IsWellFormed ∧ key.Fits ∧
        Text.trimBlank text.toList = key.token.toList) →
      ∃ fault, ofToken text = .error (.malformedKey fault)) ∧
    (∀ key : Key, key.IsWellFormed → key.Fits → ofToken key.token = .ok key) ∧
    (∀ (text : String) (key : Key), ofToken text = .ok key →
      key.IsWellFormed ∧ key.Fits ∧ key.token.toList = Text.trimBlank text.toList) ∧
    (∀ first second : Key, first.IsWellFormed → first.Fits → second.IsWellFormed → second.Fits →
      first.token = second.token → first = second) := by
  refine ⟨?accepted, ?refused, ?decoded, ?encoded, ?distinct⟩
  case accepted =>
    intro text key wellFormed fits
    rw [ofToken_eq_ok_iff]
    exact ⟨fun read => read.1, fun same => ⟨same, wellFormed, fits⟩⟩
  case refused =>
    intro text foreign
    cases result : ofToken text with
    | ok key =>
        obtain ⟨same, wellFormed, fits⟩ := ofToken_eq_ok_iff.mp result
        exact (foreign ⟨key, wellFormed, fits, same⟩).elim
    | error error =>
        obtain ⟨fault, rfl⟩ := ofToken_error result
        exact ⟨fault, rfl⟩
  case decoded =>
    intro key wellFormed fits
    exact ofToken_token wellFormed fits
  case encoded =>
    intro text key read
    obtain ⟨same, wellFormed, fits⟩ := ofToken_eq_ok_iff.mp read
    exact ⟨wellFormed, fits, same.symm⟩
  case distinct =>
    intro first second firstWellFormed firstFits secondWellFormed secondFits same
    have firstRead := ofToken_token firstWellFormed firstFits
    rw [same, ofToken_token secondWellFormed secondFits] at firstRead
    exact (Except.ok.inj firstRead).symm

/-- A child without an identifier below a named parent is read back from its token, and the empty
text is malformed. -/
theorem ofToken_canonical_unassigned :
    let book : Key := ⟨[⟨"Library", .name "central"⟩], "Book", none⟩
    book.IsWellFormed ∧ book.Fits ∧ ofToken book.token = .ok book ∧
      ∃ fault, ofToken "" = .error (.malformedKey fault) := by
  intro book
  have wellFormed : book.IsWellFormed := by decide
  have fits : book.Fits := by
    refine ⟨by decide, List.forall_mem_cons.mpr ⟨⟨by decide, ?_⟩, List.forall_mem_cons.mpr
      ⟨⟨by decide, ?_⟩, by simp⟩⟩⟩
    · rintro _ ⟨⟩
      decide
    · rintro _ ⟨⟩
  have empty : ofToken "" = .error (.malformedKey .truncated) := by rfl
  refine ⟨wellFormed, fits, ofToken_canonical.2.2.1 book wellFormed fits,
    ofToken_canonical.2.1 "" ?_⟩
  rintro ⟨key, keyWellFormed, keyFits, same⟩
  rw [(ofToken_canonical.1 "" key keyWellFormed keyFits).mpr same] at empty
  contradiction

end Key

end RecordMapping
