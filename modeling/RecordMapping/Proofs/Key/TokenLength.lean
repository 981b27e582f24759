import RecordMapping.Proofs.Key.Token

/-!
# The length of a token

A token is at least as long as each text in it, and has more than one character for each level. So
the lengths and counts of a key fit in eight bytes as soon as the length of its token does
(`Key.fits_of_token`), and no two such keys have the same token, be they well formed or not.
-/

namespace RecordMapping

theorem utf8ByteSize_cons (c : Char) (rest : List Char) :
    (String.ofList (c :: rest)).utf8ByteSize = c.utf8Size + (String.ofList rest).utf8ByteSize := by
  rw [String.ofList_cons, String.utf8ByteSize_append, String.utf8ByteSize_singleton]

/-- A character takes between one byte and four. -/
theorem utf8ByteSize_bounds (characters : List Char) :
    characters.length ≤ (String.ofList characters).utf8ByteSize ∧
      (String.ofList characters).utf8ByteSize ≤ 4 * characters.length := by
  induction characters with
  | nil => exact ⟨Nat.le_refl 0, Nat.le_refl 0⟩
  | cons c rest ih =>
      have least := c.utf8Size_pos
      have most := c.utf8Size_le_four
      rw [utf8ByteSize_cons, List.length_cons]
      omega

theorem Bytes.Base64Url.length_le_encode (bytes : List UInt8) :
    bytes.length ≤ (encode bytes).length := by
  induction bytes using encode.induct with
  | case1 => exact Nat.le_refl 0
  | case2 a => simp [encode]
  | case3 a b => simp [encode]
  | case4 a b c rest ih =>
      simp only [encode, List.length_cons]
      omega

namespace Key

namespace Token

theorem length_textBytes (text : String) : (textBytes text).length = 8 + text.utf8ByteSize := by
  simp only [textBytes, lengthBytes, List.length_append, Bytes.length_littleEndian]
  rfl

/-- A level takes more bytes than its kind and its name. -/
theorem length_segmentBytes (segment : Segment) :
    segment.kind.utf8ByteSize < (segmentBytes segment).length ∧
      ∀ name, segment.identifier = some (.name name) →
        name.utf8ByteSize < (segmentBytes segment).length := by
  simp only [segmentBytes, List.length_append, length_textBytes]
  refine ⟨by omega, fun name named => ?_⟩
  rw [named, identifierBytes, List.length_cons, length_textBytes]
  omega

theorem length_segmentBytes_le {segment : Segment} {path : List Segment} (member : segment ∈ path) :
    (segmentBytes segment).length ≤ (path.flatMap segmentBytes).length := by
  obtain ⟨before, behind, rfl⟩ := List.append_of_mem member
  simp only [List.flatMap_append, List.flatMap_cons, List.length_append]
  omega

theorem length_path_le (path : List Segment) :
    path.length ≤ (path.flatMap segmentBytes).length := by
  induction path with
  | nil => exact Nat.le_refl 0
  | cons first levels ih =>
      have taken := (length_segmentBytes first).1
      simp only [List.flatMap_cons, List.length_append, List.length_cons]
      omega

end Token

variable {first second : Key}

theorem path_inj (same : first.path = second.path) : first = second := by
  rw [path_eq, path_eq] at same
  obtain ⟨above, last⟩ := List.append_inj' same rfl
  have ancestors : first.ancestors = second.ancestors := by
    have mapped := List.reverse_inj.mp above
    exact (List.map_inj_right fun _ _ same => Ancestor.segment_injective same).mp mapped
  obtain ⟨kind, identifier⟩ := Segment.mk.inj (List.singleton_inj.mp last)
  rw [Key.mk.injEq]
  exact ⟨ancestors, kind, identifier⟩

/-- Keys whose lengths and counts fit in eight bytes are told by their tokens. -/
theorem token_inj (fits : first.Fits) (otherFits : second.Fits)
    (same : first.token = second.token) : first = second := by
  have spelled := congrArg (fun token => Bytes.Base64Url.decode? token.toList) same
  simp only [token, String.toList_ofList, Bytes.Base64Url.decode?_encode, Option.some.injEq]
    at spelled
  have read : Token.pathOf (Token.pathBytes first.path) = .ok first.path :=
    Token.pathOf_eq_ok_iff.mpr ⟨rfl, fits.count, fits.segments⟩
  rw [spelled, Token.pathOf_eq_ok_iff.mpr ⟨rfl, otherFits.count, otherFits.segments⟩] at read
  exact (path_inj (Except.ok.inj read)).symm

theorem length_pathBytes_le (key : Key) :
    (Token.pathBytes key.path).length ≤ key.token.utf8ByteSize := by
  rw [token]
  exact Nat.le_trans (Bytes.Base64Url.length_le_encode _) (utf8ByteSize_bounds _).1

theorem fits_of_token {key : Key} (short : key.token.utf8ByteSize < 2 ^ 64) : key.Fits := by
  have written := key.length_pathBytes_le
  simp only [Token.pathBytes, List.length_cons, List.length_append] at written
  have levels := Token.length_path_le key.path
  refine ⟨by omega, fun segment member => ?_⟩
  have taken := Token.length_segmentBytes_le member
  obtain ⟨kind, named⟩ := Token.length_segmentBytes segment
  refine ⟨?_, fun name found => ?_⟩
  · change segment.kind.utf8ByteSize < 2 ^ 64
    omega
  · have shorter := named name found
    change name.utf8ByteSize < 2 ^ 64
    omega

end Key

end RecordMapping
