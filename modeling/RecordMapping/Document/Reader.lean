import RecordMapping.Document.Tree
import RecordMapping.Text.Hexadecimal

/-!
# Reading JSON

`Document.ofText?` reads a whole text as one document. Spaces, tabs and line ends may stand between
the parts, and nothing may follow the document. Every reader gives what it read and what is left of
the text; what is left is always shorter than the text, so that reading comes to an end.
-/

namespace RecordMapping.Document.Reader

/-- The characters that may stand between the parts of a document. -/
def isSpace (c : Char) : Bool :=
  c = ' ' || c = '\n' || c = '\t' || c = '\r'

/-- The text from the first character on that is no space. -/
def skip (s : List Char) : List Char :=
  s.dropWhile isSpace

theorem length_skip_le (s : List Char) : (skip s).length ≤ s.length :=
  (List.dropWhile_sublist _).length_le

/-! ## Texts -/

/-- A part of a text between quotes: a character, or a code unit that was written with `\u`. -/
inductive Piece where
  | character (c : Char)
  | unit (code : Nat)

/-- The code unit that four hexadecimal digits stand for. -/
def unit? (a b c d : Char) : Option Nat :=
  Text.ofHexDigits? [a, b, c, d]

/-- The character that a letter after a backslash stands for. -/
def escaped? (c : Char) : Option Char :=
  match c with
  | '"' => some '"'
  | '\\' => some '\\'
  | '/' => some '/'
  | 'b' => some (Char.ofNat 0x08)
  | 'f' => some (Char.ofNat 0x0C)
  | 'n' => some '\n'
  | 'r' => some '\r'
  | 't' => some '\t'
  | _ => none

/-- Reads the rest of a text behind its opening quote. Control characters must be escaped. -/
def pieces : List Char → Option (List Piece × List Char)
  | [] => none
  | '"' :: rest => some ([], rest)
  | '\\' :: 'u' :: a :: b :: c :: d :: rest => do
      let code ← unit? a b c d
      let (more, rest) ← pieces rest
      return (.unit code :: more, rest)
  | '\\' :: letter :: rest => do
      let c ← escaped? letter
      let (more, rest) ← pieces rest
      return (.character c :: more, rest)
  | c :: rest =>
      if c.toNat < 0x20 then none
      else do
        let (more, rest) ← pieces rest
        return (.character c :: more, rest)

theorem length_lt_of_pieces {s rest : List Char} {read : List Piece}
    (success : pieces s = some (read, rest)) : rest.length < s.length := by
  fun_induction pieces s generalizing read rest with
  | case1 => simp at success
  | case2 r => simp at success; simp [← success.2]
  | case3 a b c d r ih =>
      simp only [Option.bind_eq_bind, Option.bind_eq_some_iff, Option.pure_def,
        Option.some.injEq, Prod.mk.injEq] at success
      obtain ⟨_, _, ⟨_, tail⟩, inner, _, same⟩ := success
      have := ih inner
      simp only at same
      subst same
      simp only [List.length_cons]
      omega
  | case4 letter r _ ih =>
      simp only [Option.bind_eq_bind, Option.bind_eq_some_iff, Option.pure_def,
        Option.some.injEq, Prod.mk.injEq] at success
      obtain ⟨_, _, ⟨_, tail⟩, inner, _, same⟩ := success
      have := ih inner
      simp only at same
      subst same
      simp only [List.length_cons]
      omega
  | case5 => simp at success
  | case6 c r _ _ _ _ ih =>
      simp only [Option.bind_eq_bind, Option.bind_eq_some_iff, Option.pure_def,
        Option.some.injEq, Prod.mk.injEq] at success
      obtain ⟨⟨_, tail⟩, inner, _, same⟩ := success
      have := ih inner
      simp only at same
      subst same
      simp only [List.length_cons]
      omega

/-- The characters that the parts of a text spell. Two code units in the range for surrogates form
one character, and stand for none in any other order. -/
def spell : List Piece → Option (List Char)
  | [] => some []
  | .character c :: rest => (spell rest).map (c :: ·)
  | .unit high :: .unit low :: rest =>
      if 0xD800 ≤ high ∧ high < 0xDC00 then
        if 0xDC00 ≤ low ∧ low < 0xE000 then
          (spell rest).map (Char.ofNat (0x10000 + (high - 0xD800) * 0x400 + (low - 0xDC00)) :: ·)
        else none
      else if 0xDC00 ≤ high ∧ high < 0xE000 then none
      else (spell (.unit low :: rest)).map (Char.ofNat high :: ·)
  | .unit code :: rest =>
      if 0xD800 ≤ code ∧ code < 0xE000 then none
      else (spell rest).map (Char.ofNat code :: ·)

/-- The text that some pieces spell, if they do. -/
def textOf (read : List Piece) : Option String :=
  (spell read).map String.ofList

/-! ## Numbers -/

/-- Reads at least one digit and all that follow it. -/
def digits (s : List Char) : Option (List Nat × List Char) :=
  let read := s.takeWhile Char.isDigit
  if read.isEmpty then none
  else some (read.map fun c => c.toNat - 0x30, s.dropWhile Char.isDigit)

theorem length_lt_of_digits {s rest : List Char} {read : List Nat}
    (success : digits s = some (read, rest)) : rest.length < s.length := by
  simp only [digits] at success
  split at success
  · simp at success
  · next nonempty =>
    simp only [Option.some.injEq, Prod.mk.injEq] at success
    have whole := congrArg List.length
      (List.takeWhile_append_dropWhile (p := Char.isDigit) (l := s))
    have positive : 0 < (s.takeWhile Char.isDigit).length := by
      cases taken : s.takeWhile Char.isDigit with
      | nil => simp [taken] at nonempty
      | cons => simp
    rw [List.length_append, success.2] at whole
    omega

/-- Reads the digits before the point; zero stands alone. -/
def wholeDigits (s : List Char) : Option (List Nat × List Char) :=
  match s with
  | '0' :: rest => some ([0], rest)
  | s => digits s

theorem length_lt_of_wholeDigits {s rest : List Char} {read : List Nat}
    (success : wholeDigits s = some (read, rest)) : rest.length < s.length := by
  unfold wholeDigits at success
  split at success
  · simp at success; simp [← success.2]
  · exact length_lt_of_digits success

/-- Reads a point and the digits after it, if there is a point. -/
def fractionDigits (s : List Char) : Option (Option (List Nat) × List Char) :=
  match s with
  | '.' :: rest => (digits rest).map fun (read, rest) => (some read, rest)
  | s => some (none, s)

theorem length_le_of_fractionDigits {s rest : List Char} {read : Option (List Nat)}
    (success : fractionDigits s = some (read, rest)) : rest.length ≤ s.length := by
  unfold fractionDigits at success
  split at success
  · next tail =>
    obtain ⟨⟨_, _⟩, inner, same⟩ := Option.map_eq_some_iff.1 success
    have := length_lt_of_digits inner
    simp only [Prod.mk.injEq] at same
    rw [← same.2, List.length_cons]
    omega
  · simp at success; simp [success.2]

/-- Reads the digits of an exponent behind its sign. -/
def signedDigits (s : List Char) : Option ((Bool × List Nat) × List Char) :=
  match s with
  | '-' :: rest => (digits rest).map fun (read, rest) => ((true, read), rest)
  | '+' :: rest => (digits rest).map fun (read, rest) => ((false, read), rest)
  | s => (digits s).map fun (read, rest) => ((false, read), rest)

theorem length_lt_of_signedDigits {s rest : List Char} {read : Bool × List Nat}
    (success : signedDigits s = some (read, rest)) : rest.length < s.length := by
  unfold signedDigits at success
  split at success <;>
  · obtain ⟨⟨_, _⟩, inner, same⟩ := Option.map_eq_some_iff.1 success
    have := length_lt_of_digits inner
    simp only [Prod.mk.injEq] at same
    simp only [← same.2, List.length_cons]
    omega

/-- Reads an exponent, if there is one. -/
def exponentDigits (s : List Char) : Option (Option (Bool × List Nat) × List Char) :=
  match s with
  | [] => some (none, [])
  | c :: rest =>
      if c = 'e' ∨ c = 'E' then (signedDigits rest).map fun (read, rest) => (some read, rest)
      else some (none, c :: rest)

theorem length_le_of_exponentDigits {s rest : List Char} {read : Option (Bool × List Nat)}
    (success : exponentDigits s = some (read, rest)) : rest.length ≤ s.length := by
  unfold exponentDigits at success
  split at success
  · simp at success; simp [success.2]
  · split at success
    · obtain ⟨⟨_, _⟩, inner, same⟩ := Option.map_eq_some_iff.1 success
      have := length_lt_of_signedDigits inner
      simp only [Prod.mk.injEq] at same
      rw [← same.2, List.length_cons]
      omega
    · simp at success; simp [← success.2]

/-- Reads a number behind its sign. -/
def unsignedNumber (negative : Bool) (s : List Char) : Option (Numeral × List Char) := do
  let (whole, rest) ← wholeDigits s
  let (fraction, rest) ← fractionDigits rest
  let (exponent, rest) ← exponentDigits rest
  return (⟨negative, whole, fraction, exponent⟩, rest)

theorem length_lt_of_unsignedNumber {negative : Bool} {s rest : List Char} {read : Numeral}
    (success : unsignedNumber negative s = some (read, rest)) : rest.length < s.length := by
  simp only [unsignedNumber, Option.bind_eq_bind, Option.bind_eq_some_iff, Option.pure_def,
    Option.some.injEq, Prod.mk.injEq] at success
  obtain ⟨⟨_, _⟩, whole, ⟨_, _⟩, fraction, ⟨_, _⟩, exponent, _, same⟩ := success
  have := length_lt_of_wholeDigits whole
  have := length_le_of_fractionDigits fraction
  have := length_le_of_exponentDigits exponent
  simp only at *
  subst same
  omega

/-- Reads a number. -/
def number (s : List Char) : Option (Numeral × List Char) :=
  match s with
  | '-' :: rest => unsignedNumber true rest
  | s => unsignedNumber false s

theorem length_lt_of_number {s rest : List Char} {read : Numeral}
    (success : number s = some (read, rest)) : rest.length < s.length := by
  unfold number at success
  split at success
  · have := length_lt_of_unsignedNumber success
    rw [List.length_cons]
    omega
  · exact length_lt_of_unsignedNumber success

/-! ## Documents -/

/-- A text that is shorter than the given one. -/
abbrev Shorter (s : List Char) := { rest : List Char // rest.length < s.length }

/-- A text shorter than what is left of another is shorter than that one. -/
def Shorter.widen {s t : List Char} (rest : Shorter t) (shorter : t.length ≤ s.length) :
    Shorter s :=
  ⟨rest.1, Nat.lt_of_lt_of_le rest.2 shorter⟩

/-- The documents that are written as a word. -/
def words : List (List Char × Document) :=
  [(['n', 'u', 'l', 'l'], .null), (['t', 'r', 'u', 'e'], .bool true),
    (['f', 'a', 'l', 's', 'e'], .bool false)]

/-- Reads a document that is written as a word. -/
def word (s : List Char) : Option (Document × List Char) :=
  words.findSome? fun (letters, document) =>
    if letters.isPrefixOf s then some (document, s.drop letters.length) else none

/-- Reads a document without parts behind its first character `c`. -/
def scalar (c : Char) (rest : List Char) : Option (Document × List Char) :=
  if c = '"' then (pieces rest).map fun (read, rest) => (.text (textOf read), rest)
  else if c = '-' ∨ c.isDigit then (number (c :: rest)).map fun (read, rest) => (.number read, rest)
  else word (c :: rest)

theorem length_lt_of_scalar {c : Char} {tail rest : List Char} {read : Document}
    (success : scalar c tail = some (read, rest)) : rest.length < tail.length + 1 := by
  unfold scalar at success
  split at success
  · obtain ⟨⟨_, _⟩, inner, same⟩ := Option.map_eq_some_iff.1 success
    have := length_lt_of_pieces inner
    simp only [Prod.mk.injEq] at same
    rw [← same.2]
    omega
  · split at success
    · obtain ⟨⟨_, _⟩, inner, same⟩ := Option.map_eq_some_iff.1 success
      have := length_lt_of_number inner
      simp only [Prod.mk.injEq] at same
      rw [← same.2]
      simpa using this
    · obtain ⟨⟨letters, document⟩, known, found⟩ := List.exists_of_findSome?_eq_some success
      have nonempty : 0 < letters.length := by
        simp only [words, List.mem_cons, Prod.mk.injEq, List.not_mem_nil, or_false] at known
        rcases known with ⟨rfl, _⟩ | ⟨rfl, _⟩ | ⟨rfl, _⟩ <;> decide
      simp only [Option.ite_none_right_eq_some, Option.some.injEq, Prod.mk.injEq] at found
      rw [← found.2.2, List.length_drop, List.length_cons]
      omega

mutual

/-- Reads a document, with spaces before it ignored. -/
def document (s : List Char) : Option (Document × Shorter s) :=
  match start : skip s with
  | [] => none
  | c :: tail =>
      have bound : tail.length < s.length := by
        have := length_skip_le s
        rw [start, List.length_cons] at this
        omega
      if c = '[' then
        match next : skip tail with
        | ']' :: rest =>
            some (.array [], ⟨rest, by
              have := length_skip_le tail
              rw [next, List.length_cons] at this
              omega⟩)
        | _ => (items tail).map fun (read, rest) => (.array read, rest.widen (by omega))
      else if c = '\x7b' then
        match next : skip tail with
        | '\x7d' :: rest =>
            some (.object [], ⟨rest, by
              have := length_skip_le tail
              rw [next, List.length_cons] at this
              omega⟩)
        | _ => (entries tail).map fun (read, rest) => (.object read, rest.widen (by omega))
      else
        match success : scalar c tail with
        | none => none
        | some (read, rest) =>
            some (read, ⟨rest, by have := length_lt_of_scalar success; omega⟩)
termination_by (s.length, 0)

/-- Reads the items of an array up to its closing bracket. -/
def items (s : List Char) : Option (List Document × Shorter s) :=
  match document s with
  | none => none
  | some (first, ⟨after, shorter⟩) =>
      match next : skip after with
      | ',' :: rest =>
          have bound : rest.length < s.length := by
            have := length_skip_le after
            rw [next, List.length_cons] at this
            omega
          (items rest).map fun (more, rest) => (first :: more, rest.widen (by omega))
      | ']' :: rest =>
          some ([first], ⟨rest, by
            have := length_skip_le after
            rw [next, List.length_cons] at this
            omega⟩)
      | _ => none
termination_by (s.length, 1)

/-- Reads the entries of an object up to its closing brace. -/
def entries (s : List Char) : Option (List (Option String × Document) × Shorter s) :=
  match start : skip s with
  | '"' :: quoted =>
      match success : pieces quoted with
      | none => none
      | some (name, named) =>
          have nameBound : named.length < s.length := by
            have := length_lt_of_pieces success
            have := length_skip_le s
            rw [start, List.length_cons] at this
            omega
          match colon : skip named with
          | ':' :: value =>
              have valueBound : value.length < s.length := by
                have := length_skip_le named
                rw [colon, List.length_cons] at this
                omega
              match document value with
              | none => none
              | some (first, ⟨after, shorter⟩) =>
                  match next : skip after with
                  | ',' :: rest =>
                      have bound : rest.length < s.length := by
                        have := length_skip_le after
                        rw [next, List.length_cons] at this
                        omega
                      (entries rest).map fun (more, rest) =>
                        ((textOf name, first) :: more, rest.widen (by omega))
                  | '\x7d' :: rest =>
                      some ([(textOf name, first)], ⟨rest, by
                        have := length_skip_le after
                        rw [next, List.length_cons] at this
                        omega⟩)
                  | _ => none
          | _ => none
  | _ => none
termination_by (s.length, 1)

end

end RecordMapping.Document.Reader

namespace RecordMapping

/-- The document that the whole of a text describes. -/
def Document.ofText? (text : String) : Option Document :=
  match Document.Reader.document text.toList with
  | some (read, ⟨rest, _⟩) => if (Document.Reader.skip rest).isEmpty then some read else none
  | none => none

end RecordMapping
