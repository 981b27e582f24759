import RecordMapping.Text.Blank
import RecordMapping.Time.Timestamp

/-!
# Reading moments

Moments are read in a relaxed form of RFC 3339. Blanks may stand before and after the parts of the
date and of the time of day, one `T`, `t` or space divides the two, and the zone is `Z`, `UTC` in
any case, or an offset in hours and minutes with or without a colon. A year of more than four
digits needs a sign. Second 60 is a leap second, and places after the ninth are dropped.
-/

namespace RecordMapping.Timestamp.Reading

/-- Reads a number of at least one and at most `limit` digits. -/
def number (limit : Nat) (characters : List Char) : Option (Nat × List Char) :=
  let digits := (characters.take limit).takeWhile Char.isDigit
  if digits.isEmpty then none
  else some (digits.foldl (fun n c => n * 10 + (c.toNat - 0x30)) 0, characters.drop digits.length)

/-- Reads a number that lies within bounds, with blanks before and after it ignored. -/
def bounded (limit least greatest : Nat) (characters : List Char) : Option (Nat × List Char) := do
  let (value, rest) ← number limit (Text.dropBlank characters)
  if least ≤ value ∧ value ≤ greatest then some (value, Text.dropBlank rest) else none

/-- Reads the given character. -/
def expect (c : Char) : List Char → Option (List Char)
  | [] => none
  | d :: rest => if d = c then some rest else none

/-- Reads a year: up to four digits, or a sign and any number of digits. -/
def year (characters : List Char) : Option (Int × List Char) :=
  match Text.dropBlank characters with
  | '-' :: rest => (number rest.length rest).map fun (value, rest) => (-(value : Int), rest)
  | '+' :: rest => (number rest.length rest).map fun (value, rest) => ((value : Int), rest)
  | rest => (number 4 rest).map fun (value, rest) => ((value : Int), rest)

/-- Reads a date. -/
def date (characters : List Char) : Option (Date × List Char) := do
  let (year, rest) ← year characters
  let rest ← expect '-' (Text.dropBlank rest)
  let (month, rest) ← bounded 2 1 12 rest
  let rest ← expect '-' rest
  let (day, rest) ← number 2 (Text.dropBlank rest)
  let date : Date := ⟨year, month, day⟩
  if date.isValid then some (date, rest) else none

/-- Reads a fraction of a second in nanoseconds, if a point begins one. -/
def fraction (characters : List Char) : Option (Nat × List Char) :=
  match characters with
  | '.' :: digits => do
      let (value, rest) ← number 9 digits
      some (value * Nat.pow 10 (9 - (digits.length - rest.length)), rest.dropWhile Char.isDigit)
  | _ => some (0, characters)

/-- Reads two digits of which the first is at most `greatest`. -/
def twoDigits (greatest : Nat) : List Char → Option (Nat × List Char)
  | tens :: units :: rest =>
      let value := (tens.toNat - 0x30) * 10 + (units.toNat - 0x30)
      if tens.isDigit && units.isDigit && tens.toNat - 0x30 ≤ greatest then some (value, rest)
      else none
  | _ => none

/-- Reads the sign of an offset; the minus sign of typography, U+2212, counts too. -/
def sign : List Char → Option (Int × List Char)
  | c :: rest =>
      if c = '+' then some (1, rest)
      else if c = '-' ∨ c.toNat = 0x2212 then some (-1, rest)
      else none
  | [] => none

/-- Reads an offset from universal time in seconds, less than a day. -/
def offset (characters : List Char) : Option (Int × List Char) := do
  let (sign, rest) ← sign characters
  let (hours, rest) ← twoDigits 9 rest
  let (minutes, rest) ← twoDigits 5 (rest.dropWhile fun c => c = ':' || Text.isBlank c)
  if hours < 24 then some (sign * (hours * 3600 + minutes * 60 : Nat), rest) else none

/-- Reads the name of universal time or an offset from it. -/
def zone (characters : List Char) : Option (Int × List Char) :=
  if (characters.take 3).map Char.toUpper = ['U', 'T', 'C'] then some (0, characters.drop 3)
  else match characters with
    | 'Z' :: rest => some (0, rest)
    | 'z' :: rest => some (0, rest)
    | _ => offset characters

/-- Reads a moment from the whole of a text. -/
def moment (characters : List Char) : Option Timestamp := do
  let (date, rest) ← date characters
  let rest ←
    match rest with
    | c :: rest => if c = 'T' ∨ c = 't' ∨ c = ' ' then some rest else none
    | [] => none
  let (hour, rest) ← bounded 2 0 23 rest
  let rest ← expect ':' rest
  let (minute, rest) ← bounded 2 0 59 rest
  let rest ← expect ':' rest
  let (second, rest) ← number 2 (Text.dropBlank rest)
  let (nanoseconds, rest) ← fraction rest
  let (offset, rest) ← zone (Text.dropBlank rest)
  if second ≤ 60 ∧ (Text.dropBlank rest).isEmpty then
    let ofDate := date.toDays * 86400 + (hour * 3600 + minute * 60 : Nat)
    -- the date itself, before the offset is taken off, lies within the supported years too
    let _ ← Timestamp.ofUnix? ofDate 0
    if second = 60 then Timestamp.ofUnix? (ofDate + 59 - offset) (nanoseconds + 1000000000)
    else Timestamp.ofUnix? (ofDate + second - offset) nanoseconds
  else none

end RecordMapping.Timestamp.Reading

namespace RecordMapping.Timestamp

/-- The moment that a text describes. -/
def ofText? (text : String) : Option Timestamp :=
  Reading.moment text.toList

end RecordMapping.Timestamp
