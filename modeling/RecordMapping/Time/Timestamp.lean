import RecordMapping.Time.Calendar

/-!
# Moments in time

A moment is a count of seconds since the start of 1970, without leap seconds, and a count of
nanoseconds, which run on from one billion to two during a leap second. Leap seconds follow second
59 of a minute, but nothing keeps a moment from lying in a leap second after some other one. The
supported years are −262143 to 262142.

`Timestamp.text` writes the moment in the notation of RFC 3339 with the fewest of 0, 3, 6 and 9
places of a second that are exact. `Timestamp.ofUnix?` makes moments from counts; it checks the
bounds, and gives no leap second but at the end of a minute.
-/

namespace RecordMapping

/-- A moment in coordinated universal time. -/
structure Timestamp where
  /-- Seconds since the start of 1970. -/
  seconds : Int
  /-- Nanoseconds within the second, and within the leap second that follows it. -/
  nanoseconds : Nat
  /-- At most one leap second follows a second. -/
  nanoseconds_lt : nanoseconds < 2000000000
  /-- The first moment of the year −262143. -/
  first_le : -8334601228800 ≤ seconds
  /-- The last second of the year 262142. -/
  le_last : seconds ≤ 8210266876799
deriving DecidableEq, Repr

/-- A number in decimal, with zeros in front up to the given width. -/
def padded (width number : Nat) : String :=
  let digits := toString number
  String.ofList (List.replicate (width - digits.length) '0') ++ digits

namespace Timestamp

/-- The moment with the given counts, unless they are out of bounds or those of a leap second that
ends no minute. -/
def ofUnix? (seconds : Int) (nanoseconds : Nat) : Option Timestamp :=
  if valid : nanoseconds < 2000000000 ∧ (1000000000 ≤ nanoseconds → seconds % 60 = 59) ∧
      -8334601228800 ≤ seconds ∧ seconds ≤ 8210266876799 then
    some ⟨seconds, nanoseconds, valid.1, valid.2.2.1, valid.2.2.2⟩
  else none

/-- A year as text: four digits for the years 0 to 9999, else a sign and at least four digits. -/
def yearText (year : Int) : String :=
  if 0 ≤ year ∧ year ≤ 9999 then padded 4 year.toNat
  else (if year < 0 then "-" else "+") ++ padded 4 year.natAbs

/-- A fraction of a second as text, with the fewest of 0, 3, 6 and 9 places that are exact. -/
def fractionText (nanoseconds : Nat) : String :=
  if nanoseconds = 0 then ""
  else if nanoseconds % 1000000 = 0 then "." ++ padded 3 (nanoseconds / 1000000)
  else if nanoseconds % 1000 = 0 then "." ++ padded 6 (nanoseconds / 1000)
  else "." ++ padded 9 nanoseconds

/-- The moment as text, with the given name of the zone at the end. A leap second has the number
after that of the second it follows, so 60 at the end of a minute. -/
def text (zone : String) (moment : Timestamp) : String :=
  let date := Date.ofDays (moment.seconds / 86400)
  let secondOfDay := (moment.seconds % 86400).toNat
  let isLeap : Bool := 1000000000 ≤ moment.nanoseconds
  let second := secondOfDay % 60 + (if isLeap then 1 else 0)
  let fraction := if isLeap then moment.nanoseconds - 1000000000 else moment.nanoseconds
  yearText date.year ++ "-" ++ padded 2 date.month ++ "-" ++ padded 2 date.day ++ "T" ++
    padded 2 (secondOfDay / 3600) ++ ":" ++ padded 2 (secondOfDay / 60 % 60) ++ ":" ++
    padded 2 second ++ fractionText fraction ++ zone

end Timestamp

end RecordMapping
