import RecordMapping.Number.Shortest

/-!
# Layouts of decimal numbers

A layout fixes what the fewest digits that read back leave open: which way ties go, how whole
numbers end, where the notation with an exponent begins, and how the exponent is signed.
-/

namespace RecordMapping

/-- How a finite number is laid out as text. -/
structure Layout where
  /-- The way a number halfway between two decimals goes. -/
  tie : Tie
  /-- What follows the digits of a whole number. -/
  wholeEnd : String
  /-- The least and greatest count of digits before the point (negative for zeros after it)
  that are written without an exponent; without bounds no number gets one. -/
  pointRange : Option (Int × Int)
  /-- What stands before the digits of an exponent that is not negative. -/
  exponentSign : String
deriving Repr

namespace Layout

/-- Lays out digits, the point standing after the first `point` of them. -/
def positional (layout : Layout) (digits : List Char) (point : Int) : String :=
  if point ≤ 0 then
    "0." ++ String.ofList (List.replicate (-point).toNat '0' ++ digits)
  else if (digits.length : Int) ≤ point then
    String.ofList (digits ++ List.replicate (point.toNat - digits.length) '0') ++ layout.wholeEnd
  else
    String.ofList (digits.take point.toNat) ++ "." ++ String.ofList (digits.drop point.toNat)

/-- The exponent of ten with its mark and sign. -/
def exponentText (layout : Layout) (exponent : Int) : String :=
  "e" ++ (if exponent < 0 then "-" else layout.exponentSign) ++ toString exponent.natAbs

/-- Lays out digits with the point after the first one and an exponent of ten. -/
def scientific (layout : Layout) (digits : List Char) (exponent : Int) : String :=
  let rest := digits.drop 1
  String.ofList (digits.take 1) ++ (if rest.isEmpty then "" else "." ++ String.ofList rest) ++
    layout.exponentText exponent

/-- The text of a finite number. -/
def text (layout : Layout) (x : Binary64) : String :=
  let sign := if x.isNegative then "-" else ""
  if x.magnitude = 0 then sign ++ "0" ++ layout.wholeEnd
  else
    let decimal := x.shortest layout.tie
    let digits := (toString decimal.digits).toList
    let point := decimal.exponent + digits.length
    let isPositional :=
      match layout.pointRange with
      | none => true
      | some (least, greatest) => least ≤ point && point ≤ greatest
    if isPositional then sign ++ layout.positional digits point
    else sign ++ layout.scientific digits (point - 1)

end Layout

end RecordMapping
