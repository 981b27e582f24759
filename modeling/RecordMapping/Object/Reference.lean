import RecordMapping.Text.Hexadecimal

/-!
# References to objects

An object in flight is told apart by an identity of 128 bits; a reference pairs the identity with
the name of the object's class.
-/

namespace RecordMapping

open Text (hexDigits)

/-- The identity of an object while it is being mapped. -/
structure Identity where
  bits : BitVec 128
deriving DecidableEq, Repr

/-- A reference to an object of a given class. -/
structure Reference where
  id : Identity
  className : String
deriving DecidableEq, Repr

namespace Identity

/-- The identity as text: 32 hexadecimal digits in groups of 8, 4, 4, 4 and 12. -/
def display (id : Identity) : String :=
  let value := id.bits.toNat
  String.ofList (hexDigits 8 (value >>> 96) ++ '-' :: hexDigits 4 (value >>> 80) ++
    '-' :: hexDigits 4 (value >>> 64) ++ '-' :: hexDigits 4 (value >>> 48) ++
    '-' :: hexDigits 12 value)

/-- The identity of the object with the given serial number: the number in the last 48 bits, under
the marks of a random identity. Serial numbers below 2^48 give different identities. -/
def ofSerial (serial : Nat) : Identity :=
  ⟨BitVec.ofNat 128 (0x40008000 <<< 48 + serial % (1 <<< 48))⟩

end Identity

/-- The reference as it is written in messages. -/
def Reference.display (object : Reference) : String :=
  object.className ++ "@" ++ object.id.display

end RecordMapping
