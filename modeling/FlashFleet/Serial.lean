import FlashFleet.Number.Digits
import FlashFleet.Text.Blank
/-!
# Probe serial numbers

Each debug probe has a 32-bit serial number. People write it in decimal, or
in hexadecimal after `0x`, and blanks around it do not count.
-/

namespace FlashFleet

/-- The serial number of a debug probe. -/
abbrev Serial := UInt32

namespace Serial

/-- A serial that cannot be read: whether it was written as hexadecimal, and
what is wrong with its digits. -/
structure Fault where
  hexadecimal : Bool
  cause : Number.DigitFault
  deriving DecidableEq, Repr

/-- The wording of a refused serial. -/
def Fault.message (fault : Fault) : String :=
  (if fault.hexadecimal then "invalid hex serial: " else "invalid serial: ") ++
    fault.cause.message

/-- The largest serial. -/
def limit : Nat := 4294967295

/-- Whether a text is written as hexadecimal, and its digits. -/
def spelling : List Char → Bool × List Char
  | '0' :: 'x' :: digits => (true, digits)
  | '0' :: 'X' :: digits => (true, digits)
  | digits => (false, digits)

/-- The radix of the two ways to write a serial. -/
def radix (hexadecimal : Bool) : Nat := if hexadecimal then 16 else 10

/-- Reads a serial without blanks around it. -/
def parseTrimmed (text : List Char) : Except Fault Serial :=
  let (hexadecimal, digits) := spelling text
  match Number.readWhole (radix hexadecimal) limit digits with
  | .ok value => .ok (UInt32.ofNat value)
  | .error cause => .error ⟨hexadecimal, cause⟩

/-- Reads a serial. -/
def parse (text : String) : Except Fault Serial :=
  parseTrimmed (Text.trim text.toList)

end Serial

end FlashFleet
