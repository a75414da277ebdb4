import FlashFleet.Fault
import FlashFleet.Number.Shortest
import FlashFleet.Text.Quoted
import FlashFleet.Toml.Node
/-!
# Documents that are no device file

Why a document does not list devices, and the wording of each cause.
-/

namespace FlashFleet.DeviceFile

/-- The first thing in a document that does not fit. -/
inductive Misfit where
  | unknownSection (key : String)
  | unknownField (key : String)
  | missingField (key : String)
  | wrongType (found wanted : String)
  | tooShort (count : Nat)
  | serialShape
  | serialText (fault : Serial.Fault)
  | unknownKind (name : String)
  | kindShape
  | kindWithoutName
  | kindWithNames
  | kindContent (found : String)
  | kindTableNotEmpty
  | kindArrayNotEmpty
  deriving DecidableEq, Repr

/-- A name between back quotes. -/
def inBackQuotes (name : String) : String := "`" ++ name ++ "`"

/-- The keys of a device, in the order of their places. -/
def fieldNames : List String := ["snr", "kind", "channel", "connected", "app_hex", "net_hex"]

/-- The wording of a misfit. -/
def Misfit.message : Misfit → String
  | .unknownSection key =>
    "unknown field " ++ inBackQuotes key ++ ", expected " ++ inBackQuotes "device"
  | .unknownField key =>
    "unknown field " ++ inBackQuotes key ++ ", expected one of " ++
      String.intercalate ", " (fieldNames.map inBackQuotes)
  | .missingField key => "missing field " ++ inBackQuotes key
  | .wrongType found wanted => "invalid type: " ++ found ++ ", expected " ++ wanted
  | .tooShort count =>
    "invalid length " ++ toString count ++ ", expected struct TomlDevice with 6 elements"
  | .serialShape => "data did not match any variant of untagged enum IntOrStr"
  | .serialText fault => fault.message
  | .unknownKind name =>
    "unknown variant " ++ inBackQuotes name ++ ", expected " ++ inBackQuotes "headset" ++
      " or " ++ inBackQuotes "gateway"
  | .kindShape => "wanted string or table"
  | .kindWithoutName => "wanted exactly 1 element, found 0 elements"
  | .kindWithNames => "wanted exactly 1 element, more than 1 element"
  | .kindContent found => "expected table, found " ++ found
  | .kindTableNotEmpty => "expected empty table"
  | .kindArrayNotEmpty => "expected empty array"

/-- A value that stands where another type was wanted. -/
def described : Toml.Node → String
  | .text content => "string " ++ Text.quote content
  | .integer value => "integer " ++ inBackQuotes (toString value)
  | .float value => "floating point " ++ inBackQuotes value.text
  | .boolean value => "boolean " ++ inBackQuotes (toString value)
  | .array _ | .tables _ => "sequence"
  | .table _ _ | .moment => "map"

/-- A value of the wrong type. -/
def mismatch (node : Toml.Node) (wanted : String) : Misfit := .wrongType (described node) wanted

end FlashFleet.DeviceFile
