import FlashFleet.Device
import FlashFleet.DeviceFile.Misfit
/-!
# One device of a device file

A device is written as a table with named fields in any order, or as an array
of all six fields. The serial and the kind have to be there. Fields are read in
the order of the document, and the first that does not fit is reported.
-/

namespace FlashFleet.DeviceFile

open Toml (Node)

/-! ## Fields -/

/-- A serial is a number of 32 bits, or a text that can be read as a serial. -/
def readSerial : Node → Except Misfit Serial
  | .integer value =>
    if 0 ≤ value ∧ value ≤ Serial.limit then .ok (UInt32.ofNat value.toNat)
    else .error .serialShape
  | .text content =>
    match Serial.parse content with
    | .ok serial => .ok serial
    | .error fault => .error (.serialText fault)
  | _ => .error .serialShape

/-- The content behind the name of a kind has to be empty. -/
def readNothing : Node → Except Misfit Unit
  | .table _ [] | .array [] | .tables [] => .ok ()
  | .table _ _ | .array _ => .error .kindTableNotEmpty
  | .tables _ => .error .kindArrayNotEmpty
  | .text _ => .error (.kindContent "string")
  | .integer _ => .error (.kindContent "integer")
  | .float _ => .error (.kindContent "float")
  | .boolean _ => .error (.kindContent "boolean")
  | .moment => .error (.kindContent "datetime")

/-- Reads the name of a kind. -/
def readKindName (name : String) : Except Misfit Kind :=
  match Kind.parse? name with
  | some kind => .ok kind
  | none => .error (.unknownKind name)

/-- A kind is its name, or a table with the name as its only key and nothing
behind it. -/
def readKind : Node → Except Misfit Kind
  | .text name => readKindName name
  | .table _ [] => .error .kindWithoutName
  | .table _ [(name, content)] => do
    let kind ← readKindName name
    readNothing content
    return kind
  | .table _ _ => .error .kindWithNames
  | _ => .error .kindShape

/-- Reads a text. -/
def readText (wanted : String) : Node → Except Misfit String
  | .text content => .ok content
  | node => .error (mismatch node wanted)

/-- Reads the channel, as it is written. -/
def readChannel (node : Node) : Except Misfit String := readText "a string" node

/-- Reads the path of an image. -/
def readPath (node : Node) : Except Misfit ImagePath := readText "path string" node

/-- Reads a truth value. -/
def readBoolean : Node → Except Misfit Bool
  | .boolean value => .ok value
  | node => .error (mismatch node "a boolean")

/-! ## Devices -/

/-- The fields met so far. -/
structure Fields where
  serial : Option Serial := none
  kind : Option Kind := none
  channel : Option String := none
  connected : Option Bool := none
  appFile : Option ImagePath := none
  netFile : Option ImagePath := none
  deriving DecidableEq, Repr

/-- The device of complete fields. Without other word it has no channel and is
connected. -/
def Fields.device (fields : Fields) (serial : Serial) (kind : Kind) : Device :=
  { serial := serial
    kind := kind
    channel := fields.channel.getD ""
    connected := fields.connected.getD true
    appFile := fields.appFile
    netFile := fields.netFile }

/-- Reads one field. -/
def Fields.read (fields : Fields) (key : String) (node : Node) : Except Misfit Fields :=
  match key with
  | "snr" => return { fields with serial := some (← readSerial node) }
  | "kind" => return { fields with kind := some (← readKind node) }
  | "channel" => return { fields with channel := some (← readChannel node) }
  | "connected" => return { fields with connected := some (← readBoolean node) }
  | "app_hex" => return { fields with appFile := some (← readPath node) }
  | "net_hex" => return { fields with netFile := some (← readPath node) }
  | _ => .error (.unknownField key)

/-- Reads all fields in the order of the document. -/
def Fields.readAll (fields : Fields) : Toml.Entries → Except Misfit Fields
  | [] => .ok fields
  | (key, node) :: rest => do
    let fields ← fields.read key node
    fields.readAll rest

/-- The device of fields that may be incomplete. -/
def Fields.complete (fields : Fields) : Except Misfit Device :=
  match fields.serial, fields.kind with
  | none, _ => .error (.missingField "snr")
  | _, none => .error (.missingField "kind")
  | some serial, some kind => .ok (fields.device serial kind)

/-- Reads a device from a table. -/
def ofTable (entries : Toml.Entries) : Except Misfit Device := do
  let fields ← ({} : Fields).readAll entries
  fields.complete

/-- Reads a field that has to be there from its place. -/
def required (read : Node → Except Misfit α) (place : Nat) (items : List Node) :
    Except Misfit α :=
  match items[place]? with
  | some node => read node
  | none => .error (.tooShort place)

/-- Reads a field that may be left out from its place. -/
def optional (read : Node → Except Misfit α) (place : Nat) (items : List Node) :
    Except Misfit (Option α) :=
  match items[place]? with
  | some node => (read node).map some
  | none => .ok none

/-- Reads a device from the array of its fields. Further items do not count. -/
def ofArray (items : List Node) : Except Misfit Device := do
  let serial ← required readSerial 0 items
  let kind ← required readKind 1 items
  let channel ← optional readChannel 2 items
  let connected ← optional readBoolean 3 items
  let appFile ← required readPath 4 items
  let netFile ← required readPath 5 items
  let fields : Fields :=
    { channel := channel, connected := connected, appFile := some appFile, netFile := some netFile }
  return fields.device serial kind

/-- The key under which a date or a time is passed on. -/
def momentKey : String := "$__toml_private_datetime"

/-- Reads a device. -/
def ofNode : Node → Except Misfit Device
  | .table _ entries => ofTable entries
  | .array items => ofArray items
  | .moment => .error (.unknownField momentKey)
  | node => .error (mismatch node "struct TomlDevice")

end FlashFleet.DeviceFile
