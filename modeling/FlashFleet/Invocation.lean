import FlashFleet.Device
import FlashFleet.Text.Quoted
/-!
# Invocations

The three things a programmer can be asked to do to a probe: program one core
with an image, write one word of memory, and reset the device.

## Main results

* `Operation.parse?_name` — the name of an operation is read back.
-/

namespace FlashFleet

/-- One of the two cores of a device. -/
inductive Core where
  | application
  | network
  deriving DecidableEq, Repr

/-- The name of a core. -/
def Core.name : Core → String
  | .application => "app"
  | .network => "net"

/-- The core in a record of an invocation. -/
def Core.title : Core → String
  | .application => "Application"
  | .network => "Network"

/-- How much is erased before programming: the sectors the image covers, or
the whole core with its configuration words. -/
inductive Erase where
  | sectors
  | chip
  deriving DecidableEq, Repr

/-- The way of erasing in a record of an invocation. -/
def Erase.title : Erase → String
  | .sectors => "SectorErase"
  | .chip => "ChipErase"

/-- A kind of request. -/
inductive Operation where
  | programNet
  | programApp
  | writeRegister
  | reset
  deriving DecidableEq, Repr

namespace Operation

/-- The operation as it is written in options. -/
def name : Operation → String
  | .programNet => "net"
  | .programApp => "app"
  | .writeRegister => "memwr"
  | .reset => "reset"

/-- Reads the name of an operation. -/
def parse? (name : String) : Option Operation :=
  if name = "net" then some .programNet
  else if name = "app" then some .programApp
  else if name = "memwr" then some .writeRegister
  else if name = "reset" then some .reset
  else none

/-- The operation in a record. -/
def title : Operation → String
  | .programNet => "ProgramNet"
  | .programApp => "ProgramApp"
  | .writeRegister => "WriteRegister"
  | .reset => "Reset"

/-- The operation in messages about its failure. -/
def verb : Operation → String
  | .programNet | .programApp => "program"
  | .writeRegister => "memwr"
  | .reset => "reset"

theorem parse?_name (operation : Operation) : parse? operation.name = some operation := by
  cases operation <;> decide

end Operation

/-- One request to a programmer. -/
inductive Invocation where
  | program (core : Core) (image : ImagePath) (serial : Serial) (erase : Erase)
  | writeRegister (address value : UInt32) (serial : Serial)
  | reset (serial : Serial)
  deriving DecidableEq, Repr

namespace Invocation

/-- The probe that is addressed. -/
def serial : Invocation → Serial
  | .program _ _ serial _ => serial
  | .writeRegister _ _ serial => serial
  | .reset serial => serial

/-- The kind of the request. -/
def operation : Invocation → Operation
  | .program .network .. => .programNet
  | .program .application .. => .programApp
  | .writeRegister .. => .writeRegister
  | .reset .. => .reset

/-- Programs a core; the others do not. -/
def isProgram : Invocation → Bool
  | .program .. => true
  | _ => false

/-- Fields of a record, by name, in braces. -/
def recordText (name : String) (fields : List (String × String)) : String :=
  name ++ " \x7b " ++ String.intercalate ", " (fields.map fun (k, v) => k ++ ": " ++ v) ++ " \x7d"

/-- The invocation as a record. -/
def record : Invocation → String
  | .program core image serial erase =>
    recordText "Program"
      [("core", core.title), ("image", Text.quote image),
       ("probe_serial", toString serial.toNat), ("erase", erase.title)]
  | .writeRegister address value serial =>
    recordText "WriteRegister"
      [("address", toString address.toNat), ("value", toString value.toNat),
       ("probe_serial", toString serial.toNat)]
  | .reset serial => recordText "Reset" [("probe_serial", toString serial.toNat)]

end Invocation

end FlashFleet
