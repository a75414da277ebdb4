import FlashFleet.Event
/-!
# Selecting devices

A command works on the devices of a kind, or on those with given serials, or
both. A device that was not selected stays in the fleet but has nothing done to
it.
-/

namespace FlashFleet

/-- Which devices a command works on: of a kind or of any, with one of the
serials or, if there are none, with any. -/
structure Selection where
  kind : Option Kind := none
  serials : List Serial := []
  deriving DecidableEq, Repr

/-- Images that take the place of those in the device file. -/
structure Images where
  app : Option ImagePath := none
  net : Option ImagePath := none
  deriving DecidableEq, Repr

namespace Selection

/-- The device is selected. -/
def selects (selection : Selection) (device : Device) : Bool :=
  selection.kind.all (· == device.kind) &&
    (selection.serials.isEmpty || selection.serials.contains device.serial)

/-- How many devices are selected. -/
def count (selection : Selection) (devices : List Device) : Nat :=
  devices.countP selection.selects

/-! ## Programming -/

/-- The device without images. -/
def withoutImages (device : Device) : Device := { device with appFile := none, netFile := none }

/-- The device with images that take the place of its own. -/
def withImages (images : Images) (device : Device) : Device :=
  { device with
    appFile := images.app.or device.appFile
    netFile := images.net.or device.netFile }

/-- A device prepared for programming. -/
def prepareProgram (selection : Selection) (images : Images) (device : Device) : Device :=
  if selection.selects device then withImages images device else withoutImages device

/-- The warning about a selected device that has nothing to be programmed
with. -/
def warnings (selection : Selection) (images : Images) (device : Device) : List LogRecord :=
  let prepared := withImages images device
  if selection.selects device ∧ device.connected ∧ !prepared.hasImage then
    [⟨.warn, toString device.serial.toNat ++ ": selected but no image given for either core"⟩]
  else []

/-- The devices prepared for programming, and the warnings about them. -/
def forProgram (selection : Selection) (images : Images) (devices : List Device) :
    List LogRecord × List Device :=
  (devices.flatMap (selection.warnings images), devices.map (selection.prepareProgram images))

/-! ## Rebooting -/

/-- A device prepared for a reboot. -/
def prepareReboot (selection : Selection) (device : Device) : Device :=
  if selection.selects device then { withoutImages device with rebootOnly := .pending }
  else withoutImages device

/-- The devices prepared for a reboot. -/
def forReboot (selection : Selection) (devices : List Device) : List Device :=
  devices.map selection.prepareReboot

end Selection

end FlashFleet
