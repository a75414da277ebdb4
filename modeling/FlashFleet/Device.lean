import FlashFleet.Serial
/-!
# Development kits

A device is a development kit with a debug probe attached to the host: what it
is, which firmware images are meant for its two cores, and one flag for each
of the three things a run can do to it.

## Main results

* `Channel.parse?_name`, `Kind.parse?_name` — names are read back.
* `Device.hasFailure_iff` — a device has failed when one of its flags says so.
-/

namespace FlashFleet

/-! ## Flags -/

/-- What became of one thing that may be done to a device. -/
inductive Flag where
  | notSelected
  | pending
  | done
  | failed
  deriving DecidableEq, Repr, Inhabited

/-- The flag as the summary shows it. -/
def Flag.text : Flag → String
  | .notSelected => "Not selected"
  | .pending => "Selected TBD"
  | .done => "Selected done"
  | .failed => "Selected ERR"

/-- The flag that records whether something succeeded. -/
def Flag.ofSuccess (succeeded : Bool) : Flag := if succeeded then .done else .failed

/-! ## Kinds -/

/-- What a kit is used as. -/
inductive Kind where
  | headset
  | gateway
  deriving DecidableEq, Repr

namespace Kind

/-- The name of a kind. -/
def name : Kind → String
  | .headset => "headset"
  | .gateway => "gateway"

/-- Reads the name of a kind. -/
def parse? (name : String) : Option Kind :=
  if name = "headset" then some .headset
  else if name = "gateway" then some .gateway
  else none

/-- Only a headset plays one of two channels. -/
def requiresChannel : Kind → Bool
  | .headset => true
  | .gateway => false

theorem parse?_name (kind : Kind) : parse? kind.name = some kind := by
  cases kind <;> decide

end Kind

/-! ## Channels -/

/-- The stereo channel of a headset. -/
inductive Channel where
  | left
  | right
  deriving DecidableEq, Repr

namespace Channel

/-- The channel as device files write it. -/
def name : Channel → String
  | .left => "left"
  | .right => "right"

/-- The channel as log lines write it. -/
def title : Channel → String
  | .left => "Left"
  | .right => "Right"

/-- Reads the name of a channel. -/
def parse? (name : String) : Option Channel :=
  if name = "left" then some .left
  else if name = "right" then some .right
  else none

theorem parse?_name (channel : Channel) : parse? channel.name = some channel := by
  cases channel <;> decide

end Channel

/-! ## Devices -/

/-- The path of a firmware image. -/
abbrev ImagePath := String

/-- A device. The channel is kept as it was written and is only read when it
is needed. -/
structure Device where
  serial : Serial
  kind : Kind
  channel : String := ""
  connected : Bool := true
  rebootOnly : Flag := .notSelected
  appFile : Option ImagePath := none
  netFile : Option ImagePath := none
  appProgrammed : Flag := .notSelected
  netProgrammed : Flag := .notSelected
  deriving DecidableEq, Repr

/-- An empty path is no image. -/
def nonEmpty (path : Option ImagePath) : Option ImagePath := path.filter (· ≠ "")

namespace Device

/-- The image for the application core. -/
def appImage (device : Device) : Option ImagePath := nonEmpty device.appFile

/-- The image for the network core. -/
def netImage (device : Device) : Option ImagePath := nonEmpty device.netFile

/-- Something that was done to the device failed. -/
def hasFailure (device : Device) : Bool :=
  device.rebootOnly == .failed || device.appProgrammed == .failed || device.netProgrammed == .failed

theorem hasFailure_iff (device : Device) :
    device.hasFailure = true ↔
      device.rebootOnly = .failed ∨ device.appProgrammed = .failed ∨
        device.netProgrammed = .failed := by
  simp [hasFailure, or_assoc]

/-- The device has something to be programmed with. -/
def hasImage (device : Device) : Bool := device.appImage.isSome || device.netImage.isSome

end Device

/-- A device of the fleet has failed. -/
def anyFailure (devices : List Device) : Bool := devices.any Device.hasFailure

end FlashFleet
