import FlashFleet.Programmer
/-!
# Configuration words

After its application core was programmed, with everything erased, a device
has to be given its identity: two words of its user information configuration
registers hold the serial of its probe and, for a headset, its channel. The
channel is written first, so that the serial stands only where the identity is
complete.
-/

namespace FlashFleet

namespace Uicr

/-- Where the serial of the probe is kept. -/
def serialAddress : UInt32 := 0x00FF80F0

/-- Where the channel of a headset is kept. -/
def channelAddress : UInt32 := 0x00FF80F4

end Uicr

/-- The word that stands for a channel. -/
def Channel.word : Channel → UInt32
  | .left => 0
  | .right => 1

namespace Uicr

/-- A log record of detail about a probe. -/
def detail (serial : Serial) (text : String) : Action :=
  .say ⟨.debug, toString serial.toNat ++ ": " ++ text⟩

/-- Writing the channel word. -/
def writeChannel (serial : Serial) (channel : Channel) : List Action :=
  [detail serial s!"writing channel {channel.title} to UICR",
    .invoke (.writeRegister channelAddress channel.word serial)]

/-- Writing the serial word. -/
def writeSerial (serial : Serial) : List Action :=
  [detail serial "writing serial number to UICR",
    .invoke (.writeRegister serialAddress serial serial)]

/-- Giving a device its identity. A headset without a valid channel is refused
before anything is written. -/
def actions (device : Device) : List Action :=
  if device.kind.requiresChannel then
    match Channel.parse? device.channel with
    | none => [.refuse (.invalidChannel device.channel)]
    | some channel => writeChannel device.serial channel ++ writeSerial device.serial
  else writeSerial device.serial

/-- Gives a device its identity. -/
def write (programmer : Programmer) (past : List Invocation) (device : Device) : Effect :=
  perform programmer past (actions device)

end Uicr

end FlashFleet
