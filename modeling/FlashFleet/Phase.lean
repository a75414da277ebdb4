import FlashFleet.Uicr
/-!
# One phase on one device

A phase does its work, records in its flag whether all of it succeeded, and
then resets the device, so that it is left running whatever came of the work.
A failure of that last reset is only noted.

## Main results

* `record_serial` and its like — recording changes one flag and nothing else.
-/

namespace FlashFleet

namespace Phase

/-! ## Flags -/

/-- The device with the flag of the phase set. -/
def record (phase : Phase) (flag : Flag) (device : Device) : Device :=
  match phase with
  | .reboot => { device with rebootOnly := flag }
  | .net => { device with netProgrammed := flag }
  | .app => { device with appProgrammed := flag }

/-- The flag of the phase. -/
def flag (phase : Phase) (device : Device) : Flag :=
  match phase with
  | .reboot => device.rebootOnly
  | .net => device.netProgrammed
  | .app => device.appProgrammed

@[simp] theorem flag_record (phase : Phase) (flag : Flag) (device : Device) :
    phase.flag (phase.record flag device) = flag := by
  cases phase <;> rfl

@[simp] theorem record_serial (phase : Phase) (flag : Flag) (device : Device) :
    (phase.record flag device).serial = device.serial := by
  cases phase <;> rfl

@[simp] theorem record_kind (phase : Phase) (flag : Flag) (device : Device) :
    (phase.record flag device).kind = device.kind := by
  cases phase <;> rfl

@[simp] theorem record_channel (phase : Phase) (flag : Flag) (device : Device) :
    (phase.record flag device).channel = device.channel := by
  cases phase <;> rfl

/-! ## Work -/

/-- A log record that tells what is done to a probe. -/
def notice (serial : Serial) (text : String) : Action :=
  .say ⟨.info, text ++ " dev snr: " ++ toString serial.toNat⟩

/-- What it means that a phase was dispatched for a device without the image it
needs. The orchestrator never does that. -/
def missingImage (phase : Phase) (serial : Serial) : Action :=
  .crash (phase.name ++ " phase dispatched for " ++ toString serial.toNat ++ " without " ++
    (match phase with | .app => "an " | _ => "a ") ++ phase.name ++ " core image")

/-- The work of a phase. Erasing the whole application core also erases the
configuration words, which are written only after it was programmed. -/
def actions (phase : Phase) (device : Device) : List Action :=
  match phase with
  | .reboot => [notice device.serial "Rebooting", .invoke (.reset device.serial)]
  | .net =>
    match device.netImage with
    | none => [missingImage .net device.serial]
    | some image =>
      [notice device.serial "Programming net on",
        .invoke (.program .network image device.serial .sectors)]
  | .app =>
    match device.appImage with
    | none => [missingImage .app device.serial]
    | some image =>
      [notice device.serial "Programming app on",
        .invoke (.program .application image device.serial .chip)] ++ Uicr.actions device

/-- The log record of work that failed. -/
def failure (phase : Phase) (serial : Serial) (fault : Fault) : LogRecord :=
  ⟨.error, toString serial.toNat ++ ": " ++ phase.name ++ " phase failed: " ++ fault.message⟩

/-- The log record of a last reset that failed. -/
def resetFailure (phase : Phase) (serial : Serial) (fault : Fault) : LogRecord :=
  ⟨.debug, toString serial.toNat ++ ": post-" ++ phase.name ++ " reset failed: " ++ fault.message⟩

/-! ## A phase without interruption -/

/-- What a phase did: its events, the device after it, and the crash that ended
it, if one did. -/
structure Run where
  events : Events
  device : Device
  crash : Option String
  deriving DecidableEq, Repr

/-- The last reset of a phase whose flag was recorded, and the report of its
end. -/
def finish (phase : Phase) (programmer : Programmer) (past : List Invocation) (flag : Flag)
    (device : Device) : Run :=
  let reset := programmer.call past (.reset device.serial)
  let finished := Event.phaseFinished device.serial phase flag
  match reset.outcome with
  | .crashed text => ⟨reset.events, device, some text⟩
  | .failed fault =>
    ⟨reset.events ++ [.log (phase.resetFailure device.serial fault), finished], device, none⟩
  | .succeeded => ⟨reset.events ++ [finished], device, none⟩

/-- Runs a phase on a device. -/
def run (phase : Phase) (programmer : Programmer) (past : List Invocation) (device : Device) :
    Run :=
  let work := perform programmer past (phase.actions device)
  let started := .phaseStarted device.serial phase :: work.events
  let conclude (report : Events) (flag : Flag) : Run :=
    let events := started ++ report
    let last := phase.finish programmer (past ++ Events.invocations events) flag
      (phase.record flag device)
    { last with events := events ++ last.events }
  match work.outcome with
  | .crashed text => ⟨started, device, some text⟩
  | .failed fault => conclude [.log (phase.failure device.serial fault)] .failed
  | .succeeded => conclude [] .done

end Phase

end FlashFleet
