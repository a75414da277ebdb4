import FlashFleet.Phase
/-!
# The two rounds of a run

In the first round every connected device is reset, if it waits for a reboot,
or gets its network core programmed, if it has an image for it. In the second
round every connected device that is not in reboot-only mode gets its
application core programmed, if it has an image for it. Whether the first round
succeeded does not matter to the second.
-/

namespace FlashFleet

/-- One of the two rounds. -/
inductive Round where
  | first
  | second
  deriving DecidableEq, Repr

namespace Round

/-- The number of a round. -/
def number : Round → Nat
  | .first => 1
  | .second => 2

/-- The work of a connected device. -/
def work? : Round → Device → Option Phase
  | .first, device =>
    if device.rebootOnly = .pending then some .reboot
    else if device.netImage.isSome then some .net
    else none
  | .second, device =>
    if device.rebootOnly = .notSelected ∧ device.appImage.isSome then some .app else none

/-- The work of a device. -/
def phase? (round : Round) (device : Device) : Option Phase :=
  if device.connected then round.work? device else none

/-- How many devices have work. -/
def count (round : Round) (devices : List Device) : Nat :=
  devices.countP fun device => (round.phase? device).isSome

/-! ## What the orchestrator reports -/

/-- The head of a round's log records. -/
def title (round : Round) : String := "Round " ++ toString round.number ++ ": "

/-- The start of a round. -/
def opening (round : Round) (devices : List Device) : Events :=
  let count := round.count devices
  [.log ⟨.info, round.title ++ toString count ++ " device(s)"⟩,
    .roundStarted round.number count]

/-- The dispatch of one device's work. -/
def dispatch (round : Round) (phase : Phase) (serial : Serial) : Events :=
  [.log ⟨.debug, round.title ++ "dispatching " ++ phase.name ++ " on " ++ toString serial.toNat⟩]

/-- The end of a round. -/
def closing (round : Round) : Events := [.roundFinished round.number]

end Round

/-- What a round, or a whole run, came to: the trace, the devices after it in
their order, and the crash that ended it, if one did. -/
structure FleetRun where
  trace : Trace
  devices : List Device
  crash : Option String
  deriving DecidableEq, Repr

namespace FleetRun

/-- The same with events before it. -/
def after (trace : Trace) (run : FleetRun) : FleetRun := { run with trace := trace ++ run.trace }

/-- The end of a round is reported unless it crashed. -/
def closed (round : Round) (run : FleetRun) : FleetRun :=
  match run.crash with
  | some _ => run
  | none => { run with trace := run.trace ++ round.closing.authoredBy .orchestrator }

end FleetRun

end FlashFleet
