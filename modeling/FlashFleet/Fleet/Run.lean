import FlashFleet.Fleet.Parallel
import FlashFleet.Fleet.Sequential
/-!
# A run over a fleet

A run goes through both rounds, each with all devices at once or with one
after another. The second round starts when the first one has ended, from the
devices as the first one left them; a crash ends the run with its round.

## Main results

* `Fleet.run_of_crash` — after a crash in the first round there is no second.
-/

namespace FlashFleet

/-- How the devices of a round follow each other. -/
inductive Mode where
  | sequential
  | parallel (scheduler : Parallel.Scheduler)

/-- One round in a mode. -/
def Round.run (round : Round) (programmer : Programmer) (mode : Mode) (past : List Invocation)
    (devices : List Device) : FleetRun :=
  match mode with
  | .sequential => Sequential.run programmer round past devices
  | .parallel scheduler => Parallel.run programmer round past scheduler devices

namespace Fleet

/-- A word on the devices that are left out. -/
def skipped (devices : List Device) : Events :=
  let count := devices.countP fun device => !device.connected
  if count = 0 then []
  else [.log ⟨.info, "Skipping " ++ toString count ++ " disconnected device(s)"⟩]

/-- Runs both rounds. `past` holds the invocations before the run. -/
def run (programmer : Programmer) (mode : Mode) (past : List Invocation)
    (devices : List Device) : FleetRun :=
  let first := (Round.first.run programmer mode past devices).after
    ((skipped devices).authoredBy .orchestrator)
  match first.crash with
  | some _ => first
  | none =>
    (Round.second.run programmer mode (past ++ first.trace.invocations) first.devices).after
      first.trace

/-- After a crash in the first round there is no second. -/
theorem run_of_crash {programmer : Programmer} {mode : Mode} {past : List Invocation}
    {devices : List Device} {text : String}
    (h : (Round.first.run programmer mode past devices).crash = some text) :
    run programmer mode past devices =
      (Round.first.run programmer mode past devices).after
        ((skipped devices).authoredBy .orchestrator) := by
  simp [run, FleetRun.after, h]

end Fleet

end FlashFleet
