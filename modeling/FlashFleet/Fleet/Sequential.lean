import FlashFleet.Fleet.Round
/-!
# One device after another

A sequential round dispatches the work of one device and waits for it before
it goes on to the next. A crash ends the round at once: the devices after it
are not touched.

## Main results

* `work_cons_idle` — a device without work leaves no trace.
-/

namespace FlashFleet.Sequential

/-- The devices of a round in turn. -/
def work (programmer : Programmer) (round : Round) (past : List Invocation) :
    List Device → FleetRun
  | [] => ⟨[], [], none⟩
  | device :: rest =>
    match round.phase? device with
    | none =>
      let later := work programmer round past rest
      { later with devices := device :: later.devices }
    | some phase =>
      let now := phase.run programmer past device
      let trace := (round.dispatch phase device.serial).authoredBy .orchestrator ++
        now.events.authoredBy (.worker device.serial)
      match now.crash with
      | some text => ⟨trace, now.device :: rest, some text⟩
      | none =>
        let later := work programmer round (past ++ Events.invocations now.events) rest
        ⟨trace ++ later.trace, now.device :: later.devices, later.crash⟩

/-- A sequential round. -/
def run (programmer : Programmer) (round : Round) (past : List Invocation)
    (devices : List Device) : FleetRun :=
  ((work programmer round past devices).closed round).after
    ((round.opening devices).authoredBy .orchestrator)

/-- A device without work leaves no trace. -/
theorem work_cons_idle {programmer : Programmer} {round : Round} {past : List Invocation}
    {device : Device} (h : round.phase? device = none) (rest : List Device) :
    work programmer round past (device :: rest) =
      { work programmer round past rest with
        devices := device :: (work programmer round past rest).devices } := by
  simp [work, h]

end FlashFleet.Sequential
