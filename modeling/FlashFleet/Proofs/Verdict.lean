import FlashFleet.Proofs.Isolation
import FlashFleet.Proofs.Programming
import FlashFleet.Proofs.Summary
import FlashFleet.Proofs.Trouble
/-!
# How a command ends

A command fails when a flag of a device does, its message counts such devices, and the
summary shows them row by row. Nothing of this looks at what happened in the run. Still
the three agree with each other and with what happened, since a device is prepared without
a failure and has one at the end exactly when something went wrong with it.

## Main results

* `Recounted.troubles` — which devices have failed after a run.
* `accounted_of_comesTo` — how a command ends is what happened in its run.
-/

namespace FlashFleet

/-! ## Prepared devices -/

/-- A device is prepared without a failure, and stays the kit that it is. -/
theorem Selection.Prepared.exists_prepare {listed devices : List Device}
    (h : Prepared listed devices) :
    ∃ prepare : Device → Device, devices = listed.map prepare ∧
      ∀ device, (prepare device).serial = device.serial ∧ (prepare device).kind = device.kind ∧
        (prepare device).channel = device.channel ∧
        (device.Unflagged → (prepare device).hasFailure = false) := by
  cases h with
  | program selection images =>
    refine ⟨selection.prepareProgram images, rfl, fun device => ?_⟩
    obtain ⟨appFile, netFile, hprepared⟩ := selection.prepareProgram_eq images device
    rw [hprepared]
    refine ⟨rfl, rfl, rfl, fun hunflagged => ?_⟩
    simp [Device.hasFailure, hunflagged.rebootOnly, hunflagged.appProgrammed,
      hunflagged.netProgrammed]
  | reboot selection =>
    refine ⟨selection.prepareReboot, rfl, fun device => ?_⟩
    unfold prepareReboot
    split
    · refine ⟨rfl, rfl, rfl, fun hunflagged => ?_⟩
      simp [Device.hasFailure, withoutImages, hunflagged.appProgrammed,
        hunflagged.netProgrammed]
    · refine ⟨rfl, rfl, rfl, fun hunflagged => ?_⟩
      simp [Device.hasFailure, withoutImages, hunflagged.rebootOnly, hunflagged.appProgrammed,
        hunflagged.netProgrammed]

/-! ## The end of a command -/

namespace Command

/-- Something went wrong with the device in the run of a command. -/
def troubles (trace : Trace) (device : Device) : Bool :=
  device.troubled (trace.ofAuthor (.worker device.serial))

/-- A command ends as what happened in its run demands. -/
structure Accounted (listed : List Device) (report : Report) : Prop where
  /-- It succeeds exactly when no invocation failed but last resets of phases, and no headset
  was programmed whose channel is none. -/
  success : report.error = none ↔
    (∀ author, (report.trace.ofAuthor author).failsWork = false) ∧
      ∀ device ∈ listed, device.lacksChannel = true →
        (report.trace.ofAuthor (.worker device.serial)).any Event.programsApp = false
  /-- Otherwise its message counts the devices with which something went wrong. -/
  failure : report.error ≠ none →
    report.error = some (.devicesFailed (listed.countP (troubles report.trace))) ∧
      report.error.map Error.message =
        some (toString (listed.countP (troubles report.trace)) ++ " device(s) failed")
  /-- The summary has a row for each device, and shows a failure in as many of them. -/
  printed : ∃ left : List Device,
    report.output = "\n" ++ Table.summary left ∧
      List.Forall₂ (fun device after => after.serial = device.serial ∧
        Table.showsFailure (Table.summaryLayout.row (Table.summaryCells after)) =
          troubles report.trace device) listed left ∧
      (left.map fun after => Table.summaryLayout.row (Table.summaryCells after)).countP
        Table.showsFailure = listed.countP (troubles report.trace)

/-- Records of the log are of no worker. -/
theorem ofAuthor_worker_logTrace (logs : List LogRecord) (trace : Trace) (serial : Serial) :
    (logTrace logs ++ trace).ofAuthor (.worker serial) = trace.ofAuthor (.worker serial) := by
  have hnone : (logTrace logs).ofAuthor (.worker serial) = [] := by
    simp [Trace.ofAuthor, logTrace, Events.authoredBy]
  rw [Trace.ofAuthor_append, hnone, List.nil_append]

theorem ofAuthor_orchestrator_logTrace (logs : List LogRecord) (trace : Trace) :
    (logTrace logs ++ trace).ofAuthor .orchestrator =
      logs.map .log ++ trace.ofAuthor .orchestrator := by
  have hall : (logTrace logs).ofAuthor .orchestrator = logs.map .log := by
    rw [logTrace, Trace.ofAuthor, Events.authoredBy, List.filter_map, List.map_map]
    simp [Function.comp_def]
  rw [Trace.ofAuthor_append, hall]

theorem troubles_logTrace (logs : List LogRecord) (trace : Trace) :
    troubles (logTrace logs ++ trace) = troubles trace := by
  funext device
  rw [troubles, troubles, ofAuthor_worker_logTrace]

/-- Records of the log change nothing. -/
theorem Accounted.after_logs {listed : List Device} {report : Report} (h : Accounted listed report)
    (logs : List LogRecord) : Accounted listed (report.after logs) := by
  have hwork : ∀ author, ((logTrace logs ++ report.trace).ofAuthor author).failsWork =
      (report.trace.ofAuthor author).failsWork := by
    intro author
    cases author with
    | worker serial => rw [ofAuthor_worker_logTrace]
    | orchestrator => rw [ofAuthor_orchestrator_logTrace, Events.failsWork_map_log]
  refine { success := ?_, failure := ?_, printed := ?_ }
  · simp only [Report.after, hwork, ofAuthor_worker_logTrace]
    exact h.success
  · simp only [Report.after, troubles_logTrace]
    exact h.failure
  · simp only [Report.after, troubles_logTrace]
    exact h.printed

end Command

namespace Threads

variable {programmer : Programmer} {past : List Invocation} {listed devices : List Device}

/-- A device keeps its probe in both rounds. -/
theorem Attended.serial {device after : Device} {account : Events}
    (h : Attended programmer past device account after) : after.serial = device.serial := by
  obtain ⟨earlier, later, _, _, first, second, rfl, rfl, _, rfl⟩ := h
  rw [Round.serve_serial, Round.serve_serial]

/-- Each device of a run has failed exactly when something went wrong with it. -/
theorem Recounted.troubles {run : FleetRun} (hsafe : programmer.NeverCrashes)
    (hloaded : DeviceFile.Loaded listed) (hprepared : Selection.Prepared listed devices)
    (h : Recounted programmer past devices run) :
    List.Forall₂ (fun device after => after.serial = device.serial ∧
      after.hasFailure = Command.troubles run.trace device) listed run.devices := by
  obtain ⟨prepare, rfl, hkept⟩ := hprepared.exists_prepare
  have hattended := List.forall₂_map_left_iff.1 h.attended
  refine ((List.forall₂_and_left listed run.devices).2 ⟨fun _ hmem => hmem, hattended⟩).imp ?_
  rintro device after ⟨hmem, hdevice⟩
  obtain ⟨hserial, hkind, hchannel, hfresh⟩ := hkept device
  refine ⟨hdevice.serial.trans hserial, ?_⟩
  rw [hdevice.hasFailure hsafe (hfresh (hloaded.unflagged device hmem)), hserial]
  simp only [Command.troubles, Device.troubled, Device.lacksChannel, hkind, hchannel]

end Threads

end FlashFleet
