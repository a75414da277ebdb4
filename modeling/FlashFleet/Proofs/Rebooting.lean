import FlashFleet.Backend.Scripted
import FlashFleet.Proofs.Printing
import FlashFleet.Proofs.Programming
import FlashFleet.Proofs.Replay
import Mathlib.Data.List.Forall2
/-!
# The reboot command never programs

The reboot command takes the images from all devices of a file and flags those that are
selected. The first round resets what is flagged and leaves the flag done or failed, so
that the second round, which programs what is not flagged, finds no device with an
image. The summary tells of each selected device whether the first of its two resets
succeeded.

## Main results

* `Selection.reset_of_served` — how a device is served that was prepared for a reboot.
* `rebootedOnly_of_comesTo` — a run over such devices resets those that were selected,
  and does nothing else.
* `reboot_never_programs` — the same for the command, with what it prints.
-/

namespace FlashFleet

namespace Selection

variable {selection : Selection} {device : Device}

/-- How a device is to be rebooted. -/
def resets (selection : Selection) (device : Device) : List Invocation :=
  if selection.Matches device ∧ device.connected = true then
    [.reset device.serial, .reset device.serial]
  else []

theorem serial_of_mem_resets {call : Invocation} (h : call ∈ selection.resets device) :
    call.serial = device.serial := by
  unfold resets at h
  split at h
  · simp only [List.mem_cons, List.not_mem_nil, or_false, or_self] at h
    rw [h]
    rfl
  · cases h

theorem prepareReboot_of_matches (h : selection.Matches device) :
    selection.prepareReboot device = { withoutImages device with rebootOnly := .pending } :=
  if_pos (selects_iff.2 h)

theorem prepareReboot_of_not_matches (h : ¬ selection.Matches device) :
    selection.prepareReboot device = withoutImages device :=
  if_neg fun hselects => h (selects_iff.1 hselects)

theorem serial_prepareReboot (selection : Selection) (device : Device) :
    (selection.prepareReboot device).serial = device.serial := by
  unfold prepareReboot
  split <;> rfl

/-- How a device is served that the reboot command was given. -/
inductive Reset (selection : Selection) (device : Device) : List Exchange → Device → Prop where
  | unselected (hmatches : ¬ selection.Matches device) :
      Reset selection device [] (withoutImages device)
  | disconnected (hmatches : selection.Matches device) (hconnected : device.connected = false) :
      Reset selection device [] { withoutImages device with rebootOnly := .pending }
  | rebooted (hmatches : selection.Matches device) (hconnected : device.connected = true)
      (fault last : Option Fault) :
      Reset selection device [⟨.reset device.serial, fault⟩, ⟨.reset device.serial, last⟩]
        { withoutImages device with rebootOnly := .ofSuccess fault.isNone }

/-- A device prepared for a reboot is left alone by all but the phase that reboots it. -/
theorem reset_of_served {after : Device} {exchanges : List Exchange}
    (hunflagged : device.Unflagged) (h : Served (selection.prepareReboot device) exchanges after) :
    selection.Reset device exchanges after := by
  by_cases hmatches : selection.Matches device
  · rw [prepareReboot_of_matches hmatches] at h
    cases h with
    | disconnected hconnected => exact .disconnected hmatches hconnected
    | rebooted hconnected hpending fault last => exact .rebooted hmatches hconnected fault last
    | programmed hconnected hpending hnet happ => exact absurd rfl hpending
  · rw [prepareReboot_of_not_matches hmatches] at h
    obtain ⟨rfl, rfl⟩ := h.of_idle hunflagged.not_pending (.inr ⟨rfl, rfl⟩)
    exact .unselected hmatches

/-- It is reset twice if it was selected and is connected, and left alone otherwise. -/
theorem Reset.calls {after : Device} {exchanges : List Exchange}
    (h : selection.Reset device exchanges after) :
    exchanges.map Exchange.call = selection.resets device := by
  unfold resets
  cases h with
  | unselected hmatches =>
    rw [if_neg fun hboth => hmatches hboth.1]
    rfl
  | disconnected hmatches hconnected =>
    rw [if_neg (by simp [hconnected])]
    rfl
  | rebooted hmatches hconnected fault last =>
    rw [if_pos ⟨hmatches, hconnected⟩]
    rfl

end Selection

/-- What becomes of a device that the reboot command was given. -/
structure Rebooted (selection : Selection) (trace : Trace) (device after : Device) : Prop where
  /-- All but the images and the flag is left as it was. -/
  same : ({ after with rebootOnly := device.rebootOnly } : Device) = Selection.withoutImages device
  /-- A connected device that was selected is reset twice. It is done when the first reset
  succeeded, and has failed otherwise. -/
  due : selection.Matches device → device.connected = true → ∃ fault last,
    trace.dialogue device.serial =
      shown [⟨.reset device.serial, fault⟩, ⟨.reset device.serial, last⟩] ∧
    (after.rebootOnly = .done ↔ fault = none) ∧ (after.rebootOnly = .failed ↔ fault ≠ none)
  pending : selection.Matches device → device.connected = false → after.rebootOnly = .pending
  unselected : ¬ selection.Matches device → after.rebootOnly = .notSelected
  appProgrammed : after.appProgrammed = .notSelected
  netProgrammed : after.netProgrammed = .notSelected

/-- What the flag of a device that is rebooted tells. -/
theorem Flag.ofSuccess_isNone_iff (fault : Option Fault) :
    (Flag.ofSuccess fault.isNone = .done ↔ fault = none) ∧
      (Flag.ofSuccess fault.isNone = .failed ↔ fault ≠ none) := by
  cases fault <;> simp [Flag.ofSuccess]

theorem Selection.Reset.outcome {selection : Selection} {device after : Device}
    {exchanges : List Exchange} (h : selection.Reset device exchanges after)
    (hunflagged : device.Unflagged) {trace : Trace}
    (hshown : trace.dialogue device.serial = shown exchanges) :
    Rebooted selection trace device after := by
  cases h with
  | unselected hmatches =>
    exact
      { same := rfl
        due := fun hyes => absurd hyes hmatches
        pending := fun hyes => absurd hyes hmatches
        unselected := fun _ => hunflagged.rebootOnly
        appProgrammed := hunflagged.appProgrammed
        netProgrammed := hunflagged.netProgrammed }
  | disconnected hmatches hconnected =>
    exact
      { same := rfl
        due := fun _ hnot => absurd (hconnected.symm.trans hnot) Bool.false_ne_true
        pending := fun _ _ => rfl
        unselected := fun hnot => absurd hmatches hnot
        appProgrammed := hunflagged.appProgrammed
        netProgrammed := hunflagged.netProgrammed }
  | rebooted hmatches hconnected fault last =>
    exact
      { same := rfl
        due := fun _ _ => ⟨fault, last, hshown, Flag.ofSuccess_isNone_iff fault⟩
        pending := fun _ hnot => absurd (hnot.symm.trans hconnected) Bool.false_ne_true
        unselected := fun hnot => absurd hmatches hnot
        appProgrammed := hunflagged.appProgrammed
        netProgrammed := hunflagged.netProgrammed }

/-- Without a rule that crashes a scripted programmer never does. -/
theorem Scripted.neverCrashes {rules : List Rule}
    (h : ∀ rule ∈ rules, ∀ text, rule.verdict ≠ .crash text) :
    (programmer rules).NeverCrashes := by
  intro past call text
  simp only [programmer, respond]
  split
  · next rule hfound =>
    have hverdict := h rule (List.mem_of_find?_eq_some hfound) text
    cases hcase : rule.verdict with
    | crash other =>
      rw [hcase] at hverdict
      simpa [Verdict.outcome] using hverdict
    | _ => exact nofun
  · exact nofun

/-! ## The reboot command -/

/-- The run resets the devices that were selected, and does nothing else. -/
structure RebootedOnly (programmer : Programmer) (selection : Selection) (listed : List Device)
    (trace : Trace) (devices : List Device) : Prop where
  /-- All that is asked for are the resets that are due. -/
  resets : trace.invocations.Perm (listed.flatMap selection.resets)
  /-- What came of a reset is what the programmer answered. -/
  truthful : Truthful programmer [] trace.events
  /-- What becomes of each device. -/
  devices : List.Forall₂ (Rebooted selection trace) listed devices

/-- Log records before it change nothing. -/
theorem RebootedOnly.after_logs {programmer : Programmer} {selection : Selection}
    {listed devices : List Device} {trace : Trace}
    (h : RebootedOnly programmer selection listed trace devices) (logs : List LogRecord) :
    RebootedOnly programmer selection listed (Command.logTrace logs ++ trace) devices where
  resets := by
    rw [Command.invocations_logTrace]
    exact h.resets
  truthful := Command.truthful_logTrace logs h.truthful
  devices := by
    apply h.devices.imp
    intro device after hrebooted
    refine { hrebooted with due := ?_ }
    rw [Command.dialogue_logTrace]
    exact hrebooted.due

namespace Threads

variable {programmer : Programmer} {listed : List Device} {selection : Selection}

/-- A run over devices prepared for a reboot resets those that were selected, and does
nothing else. -/
theorem rebootedOnly_of_comesTo (hsafe : programmer.NeverCrashes)
    (hloaded : DeviceFile.Loaded listed) {mode : Mode} {run : FleetRun}
    (h : ComesTo (.of programmer mode [] (selection.forReboot listed)) run) :
    RebootedOnly programmer selection listed run.trace run.devices := by
  have hnodup := Selection.Prepared.nodup (.reboot selection) hloaded
  have hspecified := specified_of_comesTo hsafe hnodup h
  have hserial := selection.serial_prepareReboot
  have hcounted : (run.trace.invocations.filter fun _ => true).Perm
      (listed.flatMap selection.resets) := by
    refine Trace.perm_flatMap (fun _ _ => Selection.serial_of_mem_resets) hloaded.nodup ?_
      fun serial => Specified.others hserial hspecified
    intro device hmem
    obtain ⟨after, exchanges, hshown, hserved⟩ :=
      Specified.prepared_of_mem hserial hspecified hmem
    rw [hshown, invocations_shown, List.filter_true]
    exact (Selection.reset_of_served (hloaded.unflagged device hmem) hserved).calls
  rw [List.filter_true] at hcounted
  refine ⟨hcounted, hspecified.truthful, List.forall₂_iff_get.2 ⟨?_, ?_⟩⟩
  · rw [hspecified.size]
    exact (List.length_map _).symm
  · intro position hlisted hleft
    have hdevice := List.getElem?_eq_getElem hlisted
    obtain ⟨after, exchanges, hafter, hshown, hserved⟩ :=
      Specified.prepared hserial hspecified hdevice
    rw [List.getElem?_eq_getElem hleft, Option.some.injEq] at hafter
    have hunflagged := hloaded.unflagged _ (List.getElem_mem hlisted)
    rw [List.get_eq_getElem, List.get_eq_getElem, hafter]
    exact (Selection.reset_of_served hunflagged hserved).outcome hunflagged hshown

/-- The reboot command concludes the run over the devices prepared for it. -/
theorem concludes_reboot {host : Host} {path : String} {logs : List LogRecord}
    (hload : Command.loadDevices host path = (logs, .ok listed))
    (hselected : ∃ device ∈ listed, selection.Matches device) (hsafe : programmer.NeverCrashes)
    (mode : Mode) :
    Command.Concludes (Command.reboot host programmer mode path selection)
      (Fleet.run programmer mode [] (selection.forReboot listed)) := by
  have hnodup := Selection.Prepared.nodup (.reboot selection)
    (Command.loaded_of_loadDevices hload)
  rw [Command.reboot_of_loaded hload]
  exact (Command.concludes_runFleet hsafe hnodup (Selection.count_pos hselected) mode).after logs

/-- Whatever the programmer answers, the reboot command resets exactly what was selected,
and shows what came of it in its summary; and so it is with whatever else the threads of
its run may come to, for each of which there is an order in which the command comes to it. In
whatever order they move, they come to an end. -/
theorem reboot_never_programs {host : Host} {path : String} {logs : List LogRecord}
    (hload : Command.loadDevices host path = (logs, .ok listed))
    (hselected : ∃ device ∈ listed, selection.Matches device) (hsafe : programmer.NeverCrashes)
    (mode : Mode) :
    (∃ run, ComesTo (.of programmer mode [] (selection.forReboot listed)) run ∧
      Command.Concludes (Command.reboot host programmer mode path selection) run ∧
      RebootedOnly programmer selection listed
        (Command.reboot host programmer mode path selection).trace run.devices) ∧
    Ends (.of programmer mode [] (selection.forReboot listed)) ∧
    ∀ run, ComesTo (.of programmer mode [] (selection.forReboot listed)) run →
      RebootedOnly programmer selection listed run.trace run.devices ∧
      ∃ other : Mode, other.isSequential = mode.isSequential ∧
        Command.Concludes (Command.reboot host programmer other path selection) run := by
  have hloaded := Command.loaded_of_loadDevices hload
  have hconcludes := concludes_reboot hload hselected hsafe
  refine ⟨⟨_, comesTo_run .., hconcludes mode, ?_⟩, ends _,
    fun run hrun => ⟨rebootedOnly_of_comesTo hsafe hloaded hrun, ?_⟩⟩
  · obtain ⟨records, htrace⟩ := (hconcludes mode).trace
    rw [htrace]
    exact (rebootedOnly_of_comesTo hsafe hloaded (comesTo_run ..)).after_logs records
  · -- Whatever the threads come to, some order of moving comes to it.
    obtain ⟨other, hsame, rfl⟩ := comesTo_iff.1 hrun
    exact ⟨other, hsame, hconcludes other⟩

/-! ## A reset that fails -/

/-- The first reset of the headset fails. -/
def stubborn : Programmer :=
  Scripted.programmer
    [{ operation := .reset, serial := some 1, nth := some 1, verdict := .exit (some 33) }]

theorem stubborn_neverCrashes : stubborn.NeverCrashes :=
  Scripted.neverCrashes fun rule hrule text => by
    rw [List.mem_singleton.1 hrule]
    exact nofun

/-- The headset is rebooted, for worse, and the gateway is left alone. -/
theorem reboot_never_programs_headset :
    twoKits.flatMap headsetOnly.resets = [.reset 1, .reset 1] ∧
      (Command.reboot kitsHost stubborn .sequential "kits.toml" headsetOnly).output =
        "\n" ++ String.join
          ["snr          device     channel    only reboot    core app       core net      \n",
            "-------------------------------------------------------------------------------\n",
            "1            headset    left       Selected ERR   Not selected   Not selected  \n",
            "2            gateway               Not selected   Not selected   Not selected  \n"] ∧
      ∃ run, ComesTo (.of stubborn .sequential [] (headsetOnly.forReboot twoKits)) run ∧
        Command.Concludes
          (Command.reboot kitsHost stubborn .sequential "kits.toml" headsetOnly) run ∧
        RebootedOnly stubborn headsetOnly twoKits
          (Command.reboot kitsHost stubborn .sequential "kits.toml" headsetOnly).trace
          run.devices := by
  refine ⟨by decide +kernel, ?_, (reboot_never_programs loadDevices_kitsHost
    ⟨_, List.mem_cons_self, by decide +kernel⟩ stubborn_neverCrashes .sequential).1⟩
  rw [Command.reboot_of_loaded loadDevices_kitsHost]
  decide +kernel

end Threads

end FlashFleet
