import FlashFleet.Proofs.Commands
/-!
# What the program command touches

The program command leaves out devices by taking their images from them, and what is
due is found later, by the rounds, from images, flags and connections. What comes of it
is that each selected and connected device has each of its cores programmed once, with
the image that is meant for it, and that nothing at all is said to any other probe.

## Main results

* `programs_of_served` — the programming of a device is what is asked for it.
* `programmed_of_comesTo` — a run over prepared devices programs those that were
  selected.
-/

namespace FlashFleet

/-- The image that is meant for the network core of a device. -/
def Images.netFor (images : Images) (device : Device) : Option ImagePath :=
  nonEmpty (images.net.or device.netFile)

/-- The image that is meant for the application core of a device. -/
def Images.appFor (images : Images) (device : Device) : Option ImagePath :=
  nonEmpty (images.app.or device.appFile)

namespace Selection

variable {selection : Selection} {images : Images} {device : Device}

/-- How a device is to be programmed. -/
def programs (selection : Selection) (images : Images) (device : Device) : List Invocation :=
  if selection.Matches device ∧ device.connected = true then
    ((images.netFor device).map fun image =>
      Invocation.program .network image device.serial .sectors).toList ++
    ((images.appFor device).map fun image =>
      Invocation.program .application image device.serial .chip).toList
  else []

theorem serial_of_mem_programs {call : Invocation} (h : call ∈ selection.programs images device) :
    call.serial = device.serial := by
  unfold programs at h
  split at h
  · simp only [List.mem_append, Option.mem_toList, Option.map_eq_some_iff] at h
    rcases h with ⟨image, _, rfl⟩ | ⟨image, _, rfl⟩ <;> rfl
  · cases h

theorem prepareProgram_of_matches (h : selection.Matches device) :
    selection.prepareProgram images device = withImages images device :=
  if_pos (selects_iff.2 h)

theorem prepareProgram_of_not_matches (h : ¬ selection.Matches device) :
    selection.prepareProgram images device = withoutImages device :=
  if_neg fun hselects => h (selects_iff.1 hselects)

/-- Preparing a device leaves everything of it but its images. -/
theorem prepareProgram_eq (selection : Selection) (images : Images) (device : Device) :
    ∃ appFile netFile, selection.prepareProgram images device =
      { device with appFile := appFile, netFile := netFile } := by
  unfold prepareProgram
  split
  · exact ⟨_, _, rfl⟩
  · exact ⟨_, _, rfl⟩

theorem serial_prepareProgram (selection : Selection) (images : Images) (device : Device) :
    (selection.prepareProgram images device).serial = device.serial := by
  obtain ⟨_, _, hprepared⟩ := selection.prepareProgram_eq images device
  rw [hprepared]

theorem netImage_prepareProgram (selection : Selection) (images : Images) (device : Device) :
    (selection.prepareProgram images device).netImage =
      if selection.Matches device then images.netFor device else none := by
  by_cases h : selection.Matches device
  · rw [prepareProgram_of_matches h, if_pos h]
    rfl
  · rw [prepareProgram_of_not_matches h, if_neg h]
    rfl

theorem appImage_prepareProgram (selection : Selection) (images : Images) (device : Device) :
    (selection.prepareProgram images device).appImage =
      if selection.Matches device then images.appFor device else none := by
  by_cases h : selection.Matches device
  · rw [prepareProgram_of_matches h, if_pos h]
    rfl
  · rw [prepareProgram_of_not_matches h, if_neg h]
    rfl

end Selection

/-! ## The programming of one device -/

section Served

variable {device after : Device} {exchanges : List Exchange} {flag : Flag}

/-- The first round programs the network core once, if there is an image for it. -/
theorem NetServed.programs (h : NetServed device exchanges flag) :
    (exchanges.map Exchange.call).filter Invocation.isProgram =
      (device.netImage.map fun image =>
        Invocation.program .network image device.serial .sectors).toList := by
  cases h with
  | without himage =>
    rw [himage]
    rfl
  | programmed himage fault last =>
    rw [himage]
    rfl

/-- Words are not programming. -/
theorem filter_isProgram_words {wordings : List Exchange}
    (h : Attempt (Uicr.words device) wordings) :
    (wordings.map Exchange.call).filter Invocation.isProgram = [] := by
  rw [List.filter_eq_nil_iff]
  intro call hcall
  obtain ⟨exchange, hexchange, rfl⟩ := List.mem_map.1 hcall
  obtain ⟨address, value, heq⟩ := Uicr.eq_writeRegister_of_mem_words (h.mem_plan exchange hexchange)
  rw [heq]
  exact Bool.false_ne_true

/-- The second round programs the application core once, if there is an image for it. -/
theorem AppServed.programs (hselected : device.rebootOnly = .notSelected)
    (h : AppServed device exchanges flag) :
    (exchanges.map Exchange.call).filter Invocation.isProgram =
      (device.appImage.map fun image =>
        Invocation.program .application image device.serial .chip).toList := by
  cases h with
  | without hnone =>
    rw [hnone.resolve_left (not_not_intro hselected)]
    rfl
  | programmed _ himage hattempt last =>
    rw [himage, List.map_append, List.filter_append]
    cases hattempt with
    | broken call plan fault => rfl
    | continued hwords =>
      rw [List.map_cons, List.filter_cons_of_pos rfl, filter_isProgram_words hwords]
      rfl

/-- The programming of a prepared device is what is asked for it. -/
theorem programs_of_served {selection : Selection} {images : Images}
    (hunflagged : device.Unflagged)
    (h : Served (selection.prepareProgram images device) exchanges after) :
    (exchanges.map Exchange.call).filter Invocation.isProgram =
      selection.programs images device := by
  obtain ⟨appFile, netFile, hprepared⟩ := selection.prepareProgram_eq images device
  have hselected : (selection.prepareProgram images device).rebootOnly = .notSelected := by
    rw [hprepared]
    exact hunflagged.rebootOnly
  have hconnection : (selection.prepareProgram images device).connected = device.connected := by
    rw [hprepared]
  unfold Selection.programs
  cases h with
  | disconnected hconnected =>
    rw [hconnection] at hconnected
    rw [if_neg (by simp [hconnected])]
    rfl
  | rebooted hconnected hpending fault last =>
    rw [hselected] at hpending
    cases hpending
  | programmed hconnected hpending hnet happ =>
    rw [hconnection] at hconnected
    rw [List.map_append, List.filter_append, hnet.programs, happ.programs hselected,
      Selection.serial_prepareProgram, Selection.netImage_prepareProgram,
      Selection.appImage_prepareProgram]
    by_cases hmatches : selection.Matches device
    · rw [if_pos hmatches, if_pos hmatches, if_pos ⟨hmatches, hconnected⟩]
    · rw [if_neg hmatches, if_neg hmatches, if_neg fun hboth => hmatches hboth.1]
      rfl

end Served

/-! ## The program command -/

/-- A device that is left alone: it was not selected, it is not connected, or there is
no image for it. -/
def Selection.Spares (selection : Selection) (images : Images) (device : Device) : Prop :=
  ¬ selection.Matches device ∨ device.connected = false ∨
    (images.netFor device = none ∧ images.appFor device = none)

/-- The run programs the devices that were selected, and touches no others. -/
structure Programmed (selection : Selection) (images : Images) (listed : List Device)
    (trace : Trace) : Prop where
  /-- What is programmed is what is asked for, each of it once. -/
  programs : (trace.invocations.filter Invocation.isProgram).Perm
    (listed.flatMap (selection.programs images))
  /-- Nothing is said to the probe of a device that is left alone, or to one that is not
  listed. -/
  silent : ∀ serial, (∀ device ∈ listed, device.serial = serial →
    selection.Spares images device) → trace.dialogue serial = []

/-- Log records before it change nothing. -/
theorem Programmed.after_logs {selection : Selection} {images : Images} {listed : List Device}
    {trace : Trace} (h : Programmed selection images listed trace) (logs : List LogRecord) :
    Programmed selection images listed (Command.logTrace logs ++ trace) where
  programs := by
    rw [Command.invocations_logTrace]
    exact h.programs
  silent := by
    intro serial hspared
    rw [Command.dialogue_logTrace]
    exact h.silent serial hspared

namespace Threads

variable {programmer : Programmer} {past : List Invocation} {listed : List Device}
  {selection : Selection} {images : Images}

/-- A run over the prepared devices of a file programs those that were selected. -/
theorem programmed_of_comesTo (hsafe : programmer.NeverCrashes)
    (hloaded : DeviceFile.Loaded listed) {mode : Mode} {run : FleetRun}
    (h : ComesTo (.of programmer mode past (selection.forProgram images listed).2) run) :
    Programmed selection images listed run.trace := by
  have hnodup := Selection.Prepared.nodup (.program selection images) hloaded
  have hspecified := specified_of_comesTo hsafe hnodup h
  have hserial := selection.serial_prepareProgram images
  refine ⟨Trace.perm_flatMap (fun _ _ => Selection.serial_of_mem_programs) hloaded.nodup ?_
    fun serial => Specified.others hserial hspecified, fun serial hspared => ?_⟩
  · intro device hmem
    obtain ⟨after, exchanges, hshown, hserved⟩ :=
      Specified.prepared_of_mem hserial hspecified hmem
    rw [hshown, invocations_shown, programs_of_served (hloaded.unflagged device hmem) hserved]
  · by_cases hlisted : ∃ device ∈ listed, device.serial = serial
    · obtain ⟨device, hmem, rfl⟩ := hlisted
      obtain ⟨after, exchanges, hshown, hserved⟩ :=
        Specified.prepared_of_mem hserial hspecified hmem
      obtain ⟨_, _, hprepared⟩ := selection.prepareProgram_eq images device
      have hpending : (selection.prepareProgram images device).rebootOnly ≠ .pending := by
        rw [hprepared]
        exact (hloaded.unflagged device hmem).not_pending
      rw [hshown, (hserved.of_idle hpending ?_).1, shown_nil]
      · rw [Selection.netImage_prepareProgram, Selection.appImage_prepareProgram]
        rcases hspared device hmem rfl with hnot | hdisconnected | ⟨hnet, happ⟩
        · exact .inr ⟨if_neg hnot, if_neg hnot⟩
        · left
          rw [hprepared]
          exact hdisconnected
        · right
          constructor
          · rw [hnet]
            exact ite_self none
          · rw [happ]
            exact ite_self none
    · exact Specified.others hserial hspecified
        fun device hmem heq => hlisted ⟨device, hmem, heq⟩

/-- Whatever the programmer answers, the program command touches exactly what was
selected, and so does whatever else the threads of its run may come to. In whatever
order they move, they come to an end. -/
theorem program_touches {host : Host} {path : String} {logs : List LogRecord}
    (hload : Command.loadDevices host path = (logs, .ok listed))
    (hselected : ∃ device ∈ listed, selection.Matches device) (hsafe : programmer.NeverCrashes)
    (images : Images) (mode : Mode) :
    Programmed selection images listed
        (Command.program host programmer mode path selection images).trace ∧
      Ends (.of programmer mode [] (selection.forProgram images listed).2) ∧
      ∀ run, ComesTo (.of programmer mode [] (selection.forProgram images listed).2) run →
        Programmed selection images listed run.trace := by
  have hloaded := Command.loaded_of_loadDevices hload
  have hnodup : ((selection.forProgram images listed).2.map Device.serial).Nodup := by
    rw [Selection.Prepared.serials (.program selection images)]
    exact hloaded.nodup
  refine ⟨?_, ends _, fun run => programmed_of_comesTo hsafe hloaded⟩
  have hrun := programmed_of_comesTo hsafe hloaded
    (comesTo_run programmer mode [] (selection.forProgram images listed).2)
  simp only [Command.program, hload, Command.Report.after,
    Command.runFleet_of_selected hsafe hnodup (Selection.count_pos hselected)]
  exact (hrun.after_logs _).after_logs _

/-! ## A file of two kits, of which one is selected -/

/-- A machine with one file. -/
def kitsHost : Host where
  readBytes _ := .ok twoKitsText.toUTF8
  launch _ _ := .error .notFound

/-- The headset is selected by its kind and, twice, by its serial; one serial is of no
kit. -/
def headsetOnly : Selection := { kind := some .headset, serials := [1, 9, 1] }

/-- Another image for the network core. -/
def otherNet : Images := { net := some "m" }

theorem loadDevices_kitsHost :
    Command.loadDevices kitsHost "kits.toml" =
      ([⟨.debug, "Loaded 2 device(s) from kits.toml"⟩], .ok twoKits) :=
  Command.loadDevices_of_parse rfl parse_twoKitsText

theorem program_touches_headset :
    twoKits.flatMap (headsetOnly.programs otherNet) =
        [.program .network "m" 1 .sectors, .program .application "a" 1 .chip] ∧
      Programmed headsetOnly otherNet twoKits
        (Command.program kitsHost moody (.parallel Parallel.ascending) "kits.toml" headsetOnly
          otherNet).trace :=
  ⟨by decide +kernel,
    (program_touches loadDevices_kitsHost ⟨_, List.mem_cons_self, by decide +kernel⟩
      moody_neverCrashes otherNet (.parallel Parallel.ascending)).1⟩

end Threads

end FlashFleet
