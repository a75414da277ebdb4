import FlashFleet.Proofs.Rebooting
import FlashFleet.Proofs.Rehearsing
import FlashFleet.Proofs.Script
import FlashFleet.Proofs.Verdict
/-!
# A dry run does what its script says

A script is a text, a device file is another, and between them stand the opening of the
backend, the selection, and two rounds whose phases make several invocations each. What is
left on a device is still told from the two texts alone: a phase that was run is done
unless the script lists one of its operations with the probe of the device, or programs the
application core of a headset without a channel. Resets that are listed show in the reboot
command and nowhere else.

## Main results

* `Threads.Attended.mem_phaseStarted` — which phases were run is seen in what is told of a
  device.
* `Threads.directed_of_comesTo` — every run leaves each device as the script says.
* `Threads.scripts_obeyed` — so do both commands, from the text of the script on.
-/

namespace FlashFleet

/-! ## Which phases were run -/

/-- The phase was run on the device. -/
def Trace.Ran (trace : Trace) (device : Device) (phase : Phase) : Prop :=
  .phaseStarted device.serial phase ∈ trace.ofAuthor (.worker device.serial)

/-- A phase tells of its own beginning and of no other. -/
theorem Phase.Narrated.mem_phaseStarted {phase other : Phase} {device : Device}
    {exchanges : List Exchange} {events : Events} (h : phase.Narrated device exchanges events) :
    .phaseStarted device.serial other ∈ events ↔ phase = other := by
  cases h with
  | @mk work hcalls hwork records last remarks =>
    have hnone : Event.phaseStarted device.serial other ∉ work :=
      fun hmem => Bool.noConfusion (hwork _ hmem)
    have hclosing : Event.phaseStarted device.serial other ∉
        phase.closing device.serial (phase.verdict device exchanges) records last remarks := by
      simp [closing]
    rw [List.mem_append, List.mem_cons, Event.phaseStarted.injEq]
    constructor
    · rintro ((⟨_, rfl⟩ | hmem) | hmem)
      · rfl
      · exact absurd hmem hnone
      · exact absurd hmem hclosing
    · rintro rfl
      exact .inl (.inl ⟨rfl, rfl⟩)

/-- The phase that a round has for a device is the one that is told of. -/
theorem Round.mem_phaseStarted_serve {programmer : Programmer} (hsafe : programmer.NeverCrashes)
    {round : Round} {device : Device} {past : List Invocation} {phase : Phase} :
    .phaseStarted device.serial phase ∈ (round.serve programmer past device).1 ↔
      phase.round = round ∧ device.Due phase := by
  rw [← phase?_eq_some_iff_due]
  rcases serve_narrated hsafe round device past with
    ⟨hphase, hserve⟩ | ⟨run, exchanges, hphase, _, hnarrated, _⟩
  · rw [hserve, hphase]
    exact iff_of_false List.not_mem_nil nofun
  · rw [hphase, Option.some.injEq]
    exact hnarrated.mem_phaseStarted

namespace Threads

variable {programmer : Programmer} {past : List Invocation} {device after : Device}
  {account : Events}

/-- A run attends to a device as if it were alone. -/
theorem Attended.eq_solitary (hprobe : programmer.PerProbe)
    (h : Attended programmer past device account after) :
    after = (solitary programmer past device).2 := by
  obtain ⟨earlier, later, hearlier, hlater, first, second, hfirst, hsecond, _, hafter⟩ := h
  have hservice : Service programmer past device (Events.calls first.1 ++ Events.calls second.1)
      after :=
    ⟨earlier, later, hearlier, hlater, first, second, hfirst, hsecond, rfl, hafter⟩
  rw [← hservice.eq_solitary hprobe]

/-- The phases that a run has for a device are those that are told of. -/
theorem Attended.mem_phaseStarted (hsafe : programmer.NeverCrashes)
    (h : Attended programmer past device account after) (phase : Phase) :
    .phaseStarted device.serial phase ∈ account ↔ device.Due phase := by
  obtain ⟨earlier, later, hearlier, hlater, first, second, rfl, rfl, rfl, rfl⟩ := h
  have hserial := Round.serve_serial .first earlier past device
  have hdue : (Round.first.serve earlier past device).2.Due .app ↔ device.Due .app :=
    Round.due_app_serve (hearlier.neverCrashes hsafe) past
  rw [List.mem_append, Round.mem_phaseStarted_serve (hearlier.neverCrashes hsafe)]
  generalize Round.first.serve earlier past device = first at hserial hdue ⊢
  rw [← hserial, Round.mem_phaseStarted_serve (hlater.neverCrashes hsafe)]
  cases phase with
  | app => simp [Phase.round, hdue]
  | _ => simp [Phase.round]

end Threads

/-! ## What a script says of a device -/

namespace Dummy

/-- The text is a way to write the script, under either name of the backend. -/
inductive Scripts : String → List Directive → Prop where
  | mk {name : String} {script : List Directive} {options : List (String × String)}
      (hname : name = "dummy" ∨ name = "dry-run")
      (hwritten : List.Forall₂ Directive.Written script options) :
      Scripts (scriptText name options) script

/-- A script lists an operation of the phase with the probe of the device, or the phase
programs the application core of a headset with a channel that is none. -/
def Dooms (script : List Directive) (device : Device) : Phase → Prop
  | .reboot => .fail .reset device.serial ∈ script
  | .net => .fail .programNet device.serial ∈ script
  | .app => .fail .programApp device.serial ∈ script ∨
      .fail .writeRegister device.serial ∈ script ∨ device.lacksChannel = true

/-- The programmer fails what the script says. -/
def Follows (dummy : Dummy) (script : List Directive) : Prop :=
  ∀ operation serial, dummy.fails operation serial = true ↔ .fail operation serial ∈ script

/-- The programmer that a script opens follows it. -/
theorem follows_follow (script : List Directive) : (({} : Dummy).follow script).Follows script := by
  intro operation serial
  rw [fails, List.contains_iff_mem, mem_failures_follow]
  exact or_iff_right List.not_mem_nil

/-- Which phases fail is what the script says. -/
theorem Follows.failsPhase {dummy : Dummy} {script : List Directive} (h : dummy.Follows script)
    {phase : Phase} {device : Device} (hpossible : phase.Possible device) :
    dummy.failsPhase phase device = true ↔ Dooms script device phase := by
  cases phase with
  | reboot => rw [failsPhase_reboot, h, Dooms]
  | net => rw [failsPhase_net hpossible, h, Dooms]
  | app =>
    rw [failsPhase_app hpossible, Bool.or_eq_true, Bool.or_eq_true, h, h, or_assoc, Dooms]

end Dummy

/-- What a run is asked to do with a device, and what comes of it with a script. -/
structure Directed (script : List Dummy.Directive) (asked : Device → Phase → Prop) (trace : Trace)
    (device after : Device) : Prop where
  serial : after.serial = device.serial
  /-- The phases that are asked for are run. -/
  ran : ∀ phase, trace.Ran device phase ↔ asked device phase
  /-- The flag of each tells what the script says of it. -/
  failed : ∀ phase : Phase, phase.flag after = .failed ↔
    trace.Ran device phase ∧ Dummy.Dooms script device phase
  done : ∀ phase : Phase, phase.flag after = .done ↔
    trace.Ran device phase ∧ ¬ Dummy.Dooms script device phase

/-- Records of the log change nothing. -/
theorem Directed.after_logs {script : List Dummy.Directive} {asked : Device → Phase → Prop}
    {trace : Trace} {device after : Device} (h : Directed script asked trace device after)
    (logs : List LogRecord) :
    Directed script asked (Command.logTrace logs ++ trace) device after := by
  have hran : ∀ phase, (Command.logTrace logs ++ trace).Ran device phase =
      trace.Ran device phase := by
    intro phase
    rw [Trace.Ran, Command.ofAuthor_worker_logTrace, Trace.Ran]
  refine { serial := h.serial, ran := ?_, failed := ?_, done := ?_ }
  · simp only [hran]
    exact h.ran
  · simp only [hran]
    exact h.failed
  · simp only [hran]
    exact h.done

/-! ## Prepared devices -/

namespace Selection

/-- The phases that the program command is asked for. -/
def asksProgram (selection : Selection) (images : Images) (device : Device) : Phase → Prop
  | .reboot => False
  | .net => selection.Matches device ∧ device.connected = true ∧
      (images.netFor device).isSome = true
  | .app => selection.Matches device ∧ device.connected = true ∧
      (images.appFor device).isSome = true

/-- The phases that the reboot command is asked for. -/
def asksReboot (selection : Selection) (device : Device) : Phase → Prop
  | .reboot => selection.Matches device ∧ device.connected = true
  | .net => False
  | .app => False

/-- The device is ready for the phases that are asked for, and none of them is over. -/
structure Readied (device prepared : Device) (asked : Phase → Prop) : Prop where
  serial : prepared.serial = device.serial
  lacksChannel : prepared.lacksChannel = device.lacksChannel
  due : ∀ phase, prepared.Due phase ↔ asked phase
  fresh : ∀ phase : Phase, phase.flag prepared ≠ .failed ∧ phase.flag prepared ≠ .done

/-- A device without flags has no phase that is over. -/
private theorem flag_of_unflagged {device : Device} (h : device.Unflagged) (phase : Phase) :
    phase.flag device = .notSelected := by
  cases phase with
  | reboot => exact h.rebootOnly
  | net => exact h.netProgrammed
  | app => exact h.appProgrammed

theorem readied_program (selection : Selection) (images : Images) {device : Device}
    (hunflagged : device.Unflagged) :
    Readied device (selection.prepareProgram images device)
      (selection.asksProgram images device) := by
  obtain ⟨appFile, netFile, hprepared⟩ := selection.prepareProgram_eq images device
  have hconnected : (selection.prepareProgram images device).connected = device.connected := by
    rw [hprepared]
  have hfresh : (selection.prepareProgram images device).Unflagged := by
    rw [hprepared]
    exact ⟨hunflagged.rebootOnly, hunflagged.appProgrammed, hunflagged.netProgrammed⟩
  refine { serial := ?_, lacksChannel := ?_, due := fun phase => ?_, fresh := fun phase => ?_ }
  · rw [hprepared]
  · rw [hprepared]
    rfl
  · rw [Device.Due, Round.phase?_eq_some_iff, hconnected]
    by_cases hmatches : selection.Matches device <;> cases phase <;>
      simp [Phase.round, Round.Demands, asksProgram, hfresh.rebootOnly,
        netImage_prepareProgram, appImage_prepareProgram, hmatches]
  · rw [flag_of_unflagged hfresh]
    decide

theorem readied_reboot (selection : Selection) {device : Device} (hunflagged : device.Unflagged) :
    Readied device (selection.prepareReboot device) (selection.asksReboot device) := by
  by_cases hmatches : selection.Matches device
  · rw [prepareReboot_of_matches hmatches]
    refine { serial := rfl, lacksChannel := rfl, due := fun phase => ?_, fresh := fun phase => ?_ }
    · rw [Device.Due, Round.phase?_eq_some_iff]
      cases phase <;> simp [Phase.round, Round.Demands, asksReboot, withoutImages, hmatches]
    · cases phase <;>
        simp [Phase.flag, withoutImages, hunflagged.netProgrammed, hunflagged.appProgrammed]
  · rw [prepareReboot_of_not_matches hmatches]
    have hfresh : (withoutImages device).Unflagged :=
      ⟨hunflagged.rebootOnly, hunflagged.appProgrammed, hunflagged.netProgrammed⟩
    refine { serial := rfl, lacksChannel := rfl, due := fun phase => ?_, fresh := fun phase => ?_ }
    · rw [Device.Due, Round.phase?_eq_some_iff]
      cases phase <;>
        simp [Phase.round, Round.Demands, asksReboot, hmatches, hunflagged.rebootOnly,
          withoutImages, Device.netImage, Device.appImage, nonEmpty]
    · rw [flag_of_unflagged hfresh]
      decide

theorem Readied.dooms {device prepared : Device} {asked : Phase → Prop}
    (h : Readied device prepared asked) (script : List Dummy.Directive) (phase : Phase) :
    Dummy.Dooms script prepared phase ↔ Dummy.Dooms script device phase := by
  cases phase <;> simp only [Dummy.Dooms, h.serial, h.lacksChannel]

end Selection

/-! ## What both rounds leave -/

/-- What the flag of something tells that may have failed. -/
theorem Flag.ofSuccess_not_iff (fails : Bool) :
    (Flag.ofSuccess (!fails) = .failed ↔ fails = true) ∧
      (Flag.ofSuccess (!fails) = .done ↔ ¬ fails = true) := by
  cases fails <;> decide

namespace Threads

variable {dummy : Dummy} {script : List Dummy.Directive} {past : List Invocation}
  {asked : Device → Phase → Prop}

/-- The flags of a device after a run are those that both rounds settle. -/
theorem Attended.flag {device after : Device} {account : Events}
    (h : Attended dummy.programmer past device account after) (phase : Phase) :
    phase.flag after = dummy.settled phase device := by
  rw [h.eq_solitary dummy.perProbe, Dummy.solitary_settle]
  cases phase <;> rfl

/-- What a run leaves on a device that was readied for it. -/
theorem Attended.directed (hfollows : dummy.Follows script) {device prepared after : Device}
    {trace : Trace} (hready : Selection.Readied device prepared (asked device))
    (h : Attended dummy.programmer past prepared (trace.ofAuthor (.worker prepared.serial)) after) :
    Directed script asked trace device after := by
  have hran : ∀ phase, trace.Ran device phase ↔ prepared.Due phase := by
    intro phase
    rw [Trace.Ran, ← hready.serial]
    exact h.mem_phaseStarted dummy.neverCrashes phase
  have hflag : ∀ phase : Phase,
      (phase.flag after = .failed ↔ prepared.Due phase ∧ Dummy.Dooms script device phase) ∧
      (phase.flag after = .done ↔ prepared.Due phase ∧ ¬ Dummy.Dooms script device phase) := by
    intro phase
    rw [h.flag phase, Dummy.settled]
    by_cases hdue : prepared.Due phase
    · obtain ⟨hfailed, hdone⟩ := Flag.ofSuccess_not_iff (dummy.failsPhase phase prepared)
      rw [if_pos hdue, hfailed, hdone, hfollows.failsPhase (Round.possible_of_phase? hdue),
        hready.dooms]
      simp [hdue]
    · obtain ⟨hfailed, hdone⟩ := hready.fresh phase
      simp [hdue, hfailed, hdone]
  refine { serial := h.serial.trans hready.serial, ran := ?_, failed := ?_, done := ?_ }
  · exact fun phase => (hran phase).trans (hready.due phase)
  · intro phase
    rw [hran]
    exact (hflag phase).1
  · intro phase
    rw [hran]
    exact (hflag phase).2

/-- What every run leaves on devices that were readied for it. -/
theorem directed_of_comesTo (hfollows : dummy.Follows script) {listed : List Device}
    {prepare : Device → Device} (hnodup : ((listed.map prepare).map Device.serial).Nodup)
    (hready : ∀ device ∈ listed, Selection.Readied device (prepare device) (asked device))
    {mode : Mode} {run : FleetRun}
    (h : ComesTo (.of dummy.programmer mode past (listed.map prepare)) run) :
    run.crash = none ∧ List.Forall₂ (Directed script asked run.trace) listed run.devices := by
  have hrecounted := recounted_of_comesTo dummy.neverCrashes hnodup h
  have hattended := List.forall₂_map_left_iff.1 hrecounted.attended
  refine ⟨(specified_of_comesTo dummy.neverCrashes hnodup h).crash, ?_⟩
  refine ((List.forall₂_and_left listed run.devices).2 ⟨fun _ hmem => hmem, hattended⟩).imp ?_
  rintro device after ⟨hmem, hdevice⟩
  exact hdevice.directed hfollows (hready device hmem)

/-! ## Scripts that differ in resets -/

/-- Runs with scripts that differ in resets leave the same devices, where none waits for a
reboot. -/
theorem devices_eq_of_comesTo {other : Dummy} {otherScript : List Dummy.Directive}
    (hfollows : dummy.Follows script) (hother : other.Follows otherScript)
    (hsame : ∀ operation serial, operation ≠ .reset →
      (.fail operation serial ∈ script ↔ .fail operation serial ∈ otherScript))
    {devices : List Device} (hnodup : (devices.map Device.serial).Nodup)
    (hdue : ∀ device ∈ devices, ¬ device.Due .reboot) {mode otherMode : Mode}
    {run otherRun : FleetRun} (h : ComesTo (.of dummy.programmer mode past devices) run)
    (h' : ComesTo (.of other.programmer otherMode past devices) otherRun) :
    run.devices = otherRun.devices := by
  obtain ⟨_, hleft, _⟩ := solitary_of_comesTo dummy.neverCrashes dummy.perProbe hnodup h
  obtain ⟨_, hleft', _⟩ := solitary_of_comesTo other.neverCrashes other.perProbe hnodup h'
  rw [hleft, hleft']
  apply List.map_congr_left
  intro device hmem
  have hsettled : ∀ phase, dummy.settled phase device = other.settled phase device := by
    intro phase
    unfold Dummy.settled
    split
    · next hphase =>
      have hdooms : Dummy.Dooms script device phase ↔ Dummy.Dooms otherScript device phase := by
        cases phase with
        | reboot => exact absurd hphase (hdue device hmem)
        | net => exact hsame .programNet _ nofun
        | app =>
          exact or_congr (hsame .programApp _ nofun)
            (or_congr_left (hsame .writeRegister _ nofun))
      have hpossible := Round.possible_of_phase? hphase
      have hfails : dummy.failsPhase phase device = other.failsPhase phase device := by
        rw [Bool.eq_iff_iff, hfollows.failsPhase hpossible, hother.failsPhase hpossible, hdooms]
      rw [hfails]
    · rfl
  simp only [Dummy.solitary_settle, hsettled]

end Threads

/-! ## Commands with a script -/

/-- The text of a script opens a programmer that follows it. -/
theorem Dummy.Scripts.opened {text : String} {script : List Directive} (h : Scripts text script) :
    ∃ dummy : Dummy,
      Backend.openText text =
        ([⟨.warn, "Using the dummy programmer: no devices will be touched"⟩],
          .ok (.dummy dummy)) ∧
      dummy.Follows script := by
  cases h with
  | mk hname hwritten =>
    exact ⟨_, openText_scriptText hwritten hname, follows_follow script⟩

/-- A command prints a summary of devices that are left as the script says. -/
def Command.Obeys (script : List Dummy.Directive) (asked : Device → Phase → Prop)
    (listed : List Device) (report : Report) : Prop :=
  ∃ left, report.output = "\n" ++ Table.summary left ∧
    List.Forall₂ (Directed script asked report.trace) listed left

theorem Command.Obeys.after_logs {script : List Dummy.Directive} {asked : Device → Phase → Prop}
    {listed : List Device} {report : Report} (h : Obeys script asked listed report)
    (logs : List LogRecord) : Obeys script asked listed (report.after logs) := by
  obtain ⟨left, houtput, hleft⟩ := h
  exact ⟨left, houtput, hleft.imp fun _ _ hdevice => hdevice.after_logs logs⟩

/-- With the programmer that a text opens a command does what it does with that programmer. -/
theorem Command.Obeys.withBackend {script : List Dummy.Directive} {asked : Device → Phase → Prop}
    {listed : List Device} {text : String} {logs : List LogRecord} {dummy : Dummy}
    (hopened : Backend.openText text = (logs, .ok (.dummy dummy))) {use : Programmer → Report}
    (h : Obeys script asked listed (use dummy.programmer)) (host : Host) :
    Obeys script asked listed (withBackend host text use) := by
  rw [Command.withBackend, hopened]
  exact h.after_logs logs

namespace Threads

variable {dummy : Dummy} {script : List Dummy.Directive} {asked : Device → Phase → Prop}
  {listed : List Device} {prepare : Device → Device}

/-- Whatever the threads of a run over prepared devices come to, they come to an end, and
leave the devices as the script says. -/
def Obeyed (dummy : Dummy) (mode : Mode) (script : List Dummy.Directive)
    (asked : Device → Phase → Prop) (listed prepared : List Device) : Prop :=
  Ends (.of dummy.programmer mode [] prepared) ∧
    ∀ run, ComesTo (.of dummy.programmer mode [] prepared) run →
      run.crash = none ∧ List.Forall₂ (Directed script asked run.trace) listed run.devices

/-- What a command does with devices that were readied for it. -/
theorem obeyed_of_readied (hfollows : dummy.Follows script)
    (hnodup : ((listed.map prepare).map Device.serial).Nodup)
    (hready : ∀ device ∈ listed, Selection.Readied device (prepare device) (asked device))
    (mode : Mode) {selected : Nat} (hselected : selected ≠ 0) :
    Command.Obeys script asked listed
        (Command.runFleet dummy.programmer mode selected (listed.map prepare)) ∧
      Obeyed dummy mode script asked listed (listed.map prepare) := by
  refine ⟨?_, ends _, fun run => directed_of_comesTo hfollows hnodup hready⟩
  obtain ⟨_, hleft⟩ := directed_of_comesTo hfollows hnodup hready
    (comesTo_run dummy.programmer mode [] (listed.map prepare))
  rw [Command.runFleet_of_selected dummy.neverCrashes hnodup hselected]
  exact ⟨_, rfl, hleft.imp fun _ _ hdevice => hdevice.after_logs _⟩

/-- A text that writes a script opens the simulated programmer, and both commands leave
every device as the script says, as does whatever else the threads of their runs may come
to. Resets that are listed do not matter to the program command. -/
theorem scripts_obeyed {text : String} (htext : Dummy.Scripts text script) {host : Host}
    {path : String} {logs : List LogRecord}
    (hload : Command.loadDevices host path = (logs, .ok listed)) {selection : Selection}
    (hselected : ∃ device ∈ listed, selection.Matches device) (images : Images) (mode : Mode) :
    ∃ dummy : Dummy,
      Backend.openText text =
        ([⟨.warn, "Using the dummy programmer: no devices will be touched"⟩],
          .ok (.dummy dummy)) ∧
      Command.Obeys script (selection.asksProgram images) listed
        (Command.withBackend host text fun programmer =>
          Command.program host programmer mode path selection images) ∧
      Obeyed dummy mode script (selection.asksProgram images) listed
        (selection.forProgram images listed).2 ∧
      Command.Obeys script selection.asksReboot listed
        (Command.withBackend host text fun programmer =>
          Command.reboot host programmer mode path selection) ∧
      Obeyed dummy mode script selection.asksReboot listed (selection.forReboot listed) ∧
      ∀ otherText otherScript, Dummy.Scripts otherText otherScript →
        (∀ operation serial, operation ≠ .reset →
          (.fail operation serial ∈ script ↔ .fail operation serial ∈ otherScript)) →
        ∃ (records : List LogRecord) (other : Dummy),
          Backend.openText otherText = (records, .ok (.dummy other)) ∧
          ∀ otherMode run otherRun,
            ComesTo (.of dummy.programmer mode [] (selection.forProgram images listed).2) run →
            ComesTo (.of other.programmer otherMode []
              (selection.forProgram images listed).2) otherRun →
            run.devices = otherRun.devices := by
  obtain ⟨dummy, hopened, hfollows⟩ := htext.opened
  have hloaded := Command.loaded_of_loadDevices hload
  have hcount := Selection.count_pos hselected
  have hprogramNodup := Selection.Prepared.nodup (.program selection images) hloaded
  have hrebootNodup := Selection.Prepared.nodup (.reboot selection) hloaded
  have hready : ∀ device ∈ listed, Selection.Readied device
      (selection.prepareProgram images device) (selection.asksProgram images device) :=
    fun device hmem => selection.readied_program images (hloaded.unflagged device hmem)
  obtain ⟨hprogram, hprogramRuns⟩ :=
    obeyed_of_readied hfollows hprogramNodup hready mode hcount
  obtain ⟨hreboot, hrebootRuns⟩ := obeyed_of_readied hfollows hrebootNodup
    (fun device hmem => selection.readied_reboot (hloaded.unflagged device hmem)) mode hcount
  refine ⟨dummy, hopened, .withBackend hopened ?_ host, hprogramRuns,
    .withBackend hopened ?_ host, hrebootRuns, ?_⟩
  · rw [Command.program_of_loaded hload]
    exact hprogram.after_logs _
  · rw [Command.reboot_of_loaded hload]
    exact hreboot.after_logs _
  · intro otherText otherScript hotherText hsame
    obtain ⟨other, hotherOpened, hother⟩ := hotherText.opened
    refine ⟨_, other, hotherOpened, fun otherMode run otherRun => ?_⟩
    refine devices_eq_of_comesTo hfollows hother hsame hprogramNodup ?_
    intro prepared hmem hdue
    obtain ⟨device, hlisted, rfl⟩ := List.mem_map.1 hmem
    exact ((hready device hlisted).due .reboot).1 hdue

/-! ## A script of two failures -/

/-- The network core of the first kit fails, and so does the reset of the second. -/
def twoFailures : List Dummy.Directive := [.fail .programNet 1, .delay 100, .fail .reset 2]

theorem scripts_twoFailures :
    Dummy.Scripts "dummy:fail=net@0x1,delay=100,fail=reset@2" twoFailures := by
  have hnet : Serial.Written ['0', 'x', '1'] 1 := .hexadecimal (.inl rfl) ⟨nofun, rfl⟩
  have hdelay : Number.Writes 10 ['1', '0', '0'] 100 := ⟨nofun, rfl⟩
  have hreset : Serial.Written ['2'] 2 := .decimal ⟨nofun, rfl⟩
  have htext : "dummy:fail=net@0x1,delay=100,fail=reset@2" = Dummy.scriptText "dummy"
      [("fail", String.ofList (Operation.programNet.name.toList ++ ['@', '0', 'x', '1'])),
        ("delay", String.ofList ['1', '0', '0']),
        ("fail", String.ofList (Operation.reset.name.toList ++ ['@', '2']))] := by
    decide +kernel
  rw [htext]
  exact .mk (.inl rfl) (.cons (.fail hnet) (.cons (.delay hdelay (by decide))
    (.cons (.fail hreset) .nil)))

/-- The program command fails at the network core of the headset, and the reboot command at
the gateway. -/
theorem scripts_obeyed_twoKits :
    (Command.withBackend kitsHost "dummy:fail=net@0x1,delay=100,fail=reset@2" fun programmer =>
        Command.program kitsHost programmer .sequential "kits.toml" {} {}).output =
      "\n" ++ String.join
        ["snr          device     channel    only reboot    core app       core net      \n",
          "-------------------------------------------------------------------------------\n",
          "1            headset    left       Not selected   Selected done  Selected ERR  \n",
          "2            gateway               Not selected   Not selected   Selected done \n"] ∧
      ∃ dummy : Dummy,
        Backend.openText "dummy:fail=net@0x1,delay=100,fail=reset@2" =
          ([⟨.warn, "Using the dummy programmer: no devices will be touched"⟩],
            .ok (.dummy dummy)) ∧
        Obeyed dummy .sequential twoFailures (({} : Selection).asksProgram {}) twoKits
          (({} : Selection).forProgram {} twoKits).2 ∧
        Obeyed dummy .sequential twoFailures ({} : Selection).asksReboot twoKits
          (({} : Selection).forReboot twoKits) := by
  obtain ⟨dummy, hopened, _, hprogram, _, hreboot, _⟩ := scripts_obeyed scripts_twoFailures
    loadDevices_kitsHost (⟨_, List.mem_cons_self, by decide⟩ :
      ∃ device ∈ twoKits, ({} : Selection).Matches device) {} .sequential
  refine ⟨?_, dummy, hopened, hprogram, hreboot⟩
  simp only [Command.program_of_loaded loadDevices_kitsHost]
  decide +kernel

end Threads

end FlashFleet
