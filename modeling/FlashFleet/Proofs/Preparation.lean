import FlashFleet.CommandLine.Run
import FlashFleet.Proofs.Loading
import FlashFleet.Proofs.Narration
import FlashFleet.Proofs.Opening
import FlashFleet.Proofs.Printing
/-!
# What has to be there before a run

A request to program or to reboot is refused where the backend cannot be opened, where the
file cannot be read, holds no text or no document, or a document that does not fit or repeats
a serial, and where no listed device is selected. Whatever is missing is found out before
anything is touched: no invocation is made, nothing is reported and nothing printed. Where
nothing is missing both rounds take place, and the summary is what is printed.

## Main results

* `Backend.Opened.neverCrashes` — a backend that was opened answers every invocation.
* `untouched_of_unprepared` — a request that is refused touches nothing.
* `performed_of_prepared` — a request that is not refused is carried out.
* `requests_decided` — both, for every command line with such a request.
-/

namespace FlashFleet

/-! ## Backends answer -/

theorem Nrfjprog.neverCrashes (tool : Nrfjprog) (launcher : Launcher) :
    (tool.programmer launcher).NeverCrashes := by
  intro past call text
  simp only [programmer, respond]
  split <;> nofun

/-- A backend that was opened answers every invocation. -/
theorem Backend.Opened.neverCrashes (opened : Opened) (launcher : Launcher) :
    (opened.programmer launcher).NeverCrashes := by
  cases opened with
  | nrfjprog tool => exact tool.neverCrashes launcher
  | dummy simulated => exact simulated.neverCrashes

/-! ## Requests over devices -/

namespace CommandLine

/-- The target of a request that does something with devices. -/
def Request.target? : Request → Option Target
  | .program target _ => some target
  | .reboot target => some target
  | .listDevices _ => none
  | .listProgrammers => none

/-- The devices as the request has them prepared. -/
def Request.prepare : Request → List Device → List Device
  | .program target images, devices => (target.selection.forProgram images devices).2
  | .reboot target, devices => target.selection.forReboot devices
  | .listDevices _, devices => devices
  | .listProgrammers, devices => devices

end CommandLine

namespace Command

/-- The file holds the text. -/
def Holds (host : Host) (path text : String) : Prop :=
  ∃ bytes, host.readBytes path = .ok bytes ∧ String.fromUTF8? bytes = some text

/-- The file holds a text whose document lists the entries. -/
def Lists (host : Host) (path : String) (listed : List DeviceFile.Entry) : Prop :=
  ∃ text document, Holds host path text ∧ Toml.parse? text = some document ∧
    DeviceFile.Fits document listed

/-- Something is missing for a run: the backend, the file, its text, its document, the form of
the document, a probe for each entry, or a device to run on. -/
inductive Unprepared (host : Host) (programmer path : String) (selection : Selection) : Prop where
  | unopened (h : Backend.Unopened programmer)
  | unreadable {refusal : Refusal} (h : host.readBytes path = .error refusal)
  | noText {bytes : ByteArray} (hread : host.readBytes path = .ok bytes)
      (h : String.fromUTF8? bytes = none)
  | noDocument {text : String} (hholds : Holds host path text) (h : Toml.parse? text = none)
  | misfit {text : String} {document : Toml.Entries} (hholds : Holds host path text)
      (hdocument : Toml.parse? text = some document)
      (h : ∀ listed, ¬ DeviceFile.Fits document listed)
  | repeated {listed : List DeviceFile.Entry} (hlists : Lists host path listed)
      (h : ¬ (listed.map DeviceFile.Entry.serial).Nodup)
  | unselected {listed : List DeviceFile.Entry} (hlists : Lists host path listed)
      (h : ∀ entry ∈ listed, ¬ selection.Matches entry.device)

/-- The command failed and has done nothing but write to the log. -/
structure Untouched (report : Report) : Prop where
  failed : report.error ≠ none
  output : report.output = ""
  invocations : report.trace.invocations = []
  launches : report.launches = []
  /-- No progress is reported, since nothing happened but log records. -/
  remarks : ∀ event ∈ report.trace.events, ∃ record, event = .log record

/-- The run took place over the devices with the backend, and its summary is printed, whether or
not devices failed. -/
structure Performed (host : Host) (opened : Backend.Opened) (mode : Mode) (devices : List Device)
    (report : Report) (run : FleetRun) : Prop extends Concludes report run where
  comesTo : Threads.ComesTo (.of (opened.programmer host.launch) mode [] devices) run
  /-- Both rounds are reported to begin and to be over. -/
  rounds : Events.roundReports run.trace.events =
    [.roundStarted 1 (Round.first.count devices), .roundFinished 1,
      .roundStarted 2 (Round.second.count devices), .roundFinished 2]
  launches : report.launches = opened.launches run.trace.invocations

/-! ## What a file comes to -/

/-- Nothing can be run on the file: it is not loaded, or none of its devices is selected. -/
def Fails (host : Host) (path : String) (selection : Selection) : Prop :=
  (∃ error, loadDevices host path = ([], .error error)) ∨
    ∃ logs devices, loadDevices host path = (logs, .ok devices) ∧ selection.count devices = 0

theorem readText_eq_ok_iff {host : Host} {path text : String} :
    host.readText path = .ok text ↔ Holds host path text := by
  constructor
  · intro h
    obtain ⟨bytes, hread, h⟩ := bind_eq_ok h
    split at h
    · next found hfound =>
      cases h
      exact ⟨bytes, hread, hfound⟩
    · cases h
  · rintro ⟨bytes, hread, htext⟩
    simp only [Host.readText, hread, bind, Except.bind, htext]

theorem loadDevices_of_holds {host : Host} {path text : String} (h : Holds host path text) :
    loadDevices host path =
      match DeviceFile.parse text with
      | .error error => ([], .error error)
      | .ok devices =>
        ([⟨.debug, "Loaded " ++ toString devices.length ++ " device(s) from " ++ path⟩],
          .ok devices) := by
  cases hparse : DeviceFile.parse text with
  | error error => simp only [loadDevices, readText_eq_ok_iff.2 h, hparse]
  | ok devices => simp only [loadDevices, readText_eq_ok_iff.2 h, hparse]

theorem fails_of_refusal {host : Host} {path : String} {selection : Selection} {refusal : Refusal}
    (h : host.readText path = .error refusal) : Fails host path selection := by
  refine .inl ⟨.unreadable path refusal.message, ?_⟩
  simp only [loadDevices, h]

theorem fails_of_error {host : Host} {path text : String} {selection : Selection}
    {error : DeviceFile.Error} (hholds : Holds host path text)
    (h : DeviceFile.parse text = .error error) : Fails host path selection := by
  refine .inl ⟨error, ?_⟩
  rw [loadDevices_of_holds hholds, h]

theorem count_eq_zero_iff {selection : Selection} {listed : List DeviceFile.Entry} :
    selection.count (listed.map DeviceFile.Entry.device) = 0 ↔
      ∀ entry ∈ listed, ¬ selection.Matches entry.device := by
  simp only [Selection.count, List.countP_eq_zero, List.forall_mem_map, Selection.selects_iff]

/-- A file of entries of distinct probes is loaded as their devices. -/
theorem loadDevices_of_lists {host : Host} {path : String} {listed : List DeviceFile.Entry}
    (hlists : Lists host path listed) (hnodup : (listed.map DeviceFile.Entry.serial).Nodup) :
    ∃ logs, loadDevices host path = (logs, .ok (listed.map DeviceFile.Entry.device)) := by
  obtain ⟨text, document, hholds, hdocument, hfits⟩ := hlists
  have hload := loadDevices_of_holds hholds
  rw [DeviceFile.parse_of_nodup hdocument hfits hnodup] at hload
  exact ⟨_, hload⟩

/-- A file of entries that repeat a serial, or of which none is selected, fails. -/
theorem fails_of_lists {host : Host} {path : String} {selection : Selection}
    {listed : List DeviceFile.Entry} (hlists : Lists host path listed)
    (h : (listed.map DeviceFile.Entry.serial).Nodup →
      ∀ entry ∈ listed, ¬ selection.Matches entry.device) : Fails host path selection := by
  by_cases hnodup : (listed.map DeviceFile.Entry.serial).Nodup
  · obtain ⟨logs, hload⟩ := loadDevices_of_lists hlists hnodup
    exact .inr ⟨logs, _, hload, count_eq_zero_iff.2 (h hnodup)⟩
  · obtain ⟨text, document, hholds, hdocument, hfits⟩ := hlists
    obtain ⟨_, _, _, _, _, _, hrefused⟩ := DeviceFile.parse_of_not_nodup hdocument hfits hnodup
    exact fails_of_error hholds hrefused

/-- Unless something is missing the file lists entries of distinct probes, of which one is
selected. -/
theorem lists_of_prepared {host : Host} {programmer path : String} {selection : Selection}
    (h : ¬ Unprepared host programmer path selection) :
    ∃ listed, Lists host path listed ∧ (listed.map DeviceFile.Entry.serial).Nodup ∧
      ∃ entry ∈ listed, selection.Matches entry.device := by
  cases hread : host.readBytes path with
  | error refusal => exact absurd (.unreadable hread) h
  | ok bytes =>
    cases htext : String.fromUTF8? bytes with
    | none => exact absurd (.noText hread htext) h
    | some text =>
      have hholds : Holds host path text := ⟨bytes, hread, htext⟩
      cases hdocument : Toml.parse? text with
      | none => exact absurd (.noDocument hholds hdocument) h
      | some document =>
        by_cases hfits : ∃ listed, DeviceFile.Fits document listed
        · obtain ⟨listed, hfits⟩ := hfits
          have hlists : Lists host path listed := ⟨text, document, hholds, hdocument, hfits⟩
          refine ⟨listed, hlists, ?_, ?_⟩
          · by_contra hrepeats
            exact h (.repeated hlists hrepeats)
          · by_contra hnone
            refine h (.unselected hlists fun entry hmem hmatches => ?_)
            exact hnone ⟨entry, hmem, hmatches⟩
        · exact absurd (.misfit hholds hdocument (not_exists.1 hfits)) h

/-- Where something is missing no backend is opened, or nothing can be run on the file. -/
theorem unopened_or_fails {host : Host} {programmer path : String} {selection : Selection}
    (h : Unprepared host programmer path selection) :
    Backend.Unopened programmer ∨ Fails host path selection := by
  cases h with
  | unopened h => exact .inl h
  | @unreadable refusal h =>
    have hread : host.readText path = .error refusal := by
      simp only [Host.readText, h, bind, Except.bind]
    exact .inr (fails_of_refusal hread)
  | noText hread h =>
    have hread : host.readText path = .error .notText := by
      simp only [Host.readText, hread, bind, Except.bind, h]
    exact .inr (fails_of_refusal hread)
  | noDocument hholds h => exact .inr (fails_of_error hholds (DeviceFile.parse_of_no_document h))
  | misfit hholds hdocument h =>
    obtain ⟨cause, hrefused⟩ := DeviceFile.parse_of_misfit hdocument h
    exact .inr (fails_of_error hholds hrefused)
  | repeated hlists h => exact .inr (fails_of_lists hlists fun hnodup => absurd hnodup h)
  | unselected hlists h => exact .inr (fails_of_lists hlists fun _ => h)

/-! ## Requests -/

/-- What both requests come to with a programmer: the file is loaded, its devices are prepared,
and the run goes over them. -/
def onFile (host : Host) (programmer : Programmer) (mode : Mode) (path : String)
    (selection : Selection) (prepare : List Device → List LogRecord × List Device) : Report :=
  match loadDevices host path with
  | (logs, .error error) => { error := some (.deviceFile error) : Report }.after logs
  | (logs, .ok devices) =>
    (runFleet programmer mode (selection.count devices) (prepare devices).2).after
      (logs ++ (prepare devices).1)

theorem program_eq_onFile (host : Host) (programmer : Programmer) (mode : Mode) (path : String)
    (selection : Selection) (images : Images) :
    program host programmer mode path selection images =
      onFile host programmer mode path selection (selection.forProgram images) := by
  unfold program onFile
  rcases loadDevices host path with ⟨logs, error | devices⟩
  · rfl
  · rfl

theorem reboot_eq_onFile (host : Host) (programmer : Programmer) (mode : Mode) (path : String)
    (selection : Selection) :
    reboot host programmer mode path selection =
      onFile host programmer mode path selection
        fun devices => ([], selection.forReboot devices) := by
  unfold reboot onFile
  rcases loadDevices host path with ⟨logs, error | devices⟩
  · rfl
  · change _ = Report.after (logs ++ []) _
    rw [List.append_nil]

theorem Untouched.after {report : Report} (h : Untouched report) (logs : List LogRecord) :
    Untouched (report.after logs) where
  failed := h.failed
  output := h.output
  launches := h.launches
  invocations := (invocations_logTrace logs report.trace).trans h.invocations
  remarks := by
    intro event hevent
    rw [Report.after, Trace.events_append, logTrace, Trace.events_authoredBy] at hevent
    rcases List.mem_append.1 hevent with hevent | hevent
    · obtain ⟨record, _, rfl⟩ := List.mem_map.1 hevent
      exact ⟨record, rfl⟩
    · exact h.remarks event hevent

/-- A failure before anything is done. -/
theorem untouched_of_error (error : Error) : Untouched { error := some error } :=
  ⟨nofun, rfl, rfl, rfl, nofun⟩

/-- A file that nothing can be run on is left at that. -/
theorem Fails.untouched {host : Host} {path : String} {selection : Selection}
    (h : Fails host path selection) (programmer : Programmer) (mode : Mode)
    (prepare : List Device → List LogRecord × List Device) :
    Untouched (onFile host programmer mode path selection prepare) := by
  unfold onFile
  rcases h with ⟨error, hload⟩ | ⟨logs, devices, hload, hcount⟩
  · rw [hload]
    exact (untouched_of_error _).after []
  · rw [hload]
    simp only [hcount, runFleet, if_true]
    exact (untouched_of_error _).after _

/-- A request that is refused touches nothing. -/
theorem untouched_of_unprepared {host : Host} {text path : String} {selection : Selection}
    (h : Unprepared host text path selection) (mode : Mode)
    (prepare : List Device → List LogRecord × List Device) :
    Untouched (withBackend host text fun programmer =>
      onFile host programmer mode path selection prepare) := by
  unfold withBackend
  split
  · exact (untouched_of_error _).after _
  · next logs opened hopened =>
    have hfails : Fails host path selection := by
      refine (unopened_or_fails h).resolve_left fun hunopened => ?_
      obtain ⟨error, herror⟩ := Backend.openText_eq_error_iff.2 hunopened
      rw [hopened] at herror
      cases herror
    have huntouched := hfails.untouched (opened.programmer host.launch) mode prepare
    refine Untouched.after ?_ logs
    refine { huntouched with launches := ?_ }
    simp only [huntouched.invocations]
    cases opened <;> rfl

theorem Performed.after {host : Host} {opened : Backend.Opened} {mode : Mode}
    {devices : List Device} {report : Report} {run : FleetRun}
    (h : Performed host opened mode devices report run) (logs : List LogRecord) :
    Performed host opened mode devices (report.after logs) run :=
  { h.toConcludes.after logs with
    comesTo := h.comesTo
    rounds := h.rounds
    launches := h.launches }

/-- A run over devices of distinct probes, behind what was said when the file was loaded. -/
theorem performed_runFleet (host : Host) (opened : Backend.Opened) (mode : Mode)
    {devices : List Device} (hnodup : (devices.map Device.serial).Nodup) {selected : Nat}
    (hselected : selected ≠ 0) (logs : List LogRecord) {report : Report}
    (hreport : report =
      (runFleet (opened.programmer host.launch) mode selected devices).after logs) :
    Performed host opened mode devices
      { report with launches := opened.launches report.trace.invocations }
      (Fleet.run (opened.programmer host.launch) mode [] devices) := by
  have hsafe := opened.neverCrashes host.launch
  have hcomes := Threads.comesTo_run (opened.programmer host.launch) mode [] devices
  have hconcludes := (concludes_runFleet hsafe hnodup hselected mode).after logs
  rw [← hreport] at hconcludes
  obtain ⟨records, htrace⟩ := hconcludes.trace
  have hreported := Threads.reported_of_comesTo hsafe hnodup hcomes
  refine { hconcludes with comesTo := hcomes, rounds := hreported.rounds, launches := ?_ }
  rw [htrace, invocations_logTrace]

/-- Where nothing is missing the run takes place, over the devices of the entries. -/
theorem performed_of_prepared {host : Host} {text path : String} {selection : Selection}
    (h : ¬ Unprepared host text path selection) (mode : Mode)
    {prepare : List Device → List LogRecord × List Device}
    (hprepare : ∀ devices, Selection.Prepared devices (prepare devices).2) :
    ∃ logs opened listed run, Backend.openText text = (logs, .ok opened) ∧
      Lists host path listed ∧
      Performed host opened mode (prepare (listed.map DeviceFile.Entry.device)).2
        (withBackend host text fun programmer =>
          onFile host programmer mode path selection prepare) run := by
  obtain ⟨listed, hlists, hdistinct, entry, hmem, hmatches⟩ := lists_of_prepared h
  obtain ⟨records, hload⟩ := loadDevices_of_lists hlists hdistinct
  rcases hopened : Backend.openText text with ⟨logs, error | opened⟩
  · exact absurd (.unopened (Backend.openText_eq_error_iff.1 ⟨error, by rw [hopened]⟩)) h
  have hnodup := (hprepare (listed.map DeviceFile.Entry.device)).nodup
    (Command.loaded_of_loadDevices hload)
  have hcount : selection.count (listed.map DeviceFile.Entry.device) ≠ 0 :=
    Selection.count_pos ⟨entry.device, List.mem_map_of_mem hmem, hmatches⟩
  refine ⟨logs, opened, listed, Fleet.run (opened.programmer host.launch) mode []
    (prepare (listed.map DeviceFile.Entry.device)).2, rfl, hlists, ?_⟩
  simp only [withBackend, hopened, onFile, hload]
  exact (performed_runFleet host opened mode hnodup hcount _ rfl).after logs

end Command

/-! ## Command lines -/

namespace CommandLine

/-- What a request comes to that does something with devices. -/
theorem run_of_target {invocation : Invocation} {target : Target}
    (h : invocation.request.target? = some target) (host : Host)
    (scheduler : Parallel.Scheduler) :
    ∃ prepare : List Device → List LogRecord × List Device,
      (∀ devices, (prepare devices).2 = invocation.request.prepare devices) ∧
      invocation.run host scheduler =
        Command.withBackend host invocation.programmer fun programmer =>
          Command.onFile host programmer (target.mode scheduler) target.devices target.selection
            prepare := by
  obtain ⟨verbosity, programmer, request⟩ := invocation
  cases request with
  | program asked images =>
    cases h
    refine ⟨target.selection.forProgram images, fun _ => rfl, ?_⟩
    simp only [Invocation.run, Command.program_eq_onFile]
  | reboot asked =>
    cases h
    refine ⟨fun devices => ([], target.selection.forReboot devices), fun _ => rfl, ?_⟩
    simp only [Invocation.run, Command.reboot_eq_onFile]
  | listDevices path => cases h
  | listProgrammers => cases h

theorem Request.prepared {request : Request} {target : Target}
    (h : request.target? = some target) (devices : List Device) :
    Selection.Prepared devices (request.prepare devices) := by
  cases request with
  | program asked images => exact .program asked.selection images
  | reboot asked => exact .reboot asked.selection
  | listDevices path => cases h
  | listProgrammers => cases h

/-- Whatever the machine holds and in whatever order the threads move, a command line with a
request over devices touches nothing and fails with exit code one where something is missing
for the run, and where nothing is missing the run takes place. -/
theorem requests_decided {arguments : List String} {invocation : Invocation}
    (hparse : parse arguments = .ok invocation) {target : Target}
    (htarget : invocation.request.target? = some target) (host : Host)
    (scheduler : Parallel.Scheduler) :
    ∃ report, run host scheduler arguments = .command report ∧
      (Command.Unprepared host invocation.programmer target.devices target.selection →
        Command.Untouched report ∧ (Ending.command report).exitCode = 1) ∧
      (¬ Command.Unprepared host invocation.programmer target.devices target.selection →
        ∃ logs opened listed run,
          Backend.openText invocation.programmer = (logs, .ok opened) ∧
          Command.Lists host target.devices listed ∧
          Command.Performed host opened (target.mode scheduler)
            (invocation.request.prepare (listed.map DeviceFile.Entry.device)) report run) := by
  obtain ⟨prepare, hprepare, hrun⟩ := run_of_target htarget host scheduler
  refine ⟨invocation.run host scheduler, by simp only [run, hparse], fun h => ?_, fun h => ?_⟩
  · have huntouched : Command.Untouched (invocation.run host scheduler) := by
      rw [hrun]
      exact Command.untouched_of_unprepared h _ _
    refine ⟨huntouched, ?_⟩
    rw [Ending.exitCode, if_pos (Option.isSome_iff_ne_none.2 huntouched.failed)]
  · have hprepared : ∀ devices, Selection.Prepared devices (prepare devices).2 := by
      intro devices
      rw [hprepare]
      exact Request.prepared htarget devices
    obtain ⟨logs, opened, listed, run, hopened, hlists, hperformed⟩ :=
      Command.performed_of_prepared h (target.mode scheduler) hprepared
    rw [hprepare, ← hrun] at hperformed
    exact ⟨logs, opened, listed, run, hopened, hlists, hperformed⟩

/-! ## A machine with a file that repeats a serial -/

/-- A machine with a file of two kits, and a file that repeats a serial. -/
def twoFilesHost : Host where
  readBytes path :=
    if path = "kits.toml" then .ok Threads.twoKitsText.toUTF8
    else if path = "again.toml" then .ok DeviceFile.repeatedText.toUTF8
    else .error .notFound
  launch _ _ := .error .notFound

theorem unprepared_again : Command.Unprepared twoFilesHost "dummy" "again.toml" {} := by
  have hholds : Command.Holds twoFilesHost "again.toml" DeviceFile.repeatedText :=
    Command.readText_eq_ok_iff.1 (Host.readText_of_readBytes rfl)
  exact .repeated ⟨_, _, hholds, DeviceFile.parse?_repeatedText, DeviceFile.fits_repeated⟩
    (by decide)

/-- The repeated serial stands in the file. -/
def againKits : List String := ["reboot", "-d", "again.toml", "-p", "dummy"]

/-- The network core of the gateway fails. -/
def failingKits : List String := ["program", "-p", "dummy:fail=net@2", "-d", "kits.toml"]

/-- What is printed then. -/
def failingSummary : String :=
  "\n" ++ String.join
    ["snr          device     channel    only reboot    core app       core net      \n",
      "-------------------------------------------------------------------------------\n",
      "1            headset    left       Not selected   Selected done  Selected done \n",
      "2            gateway               Not selected   Not selected   Selected ERR  \n"]

/-- The repeated serial is found before anything is done. With the other file the run takes
place, although a device fails, and the summary tells so. -/
theorem requests_decided_kits :
    (∃ report, run twoFilesHost Parallel.ascending againKits = .command report ∧
        Command.Untouched report ∧ (Ending.command report).exitCode = 1) ∧
      ∃ report opened listed done,
        run twoFilesHost Parallel.ascending failingKits = .command report ∧
        Command.Lists twoFilesHost "kits.toml" listed ∧
        Command.Performed twoFilesHost opened (.parallel Parallel.ascending)
          (({} : Selection).forProgram {} (listed.map DeviceFile.Entry.device)).2 report done ∧
        report.output = failingSummary := by
  constructor
  · have hparse : parse againKits = .ok ⟨0, "dummy", .reboot ⟨"again.toml", {}, false⟩⟩ := by
      decide +kernel
    obtain ⟨report, hrun, hrefused, -⟩ :=
      requests_decided hparse rfl twoFilesHost Parallel.ascending
    exact ⟨report, hrun, hrefused unprepared_again⟩
  · have hparse : parse failingKits =
        .ok ⟨0, "dummy:fail=net@2", .program ⟨"kits.toml", {}, false⟩ {}⟩ := by
      decide +kernel
    have houtput : (run twoFilesHost Parallel.ascending failingKits).output = failingSummary := by
      decide +kernel
    obtain ⟨report, hrun, hrefused, hperformed⟩ :=
      requests_decided hparse rfl twoFilesHost Parallel.ascending
    rw [hrun, Ending.output] at houtput
    have hprepared :
        ¬ Command.Unprepared twoFilesHost "dummy:fail=net@2" "kits.toml" {} := by
      intro h
      have hsilent := houtput.symm.trans (hrefused h).1.output
      revert hsilent
      decide +kernel
    obtain ⟨_, opened, listed, done, _, hlists, hdone⟩ := hperformed hprepared
    exact ⟨report, opened, listed, done, hrun, hlists, hdone, houtput⟩

end CommandLine

end FlashFleet
