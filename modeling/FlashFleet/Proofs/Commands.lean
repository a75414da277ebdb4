import FlashFleet.Command
import FlashFleet.Proofs.Exclusion
import FlashFleet.Proofs.Listing
import FlashFleet.Proofs.Specification
import Mathlib.Data.List.Basic
/-!
# What commands run

A command loads a device file, prepares the devices for what it does with those that
are selected, and runs over all of them. The devices of a file are of distinct probes
and have nothing done to them yet. What a command says before and after its run is in
the log, so that the invocations of a command are those of its run.

## Main results

* `loaded_of_loadDevices` — what holds of the devices of a file.
* `Selection.selects_iff` — which devices are selected.
* `runFleet_of_selected` — with a programmer that never crashes a command comes to
  what its run comes to.
* `perm_of_ofProbe` — invocations are the same, up to their order, when they are the
  same for each probe.
-/

namespace FlashFleet

/-! ## The devices of a file -/

/-- Nothing is to be done to the device, and nothing was. -/
structure Device.Unflagged (device : Device) : Prop where
  rebootOnly : device.rebootOnly = .notSelected
  appProgrammed : device.appProgrammed = .notSelected
  netProgrammed : device.netProgrammed = .notSelected

theorem Device.Unflagged.not_pending {device : Device} (h : device.Unflagged) :
    device.rebootOnly ≠ .pending := by
  rw [h.rebootOnly]
  decide

/-- What holds of the devices of a file. -/
structure DeviceFile.Loaded (devices : List Device) : Prop where
  nodup : (devices.map Device.serial).Nodup
  unflagged : ∀ device ∈ devices, device.Unflagged

namespace DeviceFile

/-- The device of an entry is not flagged. -/
theorem Entry.unflagged (entry : Entry) : entry.device.Unflagged := by
  have h : Carries entry entry.device := carries_iff.2 rfl
  exact ⟨h.rebootOnly, h.appProgrammed, h.netProgrammed⟩

/-- A device file lists distinct probes, with nothing done to them. -/
theorem loaded_of_parse {text : String} {devices : List Device} (h : parse text = .ok devices) :
    Loaded devices := by
  refine ⟨nodup_of_parse h, ?_⟩
  unfold parse at h
  split at h
  · cases h
  · next document hparse =>
    split at h
    · cases h
    · next hentries =>
      split at h
      · cases h
      · cases h
        obtain ⟨listed, _, rfl⟩ := (entries_eq_ok_iff (Toml.distinct_of_parse hparse)).1 hentries
        intro device hdevice
        obtain ⟨entry, _, rfl⟩ := List.mem_map.1 hdevice
        exact entry.unflagged

end DeviceFile

/-- A file that holds a text is read as that text. -/
theorem Host.readText_of_readBytes {host : Host} {path text : String}
    (h : host.readBytes path = .ok text.toUTF8) : host.readText path = .ok text := by
  have hdecoded : String.fromUTF8? text.toUTF8 = some text := dif_pos text.isValidUTF8
  simp only [readText, h, bind, Except.bind, hdecoded]

/-- A file with a text that lists devices is loaded. -/
theorem Command.loadDevices_of_parse {host : Host} {path text : String} {devices : List Device}
    (hread : host.readBytes path = .ok text.toUTF8) (hparse : DeviceFile.parse text = .ok devices) :
    loadDevices host path =
      ([⟨.debug, "Loaded " ++ toString devices.length ++ " device(s) from " ++ path⟩],
        .ok devices) := by
  simp only [loadDevices, Host.readText_of_readBytes hread, hparse]

theorem Command.loaded_of_loadDevices {host : Host} {path : String} {logs : List LogRecord}
    {devices : List Device} (h : loadDevices host path = (logs, .ok devices)) :
    DeviceFile.Loaded devices := by
  unfold loadDevices at h
  split at h
  · cases h
  · split at h
    · cases h
    · next hparse =>
      cases h
      exact DeviceFile.loaded_of_parse hparse

/-- Devices of a file that were prepared for a command are of distinct probes. -/
theorem Selection.Prepared.nodup {listed devices : List Device} (h : Prepared listed devices)
    (hloaded : DeviceFile.Loaded listed) : (devices.map Device.serial).Nodup := by
  rw [h.serials]
  exact hloaded.nodup

/-! ## Selected devices -/

namespace Selection

/-- The device is of the kind that is asked for, if one is, and has one of the serials,
if there are any. -/
def Matches (selection : Selection) (device : Device) : Prop :=
  (∀ kind, selection.kind = some kind → device.kind = kind) ∧
    (selection.serials = [] ∨ device.serial ∈ selection.serials)

theorem selects_iff {selection : Selection} {device : Device} :
    selection.selects device = true ↔ selection.Matches device := by
  obtain ⟨kind, serials⟩ := selection
  have hkind : kind.all (· == device.kind) = true ↔
      ∀ wanted, kind = some wanted → device.kind = wanted := by
    cases kind with
    | none => simp
    | some wanted =>
      rw [Option.all_some, beq_iff_eq]
      constructor
      · rintro heq kind hkind
        rw [← heq]
        exact Option.some.inj hkind
      · exact fun hall => (hall wanted rfl).symm
  have hserials : (serials.isEmpty || serials.contains device.serial) = true ↔
      serials = [] ∨ device.serial ∈ serials := by
    simp
  unfold selects Matches
  rw [Bool.and_eq_true, hkind, hserials]

instance (selection : Selection) (device : Device) : Decidable (selection.Matches device) :=
  decidable_of_iff _ selects_iff

/-- A command that has selected a device counts it. -/
theorem count_pos {selection : Selection} {devices : List Device}
    (h : ∃ device ∈ devices, selection.Matches device) : selection.count devices ≠ 0 := by
  obtain ⟨device, hmem, hmatches⟩ := h
  have hpos : 0 < selection.count devices :=
    List.countP_pos_iff.2 ⟨device, hmem, selects_iff.2 hmatches⟩
  omega

end Selection

/-! ## What is said in the log -/

namespace Command

/-- Log records are of no invocation. -/
theorem dialogue_logTrace (logs : List LogRecord) (trace : Trace) (serial : Serial) :
    (logTrace logs ++ trace).dialogue serial = trace.dialogue serial := by
  have hlogs : Events.about serial (logs.map .log) = [] := by
    apply Events.about_eq_nil
    intro event hevent call hcall
    obtain ⟨record, _, rfl⟩ := List.mem_map.1 hevent
    cases hcall
  rw [Trace.dialogue, Trace.events_append, logTrace, Trace.events_authoredBy,
    Events.about_append, hlogs]
  rfl

theorem invocations_logTrace (logs : List LogRecord) (trace : Trace) :
    (logTrace logs ++ trace).invocations = trace.invocations := by
  have hlogs : Events.invocations (logs.map .log) = [] := by
    rw [← Events.invocations_calls, Events.calls_map_log]
    rfl
  rw [Trace.invocations_append, logTrace, Trace.invocations_authoredBy, hlogs]
  rfl

/-- What is answered is answered, whatever was said in the log before. -/
theorem truthful_logTrace {programmer : Programmer} {past : List Invocation} {trace : Trace}
    (logs : List LogRecord) (h : Truthful programmer past trace.events) :
    Truthful programmer past (logTrace logs ++ trace).events := by
  have hnone : Events.invocations (logs.map .log) = [] := by
    rw [← Events.invocations_calls, Events.calls_map_log]
    rfl
  rw [Trace.events_append, logTrace, Trace.events_authoredBy]
  have hlogs : Truthful programmer past (logs.map .log) := by
    intro before after call fault hsplit
    have hmem : .ended call fault ∈ logs.map Event.log := by
      rw [hsplit]
      simp
    obtain ⟨record, _, hrecord⟩ := List.mem_map.1 hmem
    cases hrecord
  apply hlogs.append
  intro before after call fault hsplit
  obtain ⟨earlier, between, rfl, hbetween, hanswer⟩ := h before after call fault hsplit
  refine ⟨logs.map .log ++ earlier, between, by simp, hbetween, ?_⟩
  rw [Events.invocations_append, hnone]
  exact hanswer

variable {programmer : Programmer} {mode : Mode} {devices : List Device}

/-- With a programmer that never crashes a command comes to what its run comes to. -/
theorem runFleet_of_selected (hsafe : programmer.NeverCrashes)
    (hnodup : (devices.map Device.serial).Nodup) {selected : Nat} (hselected : selected ≠ 0) :
    runFleet programmer mode selected devices =
      { output := "\n" ++ Table.summary (Fleet.run programmer mode [] devices).devices
        trace := logTrace [selectionRecord selected devices.length mode] ++
          (Fleet.run programmer mode [] devices).trace
        error := verdict (Fleet.run programmer mode [] devices).devices } := by
  have hcrash := (Threads.specified_of_comesTo hsafe hnodup
    (Threads.comesTo_run programmer mode [] devices)).crash
  simp only [runFleet, if_neg hselected, hcrash]

/-- What the program command does with a file that is loaded. -/
theorem program_of_loaded {host : Host} {path : String} {logs : List LogRecord}
    (hload : loadDevices host path = (logs, .ok devices)) (programmer : Programmer) (mode : Mode)
    (selection : Selection) (images : Images) :
    program host programmer mode path selection images =
      (runFleet programmer mode (selection.count devices)
        (selection.forProgram images devices).2).after
          (logs ++ (selection.forProgram images devices).1) := by
  simp only [program, hload]

/-- What the reboot command does with a file that is loaded. -/
theorem reboot_of_loaded {host : Host} {path : String} {logs : List LogRecord}
    (hload : loadDevices host path = (logs, .ok devices)) (programmer : Programmer) (mode : Mode)
    (selection : Selection) :
    reboot host programmer mode path selection =
      (runFleet programmer mode (selection.count devices) (selection.forReboot devices)).after
        logs := by
  simp only [reboot, hload]

end Command

/-! ## Invocations by their probes -/

/-- Invocations that are the same for each probe are the same up to their order. -/
theorem perm_of_ofProbe {a b : List Invocation}
    (h : ∀ serial, ofProbe serial a = ofProbe serial b) : a.Perm b := by
  apply List.perm_iff_count.2
  intro call
  have hown : (call.serial == call.serial) = true := beq_self_eq_true _
  have hcount : ∀ calls : List Invocation, (ofProbe call.serial calls).count call =
      calls.count call :=
    fun calls => List.count_filter hown
  rw [← hcount a, ← hcount b, h]

section Asked

variable {devices : List Device} {asked : Device → List Invocation}
  (hown : ∀ device, ∀ call ∈ asked device, call.serial = device.serial)
include hown

/-- What is asked of devices is asked of their probes. -/
theorem ofProbe_flatMap_of_not_mem {serial : Serial}
    (h : ∀ device ∈ devices, device.serial = serial → asked device = []) :
    ofProbe serial (devices.flatMap asked) = [] := by
  rw [ofProbe, List.filter_eq_nil_iff]
  intro call hcall
  obtain ⟨device, hmem, hasked⟩ := List.mem_flatMap.1 hcall
  have hserial := hown device call hasked
  simp only [beq_iff_eq]
  intro heq
  rw [h device hmem (hserial.symm.trans heq)] at hasked
  cases hasked

/-- Where no probe is listed twice, what is asked of a probe is asked of its device. -/
theorem ofProbe_flatMap (hnodup : (devices.map Device.serial).Nodup) {device : Device}
    (hmem : device ∈ devices) :
    ofProbe device.serial (devices.flatMap asked) = asked device := by
  induction devices with
  | nil => cases hmem
  | cons head rest ih =>
    rw [List.map_cons, List.nodup_cons] at hnodup
    rw [List.flatMap_cons, ofProbe_append]
    rcases List.mem_cons.1 hmem with rfl | hmem
    · have hall : ofProbe device.serial (asked device) = asked device :=
        List.filter_eq_self.2 fun call hcall => by simp [hown device call hcall]
      have hnone : ofProbe device.serial (rest.flatMap asked) = [] := by
        apply ofProbe_flatMap_of_not_mem hown
        intro other hother hserial
        exact absurd (hserial ▸ List.mem_map_of_mem hother) hnodup.1
      rw [hall, hnone, List.append_nil]
    · have hnone : ofProbe device.serial (asked head) = [] := by
        rw [ofProbe, List.filter_eq_nil_iff]
        intro call hcall
        simp only [hown head call hcall, beq_iff_eq]
        intro hserial
        exact hnodup.1 (hserial ▸ List.mem_map_of_mem hmem)
      rw [hnone, List.nil_append]
      exact ih hnodup.2 hmem

/-- What is said in a trace to the devices of a list, and to nobody else, is what is
asked of them, up to the order. Of the invocations only some may count. -/
theorem Trace.perm_flatMap {trace : Trace} {counts : Invocation → Bool}
    (hnodup : (devices.map Device.serial).Nodup)
    (hlisted : ∀ device ∈ devices,
      (Events.invocations (trace.dialogue device.serial)).filter counts = asked device)
    (hothers : ∀ serial, (∀ device ∈ devices, device.serial ≠ serial) →
      trace.dialogue serial = []) :
    (trace.invocations.filter counts).Perm (devices.flatMap asked) := by
  apply perm_of_ofProbe
  intro serial
  have hprobe : ofProbe serial (trace.invocations.filter counts) =
      (Events.invocations (trace.dialogue serial)).filter counts := by
    rw [Trace.dialogue, Events.invocations_about]
    exact List.filter_comm ..
  rw [hprobe]
  by_cases hmem : ∃ device ∈ devices, device.serial = serial
  · obtain ⟨device, hmem, rfl⟩ := hmem
    rw [hlisted device hmem, ofProbe_flatMap hown hnodup hmem]
  · have hnone : ∀ device ∈ devices, device.serial ≠ serial :=
      fun device hdevice heq => hmem ⟨device, hdevice, heq⟩
    rw [hothers serial hnone, ofProbe_flatMap_of_not_mem hown
      fun device hdevice heq => absurd heq (hnone device hdevice)]
    rfl

end Asked

/-! ## Runs over prepared devices -/

/-- A device that is not flagged for a reboot is left as it is if it is not connected or
there are no images for it. -/
theorem Served.of_idle {device after : Device} {exchanges : List Exchange}
    (h : Served device exchanges after) (hpending : device.rebootOnly ≠ .pending)
    (hidle : device.connected = false ∨ (device.netImage = none ∧ device.appImage = none)) :
    exchanges = [] ∧ after = device := by
  cases h with
  | disconnected hconnected => exact ⟨rfl, rfl⟩
  | rebooted hconnected hflagged fault last => exact absurd hflagged hpending
  | programmed hconnected _ hnet happ =>
    obtain ⟨hnetImage, happImage⟩ := hidle.resolve_left (by rw [hconnected]; exact Bool.noConfusion)
    cases hnet with
    | programmed himage fault last =>
      rw [hnetImage] at himage
      cases himage
    | without _ =>
      cases happ with
      | without hnone => exact ⟨rfl, rfl⟩
      | programmed _ himage hattempt last =>
        rw [happImage] at himage
        cases himage

namespace Threads

variable {programmer : Programmer} {past : List Invocation} {listed : List Device}
  {prepare : Device → Device} {run : FleetRun}
  (hserial : ∀ device, (prepare device).serial = device.serial)
  (h : Specified programmer past (listed.map prepare) run)
include hserial h

/-- Each device that was listed is served as it was prepared. -/
theorem Specified.prepared {position : Nat} {device : Device}
    (hdevice : listed[position]? = some device) :
    ∃ after exchanges, run.devices[position]? = some after ∧
      run.trace.dialogue device.serial = shown exchanges ∧
      Served (prepare device) exchanges after := by
  have hprepared : (listed.map prepare)[position]? = some (prepare device) := by
    rw [List.getElem?_map, hdevice]
    rfl
  obtain ⟨after, exchanges, hafter, hshown, hserved⟩ := h.served _ _ hprepared
  rw [hserial] at hshown
  exact ⟨after, exchanges, hafter, hshown, hserved⟩

theorem Specified.prepared_of_mem {device : Device} (hmem : device ∈ listed) :
    ∃ after exchanges, run.trace.dialogue device.serial = shown exchanges ∧
      Served (prepare device) exchanges after := by
  have hserved := h.of_mem (List.mem_map_of_mem hmem)
  rwa [hserial] at hserved

/-- Nothing is said to the probes of others. -/
theorem Specified.others {serial : Serial} (hnone : ∀ device ∈ listed, device.serial ≠ serial) :
    run.trace.dialogue serial = [] := by
  apply h.silent
  intro device hmem
  obtain ⟨other, hother, rfl⟩ := List.mem_map.1 hmem
  rw [hserial]
  exact hnone other hother

end Threads

end FlashFleet
