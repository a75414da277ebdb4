import FlashFleet.Proofs.Service
/-!
# Devices do not matter to each other

With a programmer that never crashes and answers each probe by itself, what a run
says to a probe and what becomes of its device is decided by the device alone. It
does not matter which other devices there are, what becomes of them, whether
they are gone through one by one, and in which order the threads move. The
programmer may well remember what each probe was asked before.

## Main results

* `Service.eq_solitary` — a run serves a device as if it were alone.
* `fleet_isolated` — every run over a fleet agrees with the sequential one, and for
  each device with a run of that device alone.
-/

namespace FlashFleet

/-! ## A device that is alone -/

/-- A round keeps the probe. -/
theorem Round.serve_serial (round : Round) (programmer : Programmer) (past : List Invocation)
    (device : Device) : (round.serve programmer past device).2.serial = device.serial := by
  unfold serve
  split
  · rfl
  · exact Phase.run_serial ..

/-- What a round says to a probe and makes of its device depends on what comes of
the invocations of that probe. -/
theorem Round.serve_congr {round : Round} {programmer other : Programmer} {device : Device}
    (hsame : ∀ past call, call.serial = device.serial →
      (programmer.respond past call).outcome = (other.respond past call).outcome)
    (past : List Invocation) :
    Events.calls (round.serve programmer past device).1 =
        Events.calls (round.serve other past device).1 ∧
      (round.serve programmer past device).2 = (round.serve other past device).2 := by
  unfold serve
  cases round.phase? device with
  | none => exact ⟨rfl, rfl⟩
  | some phase => exact Phase.run_congr hsame past

/-- What both rounds say to the probe of a device that is alone, and the device
after them. -/
def solitary (programmer : Programmer) (past : List Invocation) (device : Device) :
    Events × Device :=
  let first := Round.first.serve programmer past device
  let second := Round.second.serve programmer (past ++ Events.invocations first.1) first.2
  (Events.calls first.1 ++ Events.calls second.1, second.2)

namespace Threads

variable {programmer : Programmer} {past : List Invocation} {devices : List Device}

/-- A programmer that answers each probe by itself cannot be told from one that
gives answers of it after the same invocations of the probe. -/
theorem outcome_of_echoes (hprobe : programmer.PerProbe) {other : Programmer} {serial : Serial}
    (h : other.Echoes programmer (Alike serial)) (own : List Invocation) (call : Invocation)
    (hserial : call.serial = serial) :
    (other.respond own call).outcome = (programmer.respond own call).outcome := by
  obtain ⟨global, halike, hanswer⟩ := h own call
  rw [hanswer]
  apply hprobe
  rw [hserial]
  exact halike.symm

/-- A run serves a device as if it were alone. -/
theorem Service.eq_solitary (hprobe : programmer.PerProbe) {device after : Device}
    {dialogue : Events} (h : Service programmer past device dialogue after) :
    (dialogue, after) = solitary programmer past device := by
  obtain ⟨earlier, later, hearlier, hlater, first, second, rfl, rfl, rfl, rfl⟩ := h
  obtain ⟨hcalls, hdevice⟩ :=
    @Round.serve_congr .first _ _ _ (outcome_of_echoes hprobe hearlier) past
  have hbegun : Events.invocations (Round.first.serve earlier past device).1 =
      Events.invocations (Round.first.serve programmer past device).1 := by
    rw [← Events.invocations_calls, hcalls, Events.invocations_calls]
  have hsame : ∀ own call,
      call.serial = (Round.first.serve programmer past device).2.serial →
      (later.respond own call).outcome = (programmer.respond own call).outcome := by
    intro own call hserial
    rw [Round.serve_serial] at hserial
    exact outcome_of_echoes hprobe hlater own call hserial
  rw [hcalls, hdevice, hbegun]
  obtain ⟨hcalls', hdevice'⟩ := @Round.serve_congr .second _ _ _ hsame
    (past ++ Events.invocations (Round.first.serve programmer past device).1)
  rw [hcalls', hdevice']
  rfl

/-! ## Every run of a fleet -/

/-- Whatever the threads come to, they have served each device as if it were
alone. -/
theorem solitary_of_comesTo (hsafe : programmer.NeverCrashes) (hprobe : programmer.PerProbe)
    (hnodup : (devices.map Device.serial).Nodup) {mode : Mode} {run : FleetRun}
    (h : ComesTo (.of programmer mode past devices) run) :
    run.crash = none ∧
      run.devices = devices.map (fun device => (solitary programmer past device).2) ∧
      (∀ device ∈ devices,
        run.trace.dialogue device.serial = (solitary programmer past device).1) ∧
      ∀ serial, (∀ device ∈ devices, device.serial ≠ serial) →
        run.trace.dialogue serial = [] := by
  obtain ⟨s, hreach, hrun⟩ := h
  obtain ⟨hpost, rfl⟩ := outcome_of_neverCrashes hsafe hreach hrun
  have hserved : ∀ (position : Nat) (device : Device), devices[position]? = some device →
      ∃ station, (s.stations .second)[position]? = some station ∧
        (s.trace.dialogue device.serial, station.device) = solitary programmer past device := by
    intro position device hdevice
    obtain ⟨station, hget, hservice⟩ := service_of_ended hnodup hreach hpost hdevice
    exact ⟨station, hget, hservice.eq_solitary hprobe⟩
  refine ⟨rfl, ?_, ?_, ?_⟩
  · apply List.ext_getElem?
    intro position
    rw [List.getElem?_map, List.getElem?_map]
    cases hdevice : devices[position]? with
    | none =>
      have hsize := (orderly_of_reachable hreach).size .second (by rw [hpost]; exact .inr rfl)
      have hle : (s.stations .second).length ≤ position := by
        rw [hsize]
        exact List.getElem?_eq_none_iff.1 hdevice
      rw [List.getElem?_eq_none_iff.2 hle]
      rfl
    | some device =>
      obtain ⟨station, hget, hsame⟩ := hserved position device hdevice
      rw [hget, Option.map_some, Option.map_some, ← hsame]
  · intro device hmem
    obtain ⟨position, hdevice⟩ := List.getElem?_of_mem hmem
    obtain ⟨station, _, hsame⟩ := hserved position device hdevice
    rw [← hsame]
  · intro serial hnone
    exact dialogue_eq_nil hreach hnone

/-- A run does to each device what the others do not matter to. -/
structure Isolated (programmer : Programmer) (past : List Invocation) (devices : List Device)
    (run : FleetRun) : Prop where
  /-- The run does not crash. -/
  crash : run.crash = none
  /-- It leaves the devices as a sequential run does. -/
  left : run.devices = (Fleet.run programmer .sequential past devices).devices
  /-- It says to every probe what a sequential run does, and is answered alike. -/
  dialogue : ∀ serial, run.trace.dialogue serial =
    (Fleet.run programmer .sequential past devices).trace.dialogue serial
  /-- Each device is left as a run of that device alone leaves it, and its probe is
  told the same. -/
  alone : ∀ (position : Nat) (device : Device), devices[position]? = some device →
    ∀ mode, ∃ after, run.devices[position]? = some after ∧
      (Fleet.run programmer mode past [device]).devices = [after] ∧
      run.trace.dialogue device.serial =
        (Fleet.run programmer mode past [device]).trace.dialogue device.serial

theorem isolated_of_comesTo (hsafe : programmer.NeverCrashes) (hprobe : programmer.PerProbe)
    (hnodup : (devices.map Device.serial).Nodup) {mode : Mode} {run : FleetRun}
    (h : ComesTo (.of programmer mode past devices) run) :
    Isolated programmer past devices run := by
  obtain ⟨hcrash, hdevices, hdialogue, hsilent⟩ := solitary_of_comesTo hsafe hprobe hnodup h
  obtain ⟨_, hdevices', hdialogue', hsilent'⟩ :=
    solitary_of_comesTo hsafe hprobe hnodup (comesTo_run programmer .sequential past devices)
  refine { crash := hcrash, left := hdevices.trans hdevices'.symm, dialogue := ?_, alone := ?_ }
  · intro serial
    by_cases hknown : ∃ device ∈ devices, device.serial = serial
    · obtain ⟨device, hmem, rfl⟩ := hknown
      rw [hdialogue device hmem, hdialogue' device hmem]
    · have hnone : ∀ device ∈ devices, device.serial ≠ serial :=
        fun device hmem hserial => hknown ⟨device, hmem, hserial⟩
      rw [hsilent serial hnone, hsilent' serial hnone]
  · intro position device hdevice mode
    have hmem := List.mem_of_getElem? hdevice
    obtain ⟨_, hleft, halone, _⟩ :=
      solitary_of_comesTo hsafe hprobe (by simp)
        (comesTo_run programmer mode past [device])
    refine ⟨(solitary programmer past device).2, ?_, hleft, ?_⟩
    · rw [hdevices, List.getElem?_map, hdevice]
      rfl
    · rw [hdialogue device hmem, halone device List.mem_cons_self]

/-- Every run over a fleet, and whatever else its threads may come to, leaves each
device as a run of that device alone does, with the same said to its probe. -/
theorem fleet_isolated (hsafe : programmer.NeverCrashes) (hprobe : programmer.PerProbe)
    (hnodup : (devices.map Device.serial).Nodup) (past : List Invocation) (mode : Mode) :
    Isolated programmer past devices (Fleet.run programmer mode past devices) ∧
      ∀ run, ComesTo (.of programmer mode past devices) run →
        Isolated programmer past devices run :=
  ⟨isolated_of_comesTo hsafe hprobe hnodup (comesTo_run programmer mode past devices),
    fun _ => isolated_of_comesTo hsafe hprobe hnodup⟩

/-! ## A programmer with a memory -/

/-- A programmer that fails at every second invocation of a probe. -/
def weary : Programmer where
  respond past call :=
    if (ofProbe call.serial past).length % 2 = 1 then
      { outcome := .failed (.toolFailed call.operation.verb call.serial none) }
    else {}

theorem weary_neverCrashes : weary.NeverCrashes := by
  intro past call text
  simp only [weary]
  split <;> simp

theorem weary_perProbe : weary.PerProbe := by
  intro past other call hsame
  simp only [weary, hsame]

theorem fleet_isolated_twoKits :
    anyFailure (Fleet.run weary (.parallel Parallel.ascending) [] twoKits).devices = true ∧
      Isolated weary [] twoKits (Fleet.run weary (.parallel Parallel.ascending) [] twoKits) :=
  ⟨by decide +kernel,
    (fleet_isolated weary_neverCrashes weary_perProbe (by decide) []
      (.parallel Parallel.ascending)).1⟩

end Threads

end FlashFleet
