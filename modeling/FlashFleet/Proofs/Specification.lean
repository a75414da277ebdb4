import FlashFleet.Proofs.Answers
import FlashFleet.Proofs.Ending
import FlashFleet.Proofs.Service
/-!
# What a run is meant to do

What a run asks of a probe, in which order, and what it makes of the device is
told by the device as it was before the run and by the answers of the
programmer. A disconnected device is left alone. One that waits for a reboot is
reset, and reset again at the end of its phase. Any other device has its network
core programmed if it has an image for it, and, unless it is in reboot-only mode,
its application core and then its identity words, if it has an image for that
one. Each phase ends with a reset and has a flag of its own, and a phase that
failed does not keep the next from its work.

## Main results

* `Service.served` — what is done to a device is what it asks for.
* `fleet_specified` — every run does so to every device, and to no other probe.
-/

namespace FlashFleet

/-! ## The exchanges with a device -/

/-- What the first round says to a device that does not wait for a reboot, and the
flag of its network core afterwards. -/
inductive NetServed (device : Device) : List Exchange → Flag → Prop where
  | without (himage : device.netImage = none) : NetServed device [] device.netProgrammed
  | programmed {image : ImagePath} (himage : device.netImage = some image)
      (fault last : Option Fault) :
      NetServed device
        [⟨.program .network image device.serial .sectors, fault⟩, ⟨.reset device.serial, last⟩]
        (.ofSuccess fault.isNone)

/-- What the second round says to a device, and the flag of its application core
afterwards. The words come after the image, up to the first that fails. -/
inductive AppServed (device : Device) : List Exchange → Flag → Prop where
  | without (hnone : device.rebootOnly ≠ .notSelected ∨ device.appImage = none) :
      AppServed device [] device.appProgrammed
  | programmed {image : ImagePath} {exchanges : List Exchange}
      (hselected : device.rebootOnly = .notSelected) (himage : device.appImage = some image)
      (hattempt : Attempt
        (.program .application image device.serial .chip :: Uicr.words device) exchanges)
      (last : Option Fault) :
      AppServed device (exchanges ++ [⟨.reset device.serial, last⟩])
        (.ofSuccess ((firstFault? exchanges).isNone && (Uicr.objection? device).isNone))

/-- What a run says to a device, and the device afterwards. -/
inductive Served (device : Device) : List Exchange → Device → Prop where
  | disconnected (hconnected : device.connected = false) : Served device [] device
  | rebooted (hconnected : device.connected = true) (hpending : device.rebootOnly = .pending)
      (fault last : Option Fault) :
      Served device [⟨.reset device.serial, fault⟩, ⟨.reset device.serial, last⟩]
        { device with rebootOnly := .ofSuccess fault.isNone }
  | programmed (hconnected : device.connected = true) (hpending : device.rebootOnly ≠ .pending)
      {net app : List Exchange} {netFlag appFlag : Flag} (hnet : NetServed device net netFlag)
      (happ : AppServed device app appFlag) :
      Served device (net ++ app)
        { device with netProgrammed := netFlag, appProgrammed := appFlag }

/-! ## What the rounds do -/

/-- A plan of one invocation comes to one exchange. -/
theorem Attempt.single {call : Invocation} {exchanges : List Exchange}
    (h : Attempt [call] exchanges) : ∃ fault, exchanges = [⟨call, fault⟩] := by
  cases h with
  | broken call plan fault => exact ⟨some fault, rfl⟩
  | continued hrest =>
    cases hrest with
    | complete => exact ⟨none, rfl⟩

namespace Round

variable {round : Round} {programmer : Programmer} {device : Device}

theorem serve_of_none (hphase : round.phase? device = none) (past : List Invocation) :
    round.serve programmer past device = ([], device) := by
  simp [serve, hphase]

/-- What a round with a phase for the device says to it, and what it makes of
it. -/
theorem serve_of_some (hsafe : programmer.NeverCrashes) {phase : Phase}
    (hphase : round.phase? device = some phase) (past : List Invocation) :
    ∃ exchanges last,
      Events.calls (round.serve programmer past device).1 =
        shown (exchanges ++ [⟨.reset device.serial, last⟩]) ∧
      Attempt (phase.plan device) exchanges ∧
      (round.serve programmer past device).2 =
        phase.record
          (.ofSuccess ((firstFault? exchanges).or (phase.objection? device)).isNone) device := by
  obtain ⟨exchanges, last, hcalls, hattempt, hdevice, _⟩ :=
    Phase.run_served hsafe (possible_of_phase? hphase) past
  refine ⟨exchanges, last, ?_, hattempt, ?_⟩
  · simp only [serve, hphase]
    exact hcalls
  · simp only [serve, hphase]
    exact hdevice

/-- A disconnected device is left alone. -/
theorem serve_of_disconnected (hconnected : device.connected = false) (past : List Invocation) :
    round.serve programmer past device = ([], device) := by
  apply serve_of_none
  simp [phase?, hconnected]

/-- The first round resets a device that waits for a reboot twice. -/
theorem serve_of_pending (hsafe : programmer.NeverCrashes) (hconnected : device.connected = true)
    (hpending : device.rebootOnly = .pending) (past : List Invocation) :
    ∃ fault last,
      Events.calls (Round.first.serve programmer past device).1 =
        shown [⟨.reset device.serial, fault⟩, ⟨.reset device.serial, last⟩] ∧
      (Round.first.serve programmer past device).2 =
        { device with rebootOnly := .ofSuccess fault.isNone } := by
  have hphase : Round.first.phase? device = some .reboot :=
    phase?_eq_some_iff.2 ⟨hconnected, hpending⟩
  obtain ⟨exchanges, last, hcalls, hattempt, hdevice⟩ := serve_of_some hsafe hphase past
  obtain ⟨fault, rfl⟩ := hattempt.single
  refine ⟨fault, last, hcalls, ?_⟩
  rw [hdevice]
  cases fault <;> rfl

/-- The second round leaves alone a device that is in reboot-only mode. -/
theorem serve_of_selected (hselected : device.rebootOnly ≠ .notSelected)
    (past : List Invocation) : Round.second.serve programmer past device = ([], device) := by
  apply serve_of_none
  cases hphase : Round.second.phase? device with
  | none => rfl
  | some phase =>
    obtain ⟨_, hdemands⟩ := phase?_eq_some_iff.1 hphase
    cases phase with
    | app => exact absurd hdemands.1 hselected
    | net => exact hdemands.elim
    | reboot => exact hdemands.elim

/-- The first round programs the network core of any other device. -/
theorem serve_net (hsafe : programmer.NeverCrashes) (hconnected : device.connected = true)
    (hpending : device.rebootOnly ≠ .pending) (past : List Invocation) :
    ∃ exchanges flag,
      Events.calls (Round.first.serve programmer past device).1 = shown exchanges ∧
      NetServed device exchanges flag ∧
      (Round.first.serve programmer past device).2 = { device with netProgrammed := flag } := by
  cases himage : device.netImage with
  | none =>
    have hphase : Round.first.phase? device = none := by
      simp [phase?, work?, hconnected, hpending, himage]
    rw [serve_of_none hphase]
    exact ⟨[], _, rfl, .without himage, rfl⟩
  | some image =>
    have hphase : Round.first.phase? device = some .net :=
      phase?_eq_some_iff.2 ⟨hconnected, hpending, by rw [himage]; rfl⟩
    obtain ⟨exchanges, last, hcalls, hattempt, hdevice⟩ := serve_of_some hsafe hphase past
    simp only [Phase.plan, himage] at hattempt
    obtain ⟨fault, rfl⟩ := hattempt.single
    refine ⟨_, _, hcalls, .programmed himage fault last, ?_⟩
    rw [hdevice]
    cases fault <;> rfl

/-- The second round programs the application core, whatever became of the
network core. -/
theorem serve_app (hsafe : programmer.NeverCrashes) (hconnected : device.connected = true)
    (netFlag : Flag) (past : List Invocation) :
    ∃ exchanges flag,
      Events.calls
        (Round.second.serve programmer past { device with netProgrammed := netFlag }).1 =
          shown exchanges ∧
      AppServed device exchanges flag ∧
      (Round.second.serve programmer past { device with netProgrammed := netFlag }).2 =
        { device with netProgrammed := netFlag, appProgrammed := flag } := by
  by_cases hdue : device.rebootOnly = .notSelected ∧ device.appImage.isSome = true
  · obtain ⟨hselected, hsome⟩ := hdue
    obtain ⟨image, himage⟩ := Option.isSome_iff_exists.1 hsome
    have hphase : Round.second.phase? { device with netProgrammed := netFlag } = some .app :=
      phase?_eq_some_iff.2 ⟨hconnected, hselected, hsome⟩
    obtain ⟨exchanges, last, hcalls, hattempt, hdevice⟩ := serve_of_some hsafe hphase past
    have hplan : Phase.plan .app { device with netProgrammed := netFlag } =
        .program .application image device.serial .chip :: Uicr.words device := by
      have hkept : Device.appImage { device with netProgrammed := netFlag } = some image := himage
      simp only [Phase.plan, hkept]
      rfl
    rw [hplan] at hattempt
    refine ⟨_, _, hcalls, .programmed hselected himage hattempt last, ?_⟩
    have hverdict : ((firstFault? exchanges).or
        (Phase.objection? .app { device with netProgrammed := netFlag })).isNone =
          ((firstFault? exchanges).isNone && (Uicr.objection? device).isNone) := by
      rw [Option.isNone_or]
      rfl
    rw [hdevice, hverdict]
    rfl
  · have hphase : Round.second.phase? { device with netProgrammed := netFlag } = none := by
      simp only [phase?, hconnected, if_true, work?]
      exact if_neg hdue
    rw [serve_of_none hphase]
    refine ⟨[], _, rfl, .without ?_, rfl⟩
    by_cases hselected : device.rebootOnly = .notSelected
    · right
      cases himage : device.appImage with
      | none => rfl
      | some image => exact absurd ⟨hselected, by rw [himage]; rfl⟩ hdue
    · exact .inl hselected

end Round

namespace Threads

variable {programmer : Programmer} {past : List Invocation} {devices : List Device}

/-- What is done to a device is what it asks for. -/
theorem Service.served (hsafe : programmer.NeverCrashes) {device after : Device}
    {dialogue : Events} (h : Service programmer past device dialogue after) :
    ∃ exchanges, dialogue = shown exchanges ∧ Served device exchanges after := by
  obtain ⟨earlier, later, hearlier, hlater, first, second, hfirst, hsecond, rfl, rfl⟩ := h
  have hsafe₁ := hearlier.neverCrashes hsafe
  have hsafe₂ := hlater.neverCrashes hsafe
  cases hconnected : device.connected with
  | false =>
    rw [Round.serve_of_disconnected hconnected] at hfirst
    subst hfirst
    rw [Round.serve_of_disconnected hconnected] at hsecond
    subst hsecond
    exact ⟨[], rfl, .disconnected hconnected⟩
  | true =>
    by_cases hpending : device.rebootOnly = .pending
    · obtain ⟨fault, last, hcalls, hdevice⟩ :=
        Round.serve_of_pending hsafe₁ hconnected hpending past
      have hverdict : Flag.ofSuccess fault.isNone ≠ .notSelected := by
        generalize fault.isNone = succeeded
        cases succeeded <;> decide
      rw [hfirst] at hcalls hdevice
      rw [hdevice, Round.serve_of_selected hverdict] at hsecond
      subst hsecond
      refine ⟨_, ?_, .rebooted hconnected hpending fault last⟩
      rw [hcalls, Events.calls_nil, List.append_nil]
    · obtain ⟨net, netFlag, hcalls, hnet, hdevice⟩ :=
        Round.serve_net hsafe₁ hconnected hpending past
      rw [hfirst] at hcalls hdevice
      obtain ⟨app, appFlag, hcalls', happ, hdevice'⟩ :=
        Round.serve_app hsafe₂ hconnected netFlag (past ++ Events.invocations first.1)
      rw [← hdevice, hsecond] at hcalls' hdevice'
      refine ⟨net ++ app, ?_, ?_⟩
      · rw [hcalls, hcalls', shown_append]
      · rw [hdevice']
        exact .programmed hconnected hpending hnet happ

/-! ## Every run of a fleet -/

/-- A run does to its devices what they ask for, and what comes of it is what the
programmer answers. -/
structure Specified (programmer : Programmer) (past : List Invocation) (devices : List Device)
    (run : FleetRun) : Prop where
  /-- The run does not crash. -/
  crash : run.crash = none
  /-- The devices stay where they are in the fleet. -/
  size : run.devices.length = devices.length
  /-- Each of them is served. -/
  served : ∀ (position : Nat) (device : Device), devices[position]? = some device →
    ∃ after exchanges, run.devices[position]? = some after ∧
      run.trace.dialogue device.serial = shown exchanges ∧ Served device exchanges after
  /-- What came of an invocation is what the programmer answered. -/
  truthful : Truthful programmer past run.trace.events
  /-- Nothing is said to any other probe. -/
  silent : ∀ serial, (∀ device ∈ devices, device.serial ≠ serial) →
    run.trace.dialogue serial = []

/-- Each device of the run is served. -/
theorem Specified.of_mem {run : FleetRun} (h : Specified programmer past devices run)
    {device : Device} (hmem : device ∈ devices) :
    ∃ after exchanges, run.trace.dialogue device.serial = shown exchanges ∧
      Served device exchanges after := by
  obtain ⟨position, hdevice⟩ := List.getElem?_of_mem hmem
  obtain ⟨after, exchanges, _, hserved⟩ := h.served position device hdevice
  exact ⟨after, exchanges, hserved⟩

theorem specified_of_comesTo (hsafe : programmer.NeverCrashes)
    (hnodup : (devices.map Device.serial).Nodup) {mode : Mode} {run : FleetRun}
    (h : ComesTo (.of programmer mode past devices) run) :
    Specified programmer past devices run := by
  obtain ⟨s, hreach, hrun⟩ := h
  obtain ⟨hpost, rfl⟩ := outcome_of_neverCrashes hsafe hreach hrun
  have hsize := (orderly_of_reachable hreach).size .second (by rw [hpost]; exact .inr rfl)
  refine { crash := rfl, size := ?_, served := ?_, truthful := ?_, silent := ?_ }
  · rw [List.length_map, hsize]
    rfl
  · intro position device hdevice
    obtain ⟨station, hget, hservice⟩ := service_of_ended hnodup hreach hpost hdevice
    obtain ⟨exchanges, hshown, hserved⟩ := hservice.served hsafe
    refine ⟨station.device, exchanges, ?_, hshown, hserved⟩
    rw [List.getElem?_map, hget]
    rfl
  · exact truthful_of_reachable hnodup hreach
  · intro serial hnone
    exact dialogue_eq_nil hreach hnone

/-- Whatever the programmer answers, a run over a fleet does to each device what it
asks for, and so does whatever else its threads may come to. In whatever order
they move, they come to an end. -/
theorem fleet_specified (hsafe : programmer.NeverCrashes)
    (hnodup : (devices.map Device.serial).Nodup) (past : List Invocation) (mode : Mode) :
    Specified programmer past devices (Fleet.run programmer mode past devices) ∧
      Ends (.of programmer mode past devices) ∧
      ∀ run, ComesTo (.of programmer mode past devices) run →
        Specified programmer past devices run :=
  ⟨specified_of_comesTo hsafe hnodup (comesTo_run programmer mode past devices), ends _,
    fun _ => specified_of_comesTo hsafe hnodup⟩

/-! ## A mixed fleet -/

/-- A programmer that fails at every third invocation, whatever it is. -/
def moody : Programmer where
  respond past call :=
    if past.length % 3 = 2 then
      { outcome := .failed (.toolFailed call.operation.verb call.serial none) }
    else {}

theorem moody_neverCrashes : moody.NeverCrashes := by
  intro past call text
  simp only [moody]
  split <;> simp

/-- Two kits to be programmed, one that waits for a reboot and one that is
disconnected. -/
def mixedKits : List Device :=
  twoKits ++
    [{ serial := 3, kind := .gateway, rebootOnly := .pending },
      { serial := 4, kind := .headset, connected := false, netFile := some "n" }]

theorem fleet_specified_mixedKits :
    (Fleet.run moody (.parallel Parallel.ascending) [] mixedKits).devices.map Device.hasFailure =
        [true, true, false, false] ∧
      Specified moody [] mixedKits
        (Fleet.run moody (.parallel Parallel.ascending) [] mixedKits) :=
  ⟨by decide +kernel,
    (fleet_specified moody_neverCrashes (by decide) [] (.parallel Parallel.ascending)).1⟩

end Threads

end FlashFleet
