import FlashFleet.Proofs.Specification
/-!
# Run after run over the same devices

A device that waits for a reboot is reset in the first round, and its flag is then done or
failed. The second round asks whether the flag was ever set, and so it leaves such a device
alone for good: neither its application core nor its words are written, in this run or any
later one. The first round asks whether the flag still waits. In a later run it does not,
and a device that is connected and has an image for its network core has that core
programmed, once in each later run.

## Main results

* `Served.kept` — what a run does to a device that was flagged for a reboot.
* `flagged_reruns` — what runs one after another do to it.
* `rerun_programs_net` — a second run may program the network core.
-/

namespace FlashFleet

/-! ## One run -/

/-- The programming of the network core, if there is an image for it. -/
def Device.netProgram (device : Device) : List Invocation :=
  (device.netImage.map fun image =>
    Invocation.program .network image device.serial .sectors).toList

/-- The invocations that are not resets. -/
def nonResets (calls : List Invocation) : List Invocation :=
  calls.filter fun call => call.operation != .reset

/-- The device is as it was before earlier runs, but for the flags of the first round, and
it was flagged for a reboot. -/
structure Device.Kept (device now : Device) : Prop where
  serial : now.serial = device.serial
  connected : now.connected = device.connected
  netFile : now.netFile = device.netFile
  appProgrammed : now.appProgrammed = device.appProgrammed
  flagged : now.rebootOnly ≠ .notSelected

theorem Device.Kept.netProgram {device now : Device} (h : device.Kept now) :
    now.netProgram = device.netProgram := by
  rw [Device.netProgram, Device.netProgram, netImage, netImage, h.netFile, h.serial]

/-- The first round comes to the network core of the device: it is connected, and does not
wait for a reboot any more. -/
def Device.isDue (device : Device) : Bool := device.connected && device.rebootOnly != .pending

/-- A device that was flagged and does not wait was rebooted, for better or worse. -/
theorem Device.Kept.settled {device now : Device} (h : device.Kept now) (hdue : now.isDue = true) :
    now.rebootOnly = .done ∨ now.rebootOnly = .failed := by
  obtain ⟨_, hwaits⟩ := Bool.and_eq_true_iff.1 hdue
  have hflagged := h.flagged
  cases hflag : now.rebootOnly with
  | notSelected => exact absurd hflag hflagged
  | pending =>
    rw [hflag] at hwaits
    cases hwaits
  | done => exact .inl rfl
  | failed => exact .inr rfl

/-- The first round programs the network core, or leaves its flag. -/
private theorem NetServed.netProgram {device : Device} {exchanges : List Exchange} {flag : Flag}
    (h : NetServed device exchanges flag) :
    nonResets (exchanges.map Exchange.call) = device.netProgram ∧
      (device.netProgram = [] → flag = device.netProgrammed) := by
  unfold Device.netProgram
  cases h with
  | without himage =>
    rw [himage]
    exact ⟨rfl, fun _ => rfl⟩
  | programmed himage fault last =>
    rw [himage]
    exact ⟨rfl, nofun⟩

/-- A run resets a device that was flagged for a reboot, or programs its network core, if
that is due, and leaves the rest of it. -/
theorem Served.kept {device now after : Device} {exchanges : List Exchange}
    (hkept : device.Kept now) (h : Served now exchanges after) :
    device.Kept after ∧ after.isDue = device.connected ∧
      nonResets (exchanges.map Exchange.call) = (if now.isDue then device.netProgram else []) ∧
      (now.isDue = false ∨ device.netProgram = [] →
        after.netProgrammed = now.netProgrammed) := by
  rw [← hkept.netProgram, ← hkept.connected]
  cases h with
  | disconnected hconnected =>
    have hdue : now.isDue = false := by rw [Device.isDue, hconnected, Bool.false_and]
    rw [hdue, hconnected]
    exact ⟨hkept, rfl, rfl, fun _ => rfl⟩
  | rebooted hconnected hpending fault last =>
    have hdue : now.isDue = false := by rw [Device.isDue, hpending, hconnected]; rfl
    have hflag : ∀ succeeded,
        Flag.ofSuccess succeeded ≠ .notSelected ∧ Flag.ofSuccess succeeded ≠ .pending := by
      decide
    rw [hdue]
    refine ⟨⟨hkept.serial, hkept.connected, hkept.netFile, hkept.appProgrammed, (hflag _).1⟩,
      ?_, rfl, fun _ => rfl⟩
    rw [Device.isDue, bne_iff_ne.2 (hflag _).2, Bool.and_true]
  | programmed hconnected hpending hnet happ =>
    have hdue : now.isDue = true := by
      rw [Device.isDue, hconnected, bne_iff_ne.2 hpending, Bool.and_true]
    obtain ⟨hcalls, hflag⟩ := hnet.netProgram
    -- The second round does not program what was ever flagged.
    cases happ with
    | programmed hselected himage hattempt last => exact absurd hselected hkept.flagged
    | without hnone =>
      rw [hdue, List.append_nil, if_pos rfl]
      refine ⟨⟨hkept.serial, hkept.connected, hkept.netFile, hkept.appProgrammed, hkept.flagged⟩,
        ?_, hcalls, fun hidle => hflag (hidle.resolve_left nofun)⟩
      rw [Device.isDue, bne_iff_ne.2 hpending, Bool.and_true]

/-! ## Runs one after another -/

namespace Threads

/-- Runs one after another over the same devices, each in a mode of its own. Each starts
from the devices as the one before left them. -/
inductive Consecutive (programmer : Programmer) :
    List Invocation → List Device → List FleetRun → Prop where
  | nil {past : List Invocation} {devices : List Device} : Consecutive programmer past devices []
  | cons {past : List Invocation} {devices : List Device} {mode : Mode} {run : FleetRun}
      {later : List FleetRun} (hrun : ComesTo (.of programmer mode past devices) run)
      (hlater : Consecutive programmer (past ++ run.trace.invocations) run.devices later) :
      Consecutive programmer past devices (run :: later)

/-- The runs of a fleet in the given modes, one after another. -/
def reruns (programmer : Programmer) (past : List Invocation) (devices : List Device) :
    List Mode → List FleetRun
  | [] => []
  | mode :: modes =>
    let run := Fleet.run programmer mode past devices
    run :: reruns programmer (past ++ run.trace.invocations) run.devices modes

theorem consecutive_reruns (programmer : Programmer) (modes : List Mode)
    (past : List Invocation) (devices : List Device) :
    Consecutive programmer past devices (reruns programmer past devices modes) := by
  induction modes generalizing past devices with
  | nil => exact .nil
  | cons mode modes ih => exact .cons (comesTo_run programmer mode past devices) (ih _ _)

variable {programmer : Programmer} {past : List Invocation} {devices : List Device}
  {runs : List FleetRun}

/-- What is said to a probe is seen in its exchanges. -/
theorem ofProbe_invocations {trace : Trace} {serial : Serial} {exchanges : List Exchange}
    (h : trace.dialogue serial = shown exchanges) :
    ofProbe serial trace.invocations = exchanges.map Exchange.call := by
  rw [← invocations_shown, ← h, Trace.dialogue, Events.invocations_about]
  rfl

/-- A run keeps the probes of the fleet where they are. -/
theorem Specified.serials {run : FleetRun} (h : Specified programmer past devices run) :
    run.devices.map Device.serial = devices.map Device.serial := by
  apply List.ext_getElem?
  intro position
  rw [List.getElem?_map, List.getElem?_map]
  cases hdevice : devices[position]? with
  | none =>
    rw [List.getElem?_eq_none_iff.2 (h.size.trans_le (List.getElem?_eq_none_iff.1 hdevice))]
  | some device =>
    obtain ⟨after, exchanges, hafter, _, hserved⟩ := h.served position device hdevice
    rw [hafter]
    cases hserved <;> rfl

/-- What a run does to a device that was flagged for a reboot before the first run. -/
structure Spares (device : Device) (due : Bool) (run : FleetRun) (after : Device) : Prop where
  /-- The run does not crash. -/
  crash : run.crash = none
  /-- The device was flagged for a reboot before, and still is. -/
  kept : device.Kept after
  /-- Its probe is told to reset the device, and at most to program the network core. -/
  calls : nonResets (ofProbe device.serial run.trace.invocations) =
    if due then device.netProgram else []
  /-- If it is connected it does not wait for the reboot any more. -/
  settled : device.connected = true → after.rebootOnly = .done ∨ after.rebootOnly = .failed
  /-- Only by that the flag of the network core may change. -/
  netProgrammed : due = false ∨ device.netProgram = [] →
    after.netProgrammed = device.netProgrammed

/-- One run spares such a device, and keeps it so that the next does. -/
theorem Specified.spares {run : FleetRun} (h : Specified programmer past devices run)
    {position : Nat} {device now : Device} (hnow : devices[position]? = some now)
    (hkept : device.Kept now)
    (hflag : now.isDue = false ∨ device.netProgram = [] →
      now.netProgrammed = device.netProgrammed) :
    ∃ after, run.devices[position]? = some after ∧ Spares device now.isDue run after ∧
      after.isDue = device.connected := by
  obtain ⟨after, exchanges, hafter, hshown, hserved⟩ := h.served position now hnow
  obtain ⟨hstill, hdue, hcalls, hnet⟩ := hserved.kept hkept
  refine ⟨after, hafter, ⟨h.crash, hstill, ?_, fun hconnected => ?_, fun hidle => ?_⟩, hdue⟩
  · rw [hkept.serial] at hshown
    rw [ofProbe_invocations hshown, hcalls]
  · exact hstill.settled (hdue.trans hconnected)
  · exact (hnet hidle).trans (hflag hidle)

/-- Runs one after another spare a device that was flagged for a reboot. After the first of
them, what is due is due again in each. -/
theorem Consecutive.spares (hsafe : programmer.NeverCrashes)
    (hnodup : (devices.map Device.serial).Nodup)
    (h : Consecutive programmer past devices runs) {position : Nat} {device now : Device}
    (hnow : devices[position]? = some now) (hkept : device.Kept now)
    (hflag : now.isDue = false ∨ device.netProgram = [] →
      now.netProgrammed = device.netProgrammed) :
    ∀ number run, runs[number]? = some run →
      ∃ after, run.devices[position]? = some after ∧
        Spares device (if number = 0 then now.isDue else device.connected) run after := by
  induction h generalizing now with
  | nil => exact nofun
  | @cons past devices mode run later hrun hlater ih =>
    have hspecified := specified_of_comesTo hsafe hnodup hrun
    obtain ⟨after, hafter, hspares, hdue⟩ := hspecified.spares hnow hkept hflag
    have hkeeps : after.isDue = false ∨ device.netProgram = [] →
        after.netProgrammed = device.netProgrammed := by
      intro hidle
      refine hspares.netProgrammed (hidle.imp_left fun hnot => ?_)
      rw [Device.isDue, hkept.connected, ← hdue, hnot, Bool.false_and]
    intro number other hother
    cases number with
    | zero =>
      rw [List.getElem?_cons_zero, Option.some.injEq] at hother
      subst hother
      exact ⟨after, hafter, hspares⟩
    | succ number =>
      rw [List.getElem?_cons_succ] at hother
      obtain ⟨last, hlast, hspared⟩ :=
        ih (hspecified.serials ▸ hnodup) hafter hspares.kept hkeeps number other hother
      rw [hdue, ite_self] at hspared
      exact ⟨last, hlast, hspared⟩

/-- However often a fleet is run, in whatever modes and whatever its threads come to, a
device that waited for a reboot before the first run has neither its application core nor
its words written. Its network core is programmed in the runs after the first, if the device
is connected and has an image for it. -/
theorem flagged_reruns (hsafe : programmer.NeverCrashes)
    (hnodup : (devices.map Device.serial).Nodup) (past : List Invocation) :
    (∀ modes, Consecutive programmer past devices (reruns programmer past devices modes)) ∧
      ∀ runs, Consecutive programmer past devices runs →
        ∀ (position : Nat) (device : Device), devices[position]? = some device →
          device.rebootOnly = .pending →
          ∀ (number : Nat) (run : FleetRun), runs[number]? = some run →
            ∃ after, run.devices[position]? = some after ∧
              Spares device (decide (number ≠ 0) && device.connected) run after := by
  refine ⟨fun modes => consecutive_reruns programmer modes past devices, ?_⟩
  intro runs hruns position device hdevice hpending number run hrun
  have hkept : device.Kept device :=
    ⟨rfl, rfl, rfl, rfl, by rw [hpending]; decide⟩
  obtain ⟨after, hafter, hspares⟩ :=
    hruns.spares hsafe hnodup hdevice hkept (fun _ => rfl) number run hrun
  refine ⟨after, hafter, ?_⟩
  cases number with
  | zero =>
    have hdue : device.isDue = false := by rw [Device.isDue, hpending, Bool.and_comm]; rfl
    rwa [if_pos rfl, hdue] at hspares
  | succ number => exact hspares

/-! ## A gateway that waits for a reboot -/

/-- A gateway that waits for a reboot and has an image for its network core. -/
def waitingGateway : Device :=
  { serial := 1, kind := .gateway, netFile := some "n", rebootOnly := .pending }

theorem calm_neverCrashes : calm.NeverCrashes := fun _ _ _ => nofun

/-- The gateway is reset in the first run. In the second it is programmed. -/
theorem flagged_reruns_waitingGateway :
    ((reruns calm [] [waitingGateway] [.sequential, .sequential]).map fun run =>
        run.trace.invocations) =
        [[.reset 1, .reset 1], [.program .network "n" 1 .sectors, .reset 1]] ∧
      ∀ (number : Nat) (run : FleetRun),
        (reruns calm [] [waitingGateway] [.sequential, .sequential])[number]? = some run →
          ∃ after, run.devices[0]? = some after ∧
            Spares waitingGateway (decide (number ≠ 0) && waitingGateway.connected) run after := by
  refine ⟨by decide +kernel, ?_⟩
  obtain ⟨hruns, hspares⟩ :=
    flagged_reruns calm_neverCrashes (by decide : ([waitingGateway].map Device.serial).Nodup) []
  exact hspares _ (hruns [.sequential, .sequential]) 0 waitingGateway rfl rfl

/-- It is not so that a device which waits for a reboot is only ever reset, and keeps the
flags of its cores: the second run over the gateway programs it. -/
theorem rerun_programs_net :
    ¬ ∀ (programmer : Programmer) (devices : List Device) (runs : List FleetRun),
      programmer.NeverCrashes → (devices.map Device.serial).Nodup →
      Consecutive programmer [] devices runs →
      ∀ device ∈ devices, device.rebootOnly = .pending → ∀ run ∈ runs,
        (∀ call ∈ run.trace.invocations, call.serial = device.serial → call.operation = .reset) ∧
          ∀ after ∈ run.devices, after.serial = device.serial →
            after.netProgrammed = device.netProgrammed ∧
              after.appProgrammed = device.appProgrammed := by
  intro hclaim
  have hall := hclaim calm [waitingGateway]
    (reruns calm [] [waitingGateway] [.sequential, .sequential]) calm_neverCrashes (by decide)
    (consecutive_reruns ..) waitingGateway List.mem_cons_self rfl
  have hprogrammed : ∃ run ∈ reruns calm [] [waitingGateway] [.sequential, .sequential],
      .program .network "n" 1 .sectors ∈ run.trace.invocations := by
    decide +kernel
  obtain ⟨run, hrun, hcall⟩ := hprogrammed
  exact nomatch (hall run hrun).1 _ hcall rfl

end Threads

end FlashFleet
