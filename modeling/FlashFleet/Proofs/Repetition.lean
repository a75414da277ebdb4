import FlashFleet.Proofs.Commands
import FlashFleet.Proofs.Isolation
import FlashFleet.Proofs.Lockstep
import FlashFleet.Proofs.Turns
import Mathlib.Data.List.Nodup
/-!
# The same run again

With a programmer whose answers depend on nothing but the invocation, what a round asks of a
device and the flag it leaves are decided by the parts of the device that no run changes. So a
round that is run again changes nothing, and the rounds do not get in each other's way: a
second run asks again for what the first asked for, and leaves every flag as it is. Only a
device that waited for a reboot does not wait any more, and it is not reset again. All this
rests on such a device having no image for its network core, which is how the commands
prepare it.

## Main results

* `Round.leaves_leaves`, `Round.leaves_comm` — a round changes nothing the second time, and
  the rounds commute.
* `Device.settled_of_plain` — what a run does to a device that another run left.
* `Sequential.work_steady` — what a sequential round asks for, in order.
* `asked_of_comesTo` — what any run asks of each device.
* `fleet_repeats` — a second run over the devices that the first left.
-/

namespace FlashFleet

/-! ## Steady programmers -/

/-- What comes of an invocation depends on the invocation alone. -/
def Programmer.Steady (programmer : Programmer) : Prop :=
  ∀ past other call,
    (programmer.respond past call).outcome = (programmer.respond other call).outcome

variable {programmer : Programmer} {device : Device}

theorem Programmer.Steady.perProbe (h : programmer.Steady) : programmer.PerProbe :=
  fun past other call _ => h past other call

theorem Programmer.Steady.carry_eq (h : programmer.Steady) (past other plan : List Invocation) :
    programmer.carry past plan = programmer.carry other plan := by
  induction plan generalizing past other with
  | nil => rfl
  | cons call plan ih =>
    have hsame := h past other call
    by_cases hanswer : (programmer.respond past call).outcome = .succeeded
    · rw [carry_of_succeeded hanswer, carry_of_succeeded (hsame ▸ hanswer),
        ih (past ++ [call]) (other ++ [call])]
    · rw [carry_of_not_succeeded hanswer, carry_of_not_succeeded (hsame ▸ hanswer), hsame]

namespace Phase

theorem work_eq (h : programmer.Steady) (phase : Phase) (past : List Invocation)
    (device : Device) : phase.work programmer past device = phase.work programmer [] device := by
  rw [work, work, h.carry_eq past []]

/-- The work of a phase is not told by flags. -/
@[simp] theorem work_record (phase own : Phase) (programmer : Programmer)
    (past : List Invocation) (flag : Flag) (device : Device) :
    phase.work programmer past (own.record flag device) = phase.work programmer past device := by
  cases own <;> rfl

theorem record_record (phase : Phase) (flag other : Flag) (device : Device) :
    phase.record flag (phase.record other device) = phase.record flag device := by
  cases phase <;> rfl

theorem record_comm {phase own : Phase} (h : phase ≠ own) (flag other : Flag)
    (device : Device) :
    phase.record flag (own.record other device) = own.record other (phase.record flag device) := by
  cases phase <;> cases own <;> first | rfl | exact absurd rfl h

end Phase

/-! ## Rounds -/

namespace Round

/-- What a round asks of a device that is alone. -/
def asks (round : Round) (programmer : Programmer) (device : Device) : List Invocation :=
  match round.phase? device with
  | none => []
  | some phase => (phase.work programmer [] device).1 ++ [.reset device.serial]

/-- The device as a round leaves it that is alone. -/
def leaves (round : Round) (programmer : Programmer) (device : Device) : Device :=
  match round.phase? device with
  | none => device
  | some phase => phase.record (phase.work programmer [] device).2.flag device

variable {round other : Round}

theorem asks_of_none (h : round.phase? device = none) : round.asks programmer device = [] := by
  simp only [asks, h]

theorem leaves_of_none (h : round.phase? device = none) :
    round.leaves programmer device = device := by
  simp only [leaves, h]

theorem leaves_of_phase? {phase : Phase} (h : round.phase? device = some phase) :
    round.leaves programmer device =
      phase.record (phase.work programmer [] device).2.flag device := by
  simp only [leaves, h]

/-- With a steady programmer that is what a round does. -/
theorem serve_steady (hsafe : programmer.NeverCrashes) (hsteady : programmer.Steady)
    (round : Round) (past : List Invocation) (device : Device) :
    Events.invocations (round.serve programmer past device).1 = round.asks programmer device ∧
      (round.serve programmer past device).2 = round.leaves programmer device := by
  unfold serve asks leaves
  cases hphase : round.phase? device with
  | none => exact ⟨rfl, rfl⟩
  | some phase =>
    have hpossible := possible_of_phase? hphase
    have hrun := Phase.run_work hpossible (Phase.work_ne_crashed hsafe hpossible past)
    rwa [Phase.work_eq hsteady] at hrun

@[simp] theorem leaves_serial (round : Round) (programmer : Programmer) (device : Device) :
    (round.leaves programmer device).serial = device.serial := by
  unfold leaves
  split
  · rfl
  · exact Phase.record_serial ..

/-- What is asked of a device is of its probe. -/
theorem serial_of_mem_asks {call : Invocation} (h : call ∈ round.asks programmer device) :
    call.serial = device.serial := by
  unfold asks at h
  split at h
  · cases h
  · next phase hphase =>
    rcases List.mem_append.1 h with hwork | hreset
    · exact Phase.serial_of_mem_plan ((programmer.carry_prefix ..).subset hwork)
    · rw [List.mem_singleton.1 hreset]
      rfl

/-- The flags of the cores are not what a round goes by. -/
theorem phase?_record {own : Phase} (hown : own ≠ .reboot) (round : Round) (flag : Flag)
    (device : Device) : round.phase? (own.record flag device) = round.phase? device := by
  cases own with
  | reboot => exact absurd rfl hown
  | net => cases round <;> rfl
  | app => cases round <;> rfl

theorem asks_record {own : Phase} (hown : own ≠ .reboot) (round : Round)
    (programmer : Programmer) (flag : Flag) (device : Device) :
    round.asks programmer (own.record flag device) = round.asks programmer device := by
  simp only [asks, phase?_record hown, Phase.work_record, Phase.record_serial]

/-- A round that is no reboot of the device leaves it as it was, or changes the flag of a core. -/
theorem leaves_eq (programmer : Programmer) (h : round.phase? device ≠ some .reboot) :
    round.leaves programmer device = device ∨
      ∃ phase flag, phase ≠ .reboot ∧
        round.leaves programmer device = Phase.record phase flag device := by
  cases hphase : round.phase? device with
  | none => exact .inl (leaves_of_none hphase)
  | some phase => exact .inr ⟨phase, _, fun heq => h (heq ▸ hphase), leaves_of_phase? hphase⟩

/-- What a round has for a device is not changed by what another, or the same, did to the
cores. -/
theorem phase?_leaves (h : other.phase? device ≠ some .reboot) (round : Round) :
    round.phase? (other.leaves programmer device) = round.phase? device := by
  rcases leaves_eq programmer h with hsame | ⟨phase, flag, hcore, hrecord⟩
  · rw [hsame]
  · rw [hrecord, phase?_record hcore]

/-- Nor is what it asks for. -/
theorem asks_leaves (h : other.phase? device ≠ some .reboot) (round : Round) :
    round.asks programmer (other.leaves programmer device) = round.asks programmer device := by
  rcases leaves_eq programmer h with hsame | ⟨phase, flag, hcore, hrecord⟩
  · rw [hsame]
  · rw [hrecord, asks_record hcore]

/-- A round changes nothing the second time. -/
theorem leaves_leaves (h : round.phase? device ≠ some .reboot) :
    round.leaves programmer (round.leaves programmer device) =
      round.leaves programmer device := by
  cases hphase : round.phase? device with
  | none => rw [leaves_of_none hphase, leaves_of_none hphase]
  | some phase =>
    have hcore : phase ≠ .reboot := fun heq => h (heq ▸ hphase)
    simp only [leaves, phase?_record hcore, hphase, Phase.work_record, Phase.record_record]

/-- The rounds do not get in each other's way. -/
theorem leaves_comm (hne : round ≠ other) (h : round.phase? device ≠ some .reboot)
    (hother : other.phase? device ≠ some .reboot) :
    round.leaves programmer (other.leaves programmer device) =
      other.leaves programmer (round.leaves programmer device) := by
  cases hphase : round.phase? device with
  | none =>
    cases hown : other.phase? device with
    | none => rw [leaves_of_none hphase, leaves_of_none hown, leaves_of_none hphase]
    | some own =>
      have hcore : own ≠ .reboot := fun heq => hother (heq ▸ hown)
      simp only [leaves, phase?_record hcore, hphase, hown]
  | some phase =>
    have hcore : phase ≠ .reboot := fun heq => h (heq ▸ hphase)
    cases hown : other.phase? device with
    | none => simp only [leaves, phase?_record hcore, hphase, hown]
    | some own =>
      have hcore' : own ≠ .reboot := fun heq => hother (heq ▸ hown)
      have hphases : phase ≠ own := by
        rintro rfl
        exact hne ((round_of_phase? hphase).symm.trans (round_of_phase? hown))
      simp only [leaves, phase?_record hcore, phase?_record hcore', hphase, hown,
        Phase.work_record]
      exact Phase.record_comm hphases ..

end Round

/-! ## A device that is run again -/

namespace Device

/-- The device waits for a reboot, and a run comes to it. -/
def waits (device : Device) : Bool := device.connected && device.rebootOnly == .pending

/-- A device that waits for a reboot has no image for its network core. -/
def Plain (device : Device) : Prop := device.rebootOnly = .pending → device.netImage = none

/-- The device as a run leaves it that is alone. -/
def ran (programmer : Programmer) (device : Device) : Device :=
  Round.second.leaves programmer (Round.first.leaves programmer device)

/-- What a run asks of it then. -/
def asked (programmer : Programmer) (device : Device) : List Invocation :=
  Round.first.asks programmer device ++
    Round.second.asks programmer (Round.first.leaves programmer device)

@[simp] theorem ran_serial (programmer : Programmer) (device : Device) :
    (device.ran programmer).serial = device.serial := by
  rw [ran, Round.leaves_serial, Round.leaves_serial]

theorem serial_of_mem_asked {call : Invocation} (h : call ∈ device.asked programmer) :
    call.serial = device.serial := by
  rcases List.mem_append.1 h with h | h
  · exact Round.serial_of_mem_asks h
  · rw [Round.serial_of_mem_asks h, Round.leaves_serial]

end Device

namespace Round

/-- Reboots are of the first round, for devices that wait for one. -/
theorem phase?_eq_reboot_iff {round : Round} :
    round.phase? device = some .reboot ↔ round = .first ∧ device.waits = true := by
  rw [phase?_eq_some_iff, Device.waits, Bool.and_eq_true, beq_iff_eq]
  cases round with
  | first => exact ⟨fun h => ⟨rfl, h⟩, fun h => h.2⟩
  | second => exact ⟨fun h => h.2.elim, nofun⟩

theorem second_phase?_ne_reboot : Round.second.phase? device ≠ some .reboot :=
  fun h => nomatch (phase?_eq_reboot_iff.1 h).1

/-- A device that waits is reset twice, whatever the first reset comes to. -/
theorem asks_of_waits (h : device.waits = true) :
    Round.first.asks programmer device = [.reset device.serial, .reset device.serial] := by
  have hplan : Phase.reboot.plan device = [.reset device.serial] := rfl
  have hwork : (programmer.carry [] [Invocation.reset device.serial]).1 =
      [.reset device.serial] := by
    by_cases hanswer : (programmer.respond [] (.reset device.serial)).outcome = .succeeded
    · rw [Programmer.carry_of_succeeded hanswer]
      rfl
    · rw [Programmer.carry_of_not_succeeded hanswer]
  simp only [asks, phase?_eq_reboot_iff.2 ⟨rfl, h⟩, Phase.work, hplan, hwork]
  rfl

/-- Then it does not wait any more, and without an image for its network core no round has
anything for it. -/
theorem phase?_rebooted (programmer : Programmer) (h : device.waits = true)
    (hplain : device.Plain) (round : Round) :
    round.phase? (Round.first.leaves programmer device) = none := by
  have hpending : device.rebootOnly = .pending := by
    rw [Device.waits, Bool.and_eq_true, beq_iff_eq] at h
    exact h.2
  rw [leaves_of_phase? (phase?_eq_reboot_iff.2 ⟨rfl, h⟩), Option.eq_none_iff_forall_ne_some]
  generalize hflag : (Phase.reboot.work programmer [] device).2.flag = flag
  have hsettled : flag = .done ∨ flag = .failed := hflag ▸ Outcome.flag_settled _
  intro phase hphase
  obtain ⟨_, hdemands⟩ := phase?_eq_some_iff.1 hphase
  cases round with
  | first =>
    cases phase with
    | reboot =>
      have hstill : flag = .pending := hdemands
      rcases hsettled with rfl | rfl <;> cases hstill
    | net =>
      have himage : device.netImage.isSome = true := hdemands.2
      rw [hplain hpending] at himage
      cases himage
    | app => exact hdemands
  | second =>
    cases phase with
    | app =>
      have hunset : flag = .notSelected := hdemands.1
      rcases hsettled with rfl | rfl <;> cases hunset
    | reboot => exact hdemands
    | net => exact hdemands

end Round

/-- What a run does to a device that another run left. -/
structure Device.Settled (programmer : Programmer) (device : Device) : Prop where
  /-- No round changes it. -/
  leaves : ∀ round : Round, round.leaves programmer (device.ran programmer) =
    device.ran programmer
  /-- In the first round the same is asked for, unless it was the reboot. -/
  first : Round.first.asks programmer (device.ran programmer) =
    if device.waits then [] else Round.first.asks programmer device
  /-- In the second round the same is asked for. -/
  second : Round.second.asks programmer (device.ran programmer) =
    Round.second.asks programmer (Round.first.leaves programmer device)
  /-- A device that waited is not asked for anything in the second round. -/
  silent : device.waits = true →
    Round.second.asks programmer (Round.first.leaves programmer device) = []

theorem Device.settled_of_plain (programmer : Programmer) (hplain : device.Plain) :
    device.Settled programmer := by
  by_cases hwaits : device.waits = true
  · -- The flag that the reboot leaves keeps the second round away, and the first has neither
    -- a reboot nor an image left to go by.
    have hnone := Round.phase?_rebooted programmer hwaits hplain
    have hran : device.ran programmer = Round.first.leaves programmer device :=
      Round.leaves_of_none (hnone .second)
    refine { leaves := ?_, first := ?_, second := ?_, silent := fun _ => ?_ }
    · intro round
      rw [hran, Round.leaves_of_none (hnone round)]
    · rw [hran, Round.asks_of_none (hnone .first), if_pos hwaits]
    · rw [hran]
    · exact Round.asks_of_none (hnone .second)
  · -- Only flags of the cores are left, so that each round finds what it found before.
    have hfirst : Round.first.phase? device ≠ some .reboot :=
      fun h => hwaits (Round.phase?_eq_reboot_iff.1 h).2
    have hsecond : ∀ {device : Device}, Round.second.phase? device ≠ some .reboot :=
      Round.second_phase?_ne_reboot
    refine { leaves := ?_, first := ?_, second := ?_, silent := fun h => absurd h hwaits }
    · intro round
      cases round with
      | first =>
        have hagain : Round.first.phase? (Round.first.leaves programmer device) ≠
            some .reboot := by
          rwa [Round.phase?_leaves hfirst]
        rw [Device.ran, Round.leaves_comm (by decide) hagain hsecond, Round.leaves_leaves hfirst]
      | second => exact Round.leaves_leaves hsecond
    · rw [if_neg hwaits, Device.ran, Round.asks_leaves hsecond, Round.asks_leaves hfirst]
    · rw [Device.ran, Round.asks_leaves hsecond]

/-- Unless it waited, a device is asked for the same again. -/
theorem Device.Settled.asked (h : device.Settled programmer) :
    (device.ran programmer).asked programmer =
      if device.waits then [] else device.asked programmer := by
  rw [Device.asked, h.leaves, h.first, h.second]
  by_cases hwaits : device.waits = true
  · rw [if_pos hwaits, if_pos hwaits, h.silent hwaits]
    rfl
  · rw [if_neg hwaits, if_neg hwaits]
    rfl

/-! ## Sequential runs -/

/-- What a sequential round asks for, in order, and how it leaves the devices. -/
theorem Sequential.work_steady (hsafe : programmer.NeverCrashes) (hsteady : programmer.Steady)
    (round : Round) (past : List Invocation) (devices : List Device) :
    (work programmer round past devices).crash = none ∧
      (work programmer round past devices).devices = devices.map (round.leaves programmer) ∧
      (work programmer round past devices).trace.invocations =
        devices.flatMap (round.asks programmer) := by
  induction devices generalizing past with
  | nil => exact ⟨rfl, rfl, rfl⟩
  | cons device rest ih =>
    obtain ⟨hasked, hleft⟩ := Round.serve_steady hsafe hsteady round past device
    rw [List.map_cons, List.flatMap_cons]
    cases hphase : round.phase? device with
    | none =>
      obtain ⟨hcrash, hdevices, hcalls⟩ := ih past
      rw [work_cons_idle hphase, Round.asks_of_none hphase, Round.leaves_of_none hphase, hdevices]
      exact ⟨hcrash, rfl, hcalls⟩
    | some phase =>
      simp only [Round.serve, hphase] at hasked hleft
      have hsound := Phase.crash_of_neverCrashes hsafe (Round.possible_of_phase? hphase) past
      have hdispatch : Events.invocations (round.dispatch phase device.serial) = [] := rfl
      obtain ⟨hcrash, hdevices, hcalls⟩ := ih (past ++ round.asks programmer device)
      simp only [work, hphase, hsound, Trace.invocations_append, Trace.invocations_authoredBy,
        hdispatch, hasked, hleft, hcrash, hdevices, hcalls, List.nil_append, and_self]

/-- The same with what the orchestrator says before and after. -/
theorem Round.run_steady (hsafe : programmer.NeverCrashes) (hsteady : programmer.Steady)
    (round : Round) (past : List Invocation) (devices : List Device) :
    (round.run programmer .sequential past devices).crash = none ∧
      (round.run programmer .sequential past devices).devices =
        devices.map (round.leaves programmer) ∧
      (round.run programmer .sequential past devices).trace.invocations =
        devices.flatMap (round.asks programmer) := by
  obtain ⟨hcrash, hdevices, hcalls⟩ := Sequential.work_steady hsafe hsteady round past devices
  have hclosing : Events.invocations round.closing = [] := rfl
  simp only [run, Sequential.run, FleetRun.closed, FleetRun.after, hcrash, hdevices, hcalls,
    Trace.invocations_append, Trace.invocations_authoredBy, Threads.invocations_opening, hclosing,
    List.nil_append, List.append_nil, and_self]

/-- What a sequential run asks for is what the first round asks of the devices, and then what
the second does. -/
theorem invocations_sequential (hsafe : programmer.NeverCrashes) (hsteady : programmer.Steady)
    (past : List Invocation) (devices : List Device) :
    (Fleet.run programmer .sequential past devices).trace.invocations =
      devices.flatMap (Round.first.asks programmer) ++
        devices.flatMap fun device =>
          Round.second.asks programmer (Round.first.leaves programmer device) := by
  have hforeword : Events.invocations (Fleet.skipped devices) = [] :=
    Threads.invocations_foreword devices .first
  obtain ⟨hcrash, hdevices, hcalls⟩ := Round.first.run_steady hsafe hsteady past devices
  have hsecond := fun past' => (Round.second.run_steady hsafe hsteady past'
    (devices.map (Round.first.leaves programmer))).2.2
  simp only [Fleet.run, FleetRun.after, hcrash, hdevices, hcalls, Trace.invocations_append,
    Trace.invocations_authoredBy, hforeword, hsecond, List.nil_append, List.flatMap_map]

/-! ## Any runs -/

/-- What is asked of a device that is alone, and how it is left. -/
theorem solitary_steady (hsafe : programmer.NeverCrashes) (hsteady : programmer.Steady)
    (past : List Invocation) (device : Device) :
    Events.invocations (solitary programmer past device).1 = device.asked programmer ∧
      (solitary programmer past device).2 = device.ran programmer := by
  obtain ⟨hasked, hleft⟩ := Round.serve_steady hsafe hsteady .first past device
  simp only [solitary, hasked, hleft]
  obtain ⟨hasked', hleft'⟩ := Round.serve_steady hsafe hsteady .second
    (past ++ Round.first.asks programmer device) (Round.first.leaves programmer device)
  rw [Events.invocations_append, Events.invocations_calls, Events.invocations_calls, hasked,
    hasked', hleft']
  exact ⟨rfl, rfl⟩

namespace Threads

variable {past : List Invocation} {devices : List Device}

/-- Whatever the threads come to, each device was asked what it is asked alone. -/
theorem asked_of_comesTo (hsafe : programmer.NeverCrashes) (hsteady : programmer.Steady)
    (hnodup : (devices.map Device.serial).Nodup) {mode : Mode} {run : FleetRun}
    (h : ComesTo (.of programmer mode past devices) run) :
    run.crash = none ∧ run.devices = devices.map (Device.ran programmer) ∧
      (∀ device ∈ devices,
        ofProbe device.serial run.trace.invocations = device.asked programmer) ∧
      ∀ serial, (∀ device ∈ devices, device.serial ≠ serial) →
        ofProbe serial run.trace.invocations = [] := by
  obtain ⟨hcrash, hdevices, htold, hsilent⟩ :=
    solitary_of_comesTo hsafe hsteady.perProbe hnodup h
  have hprobe : ∀ serial, ofProbe serial run.trace.invocations =
      Events.invocations (run.trace.dialogue serial) :=
    fun serial => (Events.invocations_about serial run.trace.events).symm
  refine ⟨hcrash, ?_, ?_, ?_⟩
  · rw [hdevices]
    exact List.map_congr_left fun device _ => (solitary_steady hsafe hsteady past device).2
  · intro device hmem
    rw [hprobe, htold device hmem]
    exact (solitary_steady hsafe hsteady past device).1
  · intro serial hnone
    rw [hprobe, hsilent serial hnone]
    rfl

/-! ## Two runs -/

/-- The invocations without those of the devices that wait for a reboot. -/
def withoutWaiting (devices : List Device) (calls : List Invocation) : List Invocation :=
  calls.filter fun call => !devices.any fun device => device.waits && device.serial == call.serial

/-- Where no probe is listed twice, all or nothing of what is asked of a device stays. -/
theorem withoutWaiting_eq (hnodup : (devices.map Device.serial).Nodup) {device : Device}
    (hmem : device ∈ devices) {calls : List Invocation}
    (hown : ∀ call ∈ calls, call.serial = device.serial) :
    withoutWaiting devices calls = if device.waits then [] else calls := by
  have hany : (devices.any fun other => other.waits && other.serial == device.serial) =
      device.waits := by
    rw [Bool.eq_iff_iff, List.any_eq_true]
    constructor
    · rintro ⟨other, hother, hboth⟩
      rw [Bool.and_eq_true, beq_iff_eq] at hboth
      rw [← List.inj_on_of_nodup_map hnodup hother hmem hboth.2]
      exact hboth.1
    · intro hwaits
      exact ⟨device, hmem, by rw [hwaits, beq_self_eq_true]; rfl⟩
  have hcalls : withoutWaiting devices calls = calls.filter fun _ => !device.waits :=
    List.filter_congr fun call hcall => by rw [hown call hcall, hany]
  rw [hcalls]
  cases device.waits <;> simp

/-- The devices are of distinct probes, and those that wait for a reboot have no image for their
network cores. -/
structure Repeatable (devices : List Device) : Prop where
  nodup : (devices.map Device.serial).Nodup
  plain : ∀ device ∈ devices, device.Plain

/-- A run changes nothing in the devices that another run left, and asks for the same again. Only
the devices that waited are not reset again. -/
structure Repeats (devices : List Device) (first second : FleetRun) : Prop where
  /-- Both runs come to their ends. -/
  crash : first.crash = none ∧ second.crash = none
  /-- The devices are left as they were. -/
  left : second.devices = first.devices
  /-- A device that waits is reset twice in the first run. -/
  resets : ∀ device ∈ devices, device.waits = true →
    ofProbe device.serial first.trace.invocations = [.reset device.serial, .reset device.serial]
  /-- Without these resets, each probe is asked the same. -/
  again : ∀ serial, ofProbe serial second.trace.invocations =
    ofProbe serial (withoutWaiting devices first.trace.invocations)

theorem repeats_of_comesTo (hsafe : programmer.NeverCrashes) (hsteady : programmer.Steady)
    (h : Repeatable devices) {past' : List Invocation} {mode mode' : Mode}
    {first second : FleetRun} (hfirst : ComesTo (.of programmer mode past devices) first)
    (hsecond : ComesTo (.of programmer mode' past' first.devices) second) :
    Repeats devices first second := by
  obtain ⟨hcrash, hdevices, hasked, hsilent⟩ := asked_of_comesTo hsafe hsteady h.nodup hfirst
  have hserials : first.devices.map Device.serial = devices.map Device.serial := by
    rw [hdevices, List.map_map]
    exact List.map_congr_left fun device _ => Device.ran_serial programmer device
  obtain ⟨hcrash', hdevices', hasked', hsilent'⟩ :=
    asked_of_comesTo hsafe hsteady (hserials ▸ h.nodup) hsecond
  have hsettled : ∀ device ∈ devices, device.Settled programmer :=
    fun device hmem => Device.settled_of_plain programmer (h.plain device hmem)
  refine { crash := ⟨hcrash, hcrash'⟩, left := ?_, resets := ?_, again := ?_ }
  · rw [hdevices', hdevices, List.map_map]
    apply List.map_congr_left
    intro device hmem
    have hleaves := (hsettled device hmem).leaves
    rw [Function.comp_apply, Device.ran, hleaves .first, hleaves .second]
  · intro device hmem hwaits
    rw [hasked device hmem, Device.asked, (hsettled device hmem).silent hwaits, List.append_nil,
      Round.asks_of_waits hwaits]
  · intro serial
    rw [show ofProbe serial (withoutWaiting devices first.trace.invocations) =
      withoutWaiting devices (ofProbe serial first.trace.invocations) from List.filter_comm ..]
    by_cases hknown : ∃ device ∈ devices, device.serial = serial
    · obtain ⟨device, hmem, rfl⟩ := hknown
      have hran : device.ran programmer ∈ first.devices := by
        rw [hdevices]
        exact List.mem_map_of_mem hmem
      rw [hasked device hmem, withoutWaiting_eq h.nodup hmem fun _ => Device.serial_of_mem_asked,
        ← (hsettled device hmem).asked, ← hasked' _ hran, Device.ran_serial]
    · have hnone : ∀ device ∈ devices, device.serial ≠ serial :=
        fun device hmem hserial => hknown ⟨device, hmem, hserial⟩
      rw [hsilent serial hnone, hsilent' serial]
      · rfl
      · rw [hdevices]
        intro device hran
        obtain ⟨origin, hmem, rfl⟩ := List.mem_map.1 hran
        rw [Device.ran_serial]
        exact hnone origin hmem

/-- In sequential runs the order is the same too. -/
theorem invocations_again (hsafe : programmer.NeverCrashes) (hsteady : programmer.Steady)
    (h : Repeatable devices) (past past' : List Invocation) :
    (Fleet.run programmer .sequential past'
        (Fleet.run programmer .sequential past devices).devices).trace.invocations =
      withoutWaiting devices
        (Fleet.run programmer .sequential past devices).trace.invocations := by
  obtain ⟨_, hdevices, _⟩ :=
    asked_of_comesTo hsafe hsteady h.nodup (comesTo_run programmer .sequential past devices)
  rw [hdevices, invocations_sequential hsafe hsteady, invocations_sequential hsafe hsteady,
    withoutWaiting, List.filter_append, List.filter_flatMap, List.filter_flatMap,
    List.flatMap_map, List.flatMap_map]
  congr 1
  · apply List.flatMap_congr
    intro device hmem
    rw [(Device.settled_of_plain programmer (h.plain device hmem)).first]
    exact (withoutWaiting_eq h.nodup hmem fun _ => Round.serial_of_mem_asks).symm
  · apply List.flatMap_congr
    intro device hmem
    have hsettled := Device.settled_of_plain programmer (h.plain device hmem)
    have hown : ∀ call ∈ Round.second.asks programmer (Round.first.leaves programmer device),
        call.serial = device.serial := by
      intro call hcall
      rw [Round.serial_of_mem_asks hcall, Round.leaves_serial]
    rw [hsettled.leaves, hsettled.second]
    refine Eq.trans ?_ (withoutWaiting_eq h.nodup hmem hown).symm
    by_cases hwaits : device.waits = true
    · rw [if_pos hwaits, hsettled.silent hwaits]
    · rw [if_neg hwaits]

/-- The devices of a file are such that runs repeat, once they are prepared for a command. -/
theorem repeatable_of_prepared {text : String} {listed prepared : List Device}
    (hparse : DeviceFile.parse text = .ok listed) (h : Selection.Prepared listed prepared) :
    Repeatable prepared := by
  have hloaded := DeviceFile.loaded_of_parse hparse
  refine ⟨h.nodup hloaded, fun device hmem hpending => ?_⟩
  cases h with
  | program selection images =>
    obtain ⟨origin, horigin, rfl⟩ := List.mem_map.1 hmem
    have hflag : (selection.prepareProgram images origin).rebootOnly = origin.rebootOnly := by
      unfold Selection.prepareProgram
      split <;> rfl
    rw [hflag] at hpending
    exact absurd hpending (hloaded.unflagged origin horigin).not_pending
  | reboot selection =>
    obtain ⟨origin, _, rfl⟩ := List.mem_map.1 hmem
    unfold Selection.prepareReboot
    split <;> rfl

/-- With a programmer whose answers depend on the invocation alone, a second run over the devices
that the first left changes nothing, in whatever modes and whatever the threads come to. It asks
again for what the first asked for, without the resets of the devices that waited for a reboot.
In sequential runs that goes for the order as well. Fleets that were prepared for commands are of
this kind. -/
theorem fleet_repeats (hsafe : programmer.NeverCrashes) (hsteady : programmer.Steady) :
    (∀ devices, Repeatable devices →
      (∀ mode mode' past past',
        Repeats devices (Fleet.run programmer mode past devices)
          (Fleet.run programmer mode' past' (Fleet.run programmer mode past devices).devices)) ∧
      (∀ mode mode' past past' first second,
        ComesTo (.of programmer mode past devices) first →
          ComesTo (.of programmer mode' past' first.devices) second →
            Repeats devices first second) ∧
      ∀ past past',
        (Fleet.run programmer .sequential past'
            (Fleet.run programmer .sequential past devices).devices).trace.invocations =
          withoutWaiting devices
            (Fleet.run programmer .sequential past devices).trace.invocations) ∧
      ∀ text listed prepared, DeviceFile.parse text = .ok listed →
        Selection.Prepared listed prepared → Repeatable prepared :=
  ⟨fun _ h =>
    ⟨fun _ _ _ _ => repeats_of_comesTo hsafe hsteady h (comesTo_run ..) (comesTo_run ..),
      fun _ _ _ _ _ _ => repeats_of_comesTo hsafe hsteady h,
      invocations_again hsafe hsteady h⟩,
    fun _ _ _ => repeatable_of_prepared⟩

/-! ## A programmer that writes no words -/

/-- A programmer that succeeds at everything but the writing of words. -/
def wordless : Programmer where
  respond _ call :=
    if call.operation = .writeRegister then
      { outcome := .failed (.toolFailed call.operation.verb call.serial none) }
    else {}

theorem wordless_neverCrashes : wordless.NeverCrashes := by
  intro past call text
  simp only [wordless]
  split <;> simp

/-- The kits of a mixed fleet, with flags that runs left. -/
def usedKits : List Device :=
  mixedKits.map fun device => { device with netProgrammed := .failed, appProgrammed := .done }

/-- The third kit is not reset again. -/
theorem fleet_repeats_usedKits :
    Repeats usedKits (Fleet.run wordless .sequential [] usedKits)
        (Fleet.run wordless .sequential []
          (Fleet.run wordless .sequential [] usedKits).devices) ∧
      (Fleet.run wordless .sequential [] usedKits).trace.invocations =
        [.program .network "n" 1 .sectors, .reset 1, .program .network "n" 2 .sectors, .reset 2,
          .reset 3, .reset 3, .program .application "a" 1 .chip,
          .writeRegister Uicr.channelAddress 0 1, .reset 1] ∧
      (Fleet.run wordless .sequential []
          (Fleet.run wordless .sequential [] usedKits).devices).trace.invocations =
        [.program .network "n" 1 .sectors, .reset 1, .program .network "n" 2 .sectors, .reset 2,
          .program .application "a" 1 .chip, .writeRegister Uicr.channelAddress 0 1, .reset 1] := by
  have hrepeatable : Repeatable usedKits := ⟨by decide, by unfold Device.Plain; decide⟩
  obtain ⟨hrepeats, _, horder⟩ :=
    (fleet_repeats wordless_neverCrashes (fun _ _ _ => rfl)).1 usedKits hrepeatable
  have hfirst : (Fleet.run wordless .sequential [] usedKits).trace.invocations =
      [.program .network "n" 1 .sectors, .reset 1, .program .network "n" 2 .sectors, .reset 2,
        .reset 3, .reset 3, .program .application "a" 1 .chip,
        .writeRegister Uicr.channelAddress 0 1, .reset 1] := by
    decide +kernel
  refine ⟨hrepeats .sequential .sequential [] [], hfirst, ?_⟩
  rw [horder, hfirst]
  decide +kernel

end Threads

end FlashFleet
