import FlashFleet.Phase
import FlashFleet.Proofs.Dialogue
/-!
# What a phase comes to

A phase makes the invocations of its work, records whether all of it succeeded,
and resets the device. Whatever the programmer answers, the device keeps all
but one flag, and the answer to the last reset is not in it.

## Main results

* `Phase.run_ended` — how a phase ends, with a crash or without one.
* `Phase.run_served` — the exchanges of a phase and the flag they lead to.
* `Phase.run_congr` — a phase depends on the outcomes of its invocations alone.
* `Phase.planned_actions` — the invocations that each phase has in mind.
-/

namespace FlashFleet

/-! ## The invocations of a phase -/

namespace Uicr

/-- The words that give a device its identity, in the order they are written. A
headset without a valid channel gets none. -/
def words (device : Device) : List Invocation :=
  match device.kind, Channel.parse? device.channel with
  | .headset, none => []
  | .headset, some channel =>
    [.writeRegister channelAddress channel.word device.serial,
      .writeRegister serialAddress device.serial device.serial]
  | .gateway, _ => [.writeRegister serialAddress device.serial device.serial]

/-- What is wrong with the channel of a headset that has no valid one. -/
def objection? (device : Device) : Option Fault :=
  match device.kind, Channel.parse? device.channel with
  | .headset, none => some (.invalidChannel device.channel)
  | _, _ => none

/-- The channel is missing where one is needed. -/
theorem objection?_eq_none_iff {device : Device} :
    objection? device = none ↔
      (device.kind = .headset → device.channel = "left" ∨ device.channel = "right") := by
  unfold objection? Channel.parse?
  cases device.kind with
  | gateway => exact ⟨fun _ => nofun, fun _ => rfl⟩
  | headset =>
    by_cases hleft : device.channel = "left"
    · simp [hleft]
    · by_cases hright : device.channel = "right"
      · simp [hright]
      · simp [hleft, hright]

theorem planned_actions (device : Device) : Action.planned (actions device) = words device := by
  unfold actions words
  cases device.kind with
  | headset => cases Channel.parse? device.channel <;> rfl
  | gateway => rfl

theorem refusal?_actions (device : Device) :
    Action.refusal? (actions device) = objection? device := by
  unfold actions objection?
  cases device.kind with
  | headset => cases Channel.parse? device.channel <;> rfl
  | gateway => rfl

theorem sound_actions (device : Device) : Action.Sound (actions device) := by
  intro text
  unfold actions writeChannel writeSerial detail
  cases device.kind with
  | headset => cases Channel.parse? device.channel <;> simp [Kind.requiresChannel]
  | gateway => simp [Kind.requiresChannel]

/-- To give a device its identity is to write its words. -/
theorem mem_words {device : Device} {call : Invocation} (h : .invoke call ∈ actions device) :
    call ∈ words device := by
  unfold actions writeChannel writeSerial detail at h
  unfold words
  cases hkind : device.kind with
  | headset =>
    cases hchannel : Channel.parse? device.channel with
    | none => simp [hkind, hchannel, Kind.requiresChannel] at h
    | some channel => simpa [hkind, hchannel, Kind.requiresChannel] using h
  | gateway => simpa [hkind, Kind.requiresChannel] using h

/-- The words are written through the probe of the device. -/
theorem eq_writeRegister_of_mem_words {device : Device} {call : Invocation}
    (h : call ∈ words device) :
    ∃ address value, call = .writeRegister address value device.serial := by
  unfold words at h
  split at h
  · cases h
  · rcases List.mem_cons.1 h with rfl | h
    · exact ⟨_, _, rfl⟩
    · exact ⟨_, _, List.mem_singleton.1 h⟩
  · exact ⟨_, _, List.mem_singleton.1 h⟩

end Uicr

namespace Phase

/-- Recording leaves the flags of other phases. -/
theorem flag_record_of_ne {phase own : Phase} (h : phase ≠ own) (flag : Flag) (device : Device) :
    own.flag (phase.record flag device) = own.flag device := by
  cases phase <;> cases own <;> first | rfl | exact absurd rfl h

/-- The device has what the phase needs. -/
def Possible (phase : Phase) (device : Device) : Prop :=
  match phase with
  | .reboot => True
  | .net => device.netImage.isSome = true
  | .app => device.appImage.isSome = true

/-- The invocations of a phase before its last reset. -/
def plan (phase : Phase) (device : Device) : List Invocation :=
  match phase with
  | .reboot => [.reset device.serial]
  | .net =>
    match device.netImage with
    | none => []
    | some image => [.program .network image device.serial .sectors]
  | .app =>
    match device.appImage with
    | none => []
    | some image => .program .application image device.serial .chip :: Uicr.words device

/-- Nothing that a phase plans depends on flags. -/
theorem plan_record (phase own : Phase) (flag : Flag) (device : Device) :
    phase.plan (own.record flag device) = phase.plan device := by
  cases own <;> cases phase <;> rfl

/-- The fault with which a phase ends by itself after its invocations. -/
def objection? (phase : Phase) (device : Device) : Option Fault :=
  match phase with
  | .app => Uicr.objection? device
  | _ => none

theorem planned_actions (phase : Phase) (device : Device) :
    Action.planned (phase.actions device) = phase.plan device := by
  cases phase with
  | reboot => rfl
  | net =>
    simp only [actions, plan]
    cases device.netImage <;> rfl
  | app =>
    simp only [actions, plan]
    cases device.appImage with
    | none => rfl
    | some image =>
      simp only [List.cons_append, List.nil_append, notice, Action.planned]
      rw [Uicr.planned_actions]

theorem refusal?_actions {phase : Phase} {device : Device} (h : phase.Possible device) :
    Action.refusal? (phase.actions device) = phase.objection? device := by
  cases phase with
  | reboot => rfl
  | net =>
    simp only [actions, objection?]
    cases device.netImage <;> rfl
  | app =>
    simp only [actions, objection?]
    cases himage : device.appImage with
    | none => simp [Possible, himage] at h
    | some image => exact Uicr.refusal?_actions device

/-- A phase that is possible does not crash by itself. -/
theorem sound_actions {phase : Phase} {device : Device} (h : phase.Possible device) :
    Action.Sound (phase.actions device) := by
  intro text
  cases phase with
  | reboot => simp [actions, notice]
  | net =>
    cases himage : device.netImage with
    | none => simp [Possible, himage] at h
    | some image => simp [actions, notice, himage]
  | app =>
    cases himage : device.appImage with
    | none => simp [Possible, himage] at h
    | some image => simp [actions, notice, himage, Uicr.sound_actions device text]

/-- What a phase asks for is in its plan. -/
theorem mem_plan {phase : Phase} {device : Device} {call : Invocation}
    (h : .invoke call ∈ phase.actions device) : call ∈ phase.plan device := by
  cases phase with
  | reboot => simpa [actions, notice, plan] using h
  | net =>
    cases himage : device.netImage with
    | none => simp [actions, missingImage, himage] at h
    | some image => simpa [actions, notice, plan, himage] using h
  | app =>
    cases himage : device.appImage with
    | none => simp [actions, missingImage, himage] at h
    | some image =>
      simp only [actions, notice, himage, List.mem_append, List.mem_cons, List.not_mem_nil,
        or_false, reduceCtorEq, Action.invoke.injEq, false_or] at h
      simp only [plan, himage]
      rcases h with rfl | h
      · exact List.mem_cons_self
      · exact List.mem_cons_of_mem _ (Uicr.mem_words h)

/-- A phase works through the probe of its device. -/
theorem serial_of_mem_plan {phase : Phase} {device : Device} {call : Invocation}
    (h : call ∈ phase.plan device) : call.serial = device.serial := by
  cases phase with
  | reboot =>
    rw [List.mem_singleton.1 h]
    rfl
  | net =>
    unfold plan at h
    cases himage : device.netImage with
    | none => simp [himage] at h
    | some image =>
      simp only [himage, List.mem_singleton] at h
      rw [h]
      rfl
  | app =>
    unfold plan at h
    cases himage : device.appImage with
    | none => simp [himage] at h
    | some image =>
      simp only [himage] at h
      rcases List.mem_cons.1 h with rfl | h
      · rfl
      · obtain ⟨address, value, rfl⟩ := Uicr.eq_writeRegister_of_mem_words h
        rfl

/-- The invocation is one that the phase may make: one of its work, or its last
reset. -/
def Makes (phase : Phase) (device : Device) (call : Invocation) : Prop :=
  .invoke call ∈ phase.actions device ∨ call = .reset device.serial

theorem Makes.serial {phase : Phase} {device : Device} {call : Invocation}
    (h : phase.Makes device call) : call.serial = device.serial := by
  rcases h with h | rfl
  · exact serial_of_mem_plan (mem_plan h)
  · rfl

/-! ## The course of a phase -/

/-- The events of a phase up to the last that is part of its work. -/
def begun (phase : Phase) (programmer : Programmer) (past : List Invocation) (device : Device) :
    Events :=
  .phaseStarted device.serial phase :: (perform programmer past (phase.actions device)).events

theorem run_of_crashed {phase : Phase} {programmer : Programmer} {past : List Invocation}
    {device : Device} {text : String}
    (h : (perform programmer past (phase.actions device)).outcome = .crashed text) :
    phase.run programmer past device =
      ⟨phase.begun programmer past device, device, some text⟩ := by
  simp [run, begun, h]

theorem run_of_failed {phase : Phase} {programmer : Programmer} {past : List Invocation}
    {device : Device} {fault : Fault}
    (h : (perform programmer past (phase.actions device)).outcome = .failed fault) :
    phase.run programmer past device =
      let last := phase.finish programmer
        (past ++ Events.invocations (phase.begun programmer past device)) .failed
        (phase.record .failed device)
      { last with
        events := phase.begun programmer past device ++
          .log (phase.failure device.serial fault) :: last.events } := by
  simp [run, begun, h]

theorem run_of_succeeded {phase : Phase} {programmer : Programmer} {past : List Invocation}
    {device : Device}
    (h : (perform programmer past (phase.actions device)).outcome = .succeeded) :
    phase.run programmer past device =
      let last := phase.finish programmer
        (past ++ Events.invocations (phase.begun programmer past device)) .done
        (phase.record .done device)
      { last with events := phase.begun programmer past device ++ last.events } := by
  simp [run, begun, h]

@[simp] theorem calls_begun (phase : Phase) (programmer : Programmer) (past : List Invocation)
    (device : Device) :
    Events.calls (phase.begun programmer past device) =
      Events.calls (perform programmer past (phase.actions device)).events := rfl

@[simp] theorem invocations_begun (phase : Phase) (programmer : Programmer)
    (past : List Invocation) (device : Device) :
    Events.invocations (phase.begun programmer past device) =
      Events.invocations (perform programmer past (phase.actions device)).events := rfl

/-- The last reset shows of itself what an invocation does, and the device is left
as it is. -/
theorem finish_calls (phase : Phase) (programmer : Programmer) (past : List Invocation)
    (flag : Flag) (device : Device) :
    Events.calls (phase.finish programmer past flag device).events =
        Events.calls (programmer.call past (.reset device.serial)).events ∧
      (phase.finish programmer past flag device).device = device ∧
      (phase.finish programmer past flag device).crash =
        match (programmer.respond past (.reset device.serial)).outcome with
        | .crashed text => some text
        | _ => none := by
  simp only [finish, Programmer.call_outcome]
  cases (programmer.respond past (.reset device.serial)).outcome with
  | succeeded => simp
  | failed fault => simp
  | crashed text => simp

/-- A phase keeps the probe. -/
theorem run_serial (phase : Phase) (programmer : Programmer) (past : List Invocation)
    (device : Device) : (phase.run programmer past device).device.serial = device.serial := by
  cases houtcome : (perform programmer past (phase.actions device)).outcome with
  | crashed text => rw [run_of_crashed houtcome]
  | failed fault =>
    rw [run_of_failed houtcome]
    simp only
    rw [(finish_calls ..).2.1, record_serial]
  | succeeded =>
    rw [run_of_succeeded houtcome]
    simp only
    rw [(finish_calls ..).2.1, record_serial]

/-- The flag of a phase that made these exchanges before its last reset: whether
the plan was carried out. -/
def verdict (phase : Phase) (device : Device) (exchanges : List Exchange) : Flag :=
  .ofSuccess ((firstFault? exchanges).or (phase.objection? device)).isNone

/-- How a phase ends: it records its flag and resets the device, or the programmer
crashes before the flag was recorded, or at the last reset. -/
inductive Ended (phase : Phase) (device : Device) (run : Run) : Prop where
  | completed {exchanges : List Exchange} (last : Option Fault)
      (hattempt : Attempt (phase.plan device) exchanges)
      (hcalls : Events.calls run.events = shown (exchanges ++ [⟨.reset device.serial, last⟩]))
      (hdevice : run.device = phase.record (phase.verdict device exchanges) device)
      (hcrash : run.crash = none)
  | interrupted {text : String}
      (hcalls : Interrupted (phase.plan device) (Events.calls run.events))
      (hdevice : run.device = device) (hcrash : run.crash = some text)
  | unreset {exchanges : List Exchange} {text : String}
      (hattempt : Attempt (phase.plan device) exchanges)
      (hcalls : Events.calls run.events = shown exchanges ++ [.began (.reset device.serial)])
      (hdevice : run.device = phase.record (phase.verdict device exchanges) device)
      (hcrash : run.crash = some text)

/-- A phase whose work came to a flag ends with the last reset. -/
private theorem ended_of_finish {phase : Phase} {device : Device} {exchanges : List Exchange}
    (hattempt : Attempt (phase.plan device) exchanges) (programmer : Programmer)
    (before : List Invocation) {events : Events} (hcalls : Events.calls events = shown exchanges) :
    let last := phase.finish programmer before (phase.verdict device exchanges)
      (phase.record (phase.verdict device exchanges) device)
    phase.Ended device { last with events := events ++ last.events } := by
  obtain ⟨hshown, hdevice, hcrash⟩ := finish_calls phase programmer before
    (phase.verdict device exchanges) (phase.record (phase.verdict device exchanges) device)
  rw [record_serial] at hshown hcrash
  rw [Programmer.calls_call] at hshown
  cases hanswer : (programmer.respond before (.reset device.serial)).outcome with
  | succeeded =>
    rw [hanswer] at hshown hcrash
    refine .completed none hattempt ?_ hdevice hcrash
    rw [Events.calls_append, hcalls, hshown, shown_append]
    rfl
  | failed fault =>
    rw [hanswer] at hshown hcrash
    refine .completed (some fault) hattempt ?_ hdevice hcrash
    rw [Events.calls_append, hcalls, hshown, shown_append]
    rfl
  | crashed text =>
    rw [hanswer] at hshown hcrash
    refine .unreset hattempt ?_ hdevice hcrash
    rw [Events.calls_append, hcalls, hshown]

/-- How a phase that is possible ends. -/
theorem run_ended {phase : Phase} {device : Device} (hpossible : phase.Possible device)
    (programmer : Programmer) (past : List Invocation) :
    phase.Ended device (phase.run programmer past device) := by
  rcases perform_ends programmer (sound_actions hpossible) past with
    ⟨exchanges, hcalls, hattempt, houtcome⟩ | ⟨text, hinterrupted, houtcome, _⟩
  · rw [planned_actions] at hattempt
    rw [refusal?_actions hpossible] at houtcome
    have hbegun : Events.calls (phase.begun programmer past device) = shown exchanges := hcalls
    cases hfault : (firstFault? exchanges).or (phase.objection? device) with
    | none =>
      have hverdict : phase.verdict device exchanges = .done := by
        rw [verdict, hfault]
        rfl
      rw [hfault] at houtcome
      rw [run_of_succeeded houtcome, ← hverdict]
      exact ended_of_finish hattempt programmer _ hbegun
    | some fault =>
      have hverdict : phase.verdict device exchanges = .failed := by
        rw [verdict, hfault]
        rfl
      rw [hfault] at houtcome
      rw [run_of_failed houtcome, ← hverdict]
      have hlogged : Events.calls (phase.begun programmer past device ++
          [.log (phase.failure device.serial fault)]) = shown exchanges := by
        rw [Events.calls_append, hbegun]
        exact List.append_nil _
      have hended := ended_of_finish hattempt programmer
        (past ++ Events.invocations (phase.begun programmer past device)) hlogged
      simp only [List.append_assoc, List.singleton_append] at hended
      exact hended
  · rw [planned_actions] at hinterrupted
    rw [run_of_crashed houtcome]
    exact .interrupted hinterrupted rfl rfl

/-- With a programmer that never crashes a phase that is possible does not
either. -/
theorem crash_of_neverCrashes {phase : Phase} {programmer : Programmer} {device : Device}
    (hsafe : programmer.NeverCrashes) (hpossible : phase.Possible device)
    (past : List Invocation) : (phase.run programmer past device).crash = none := by
  have hreset : ∀ flag before after,
      (phase.finish programmer before flag after).crash = none := by
    intro flag before after
    rw [(finish_calls ..).2.2]
    cases hanswer : (programmer.respond before (.reset after.serial)).outcome with
    | crashed text => exact absurd hanswer (hsafe _ _ text)
    | _ => rfl
  obtain ⟨exchanges, _, _, houtcome⟩ := perform_attempt hsafe (sound_actions hpossible) past
  cases hfault : (firstFault? exchanges).or (Action.refusal? (phase.actions device)) with
  | none =>
    rw [hfault] at houtcome
    rw [run_of_succeeded houtcome]
    exact hreset ..
  | some fault =>
    rw [hfault] at houtcome
    rw [run_of_failed houtcome]
    exact hreset ..

/-- The exchanges of a phase that is possible: those of its plan, up to the first
that fails, and the last reset. The flag tells whether the plan was carried out. -/
theorem run_served {phase : Phase} {programmer : Programmer} {device : Device}
    (hsafe : programmer.NeverCrashes) (hpossible : phase.Possible device)
    (past : List Invocation) :
    ∃ exchanges last,
      Events.calls (phase.run programmer past device).events =
        shown (exchanges ++ [⟨.reset device.serial, last⟩]) ∧
      Attempt (phase.plan device) exchanges ∧
      (phase.run programmer past device).device =
        phase.record
          (.ofSuccess ((firstFault? exchanges).or (phase.objection? device)).isNone) device ∧
      (phase.run programmer past device).crash = none := by
  have hnone := crash_of_neverCrashes hsafe hpossible past
  cases run_ended hpossible programmer past with
  | completed last hattempt hcalls hdevice hcrash =>
    exact ⟨_, last, hcalls, hattempt, hdevice, hcrash⟩
  | interrupted hcalls hdevice hcrash => rw [hnone] at hcrash; cases hcrash
  | unreset hattempt hcalls hdevice hcrash => rw [hnone] at hcrash; cases hcrash

/-- What a phase calls for and what it makes of the device depends on the
outcomes of its invocations alone. -/
theorem run_congr {phase : Phase} {programmer other : Programmer} {device : Device}
    (hsame : ∀ past call, call.serial = device.serial →
      (programmer.respond past call).outcome = (other.respond past call).outcome)
    (past : List Invocation) :
    Events.calls (phase.run programmer past device).events =
        Events.calls (phase.run other past device).events ∧
      (phase.run programmer past device).device = (phase.run other past device).device := by
  have hserial : ∀ call, .invoke call ∈ phase.actions device → call.serial = device.serial :=
    fun _ h => serial_of_mem_plan (mem_plan h)
  obtain ⟨hcalls, houtcome⟩ := perform_congr hsame hserial past
  have hnow : Events.invocations (phase.begun programmer past device) =
      Events.invocations (phase.begun other past device) := by
    rw [invocations_begun, invocations_begun, ← Events.invocations_calls, hcalls,
      Events.invocations_calls]
  have hfinish : ∀ flag before,
      Events.calls (phase.finish programmer before flag (phase.record flag device)).events =
          Events.calls (phase.finish other before flag (phase.record flag device)).events ∧
        (phase.finish programmer before flag (phase.record flag device)).device =
          (phase.finish other before flag (phase.record flag device)).device := by
    intro flag before
    obtain ⟨hshown, hdevice, _⟩ :=
      finish_calls phase programmer before flag (phase.record flag device)
    obtain ⟨hshown', hdevice', _⟩ :=
      finish_calls phase other before flag (phase.record flag device)
    refine ⟨?_, hdevice.trans hdevice'.symm⟩
    have hreset : (Invocation.reset (phase.record flag device).serial).serial = device.serial :=
      record_serial phase flag device
    rw [hshown, hshown', Programmer.calls_call, Programmer.calls_call, hsame _ _ hreset]
  cases hanswer : (perform other past (phase.actions device)).outcome with
  | crashed text =>
    rw [run_of_crashed (houtcome.trans hanswer), run_of_crashed hanswer]
    exact ⟨hcalls, rfl⟩
  | failed fault =>
    rw [run_of_failed (houtcome.trans hanswer), run_of_failed hanswer, hnow]
    obtain ⟨hlast, hdevice⟩ := hfinish .failed
      (past ++ Events.invocations (phase.begun other past device))
    refine ⟨?_, hdevice⟩
    simp only [Events.calls_append, Events.calls_log, calls_begun, hcalls, hlast]
  | succeeded =>
    rw [run_of_succeeded (houtcome.trans hanswer), run_of_succeeded hanswer, hnow]
    obtain ⟨hlast, hdevice⟩ := hfinish .done
      (past ++ Events.invocations (phase.begun other past device))
    refine ⟨?_, hdevice⟩
    simp only [Events.calls_append, calls_begun, hcalls, hlast]

end Phase

end FlashFleet
