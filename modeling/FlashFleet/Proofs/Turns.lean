import FlashFleet.Proofs.Provisioning
/-!
# Phase after phase on one device

A phase for which the device has no image crashes before anything is asked for. Any other
phase carries out its plan as far as the programmer lets it, records in its own flag whether
that was all of it, and resets the device. The answer to this last reset is too late for the
flag. So phases that are run one after another on a device do not meddle with each other: each
flag is as the last run of its own phase left it.

## Main results

* `run_of_lacks` — a phase without its image crashes and leaves everything as it was.
* `run_work` — what a phase asks for and the flag that it records.
* `leftBy_turns` — the device after phases that were run one after another.
* `phases_settle` — all of it together.
-/

namespace FlashFleet

/-- The flag for what came of the work of a phase. -/
def Outcome.flag (outcome : Outcome) : Flag := .ofSuccess (outcome = .succeeded)

theorem Outcome.flag_eq_done_iff {outcome : Outcome} :
    outcome.flag = .done ↔ outcome = .succeeded := by
  unfold flag
  by_cases h : outcome = .succeeded
  · simp [h, Flag.ofSuccess]
  · simp [h, Flag.ofSuccess]

/-- A phase that was worked on is done or failed. -/
theorem Outcome.flag_settled (outcome : Outcome) :
    outcome.flag = .done ∨ outcome.flag = .failed := by
  unfold flag Flag.ofSuccess
  split
  · exact .inl rfl
  · exact .inr rfl

theorem nonEmpty_eq_none_iff {path : Option ImagePath} :
    nonEmpty path = none ↔ path = none ∨ path = some "" := by
  cases path with
  | none => simp [nonEmpty]
  | some path => simp [nonEmpty]

namespace Phase

variable {phase : Phase} {programmer : Programmer} {past : List Invocation} {device : Device}

/-! ## A phase without its image -/

/-- The phase needs an image that is not there, or whose path is empty. -/
def Lacks (phase : Phase) (device : Device) : Prop :=
  match phase with
  | .reboot => False
  | .net => device.netFile = none ∨ device.netFile = some ""
  | .app => device.appFile = none ∨ device.appFile = some ""

theorem possible_of_not_lacks (h : ¬ phase.Lacks device) : phase.Possible device := by
  cases phase with
  | reboot => trivial
  | net => exact Option.isSome_iff_ne_none.2 fun hnone => h (nonEmpty_eq_none_iff.1 hnone)
  | app => exact Option.isSome_iff_ne_none.2 fun hnone => h (nonEmpty_eq_none_iff.1 hnone)

/-- It crashes before anything is asked for, and the device stays as it was. -/
theorem run_of_lacks (h : phase.Lacks device) (programmer : Programmer)
    (past : List Invocation) :
    ∃ text, phase.run programmer past device =
      ⟨[.phaseStarted device.serial phase], device, some text⟩ := by
  have hcrashes : ∀ text, phase.actions device = [.crash text] →
      phase.run programmer past device =
        ⟨[.phaseStarted device.serial phase], device, some text⟩ := by
    intro text hactions
    have houtcome : (perform programmer past (phase.actions device)).outcome = .crashed text := by
      rw [hactions]
      rfl
    rw [run_of_crashed houtcome, begun, hactions]
    rfl
  cases phase with
  | reboot => exact h.elim
  | net =>
    have hnone : device.netImage = none := nonEmpty_eq_none_iff.2 h
    exact ⟨_, hcrashes _ (by simp only [actions, hnone]; rfl)⟩
  | app =>
    have hnone : device.appImage = none := nonEmpty_eq_none_iff.2 h
    exact ⟨_, hcrashes _ (by simp only [actions, hnone]; rfl)⟩

/-! ## The work of a phase -/

/-- The invocations of a phase before its last reset, and what comes of them. -/
def work (phase : Phase) (programmer : Programmer) (past : List Invocation) (device : Device) :
    List Invocation × Outcome :=
  let made := programmer.carry past (phase.plan device)
  (made.1, made.2.followedBy (.ofFault? (phase.objection? device)))

/-- What a phase without a crash in its work asks for, and the flag that it records. -/
theorem run_work (hpossible : phase.Possible device)
    (hwork : ∀ text, (phase.work programmer past device).2 ≠ .crashed text) :
    Events.invocations (phase.run programmer past device).events =
        (phase.work programmer past device).1 ++ [.reset device.serial] ∧
      (phase.run programmer past device).device =
        phase.record (phase.work programmer past device).2.flag device := by
  obtain ⟨hmade, houtcome⟩ := perform_carry programmer (sound_actions hpossible) past
  rw [planned_actions] at hmade houtcome
  rw [refusal?_actions hpossible] at houtcome
  have hfinish : ∀ before flag,
      Events.invocations (phase.finish programmer before flag (phase.record flag device)).events =
          [.reset device.serial] ∧
        (phase.finish programmer before flag (phase.record flag device)).device =
          phase.record flag device := by
    intro before flag
    obtain ⟨hcalls, hdevice, _⟩ :=
      finish_calls phase programmer before flag (phase.record flag device)
    refine ⟨?_, hdevice⟩
    rw [← Events.invocations_calls, hcalls, Events.invocations_calls,
      Programmer.invocations_call, record_serial]
  cases hanswer : (phase.work programmer past device).2 with
  | crashed text => exact absurd hanswer (hwork text)
  | failed fault =>
    rw [run_of_failed (houtcome.trans hanswer)]
    simp only [Events.invocations_append, Events.invocations_log, invocations_begun, hmade,
      hfinish]
    exact ⟨rfl, rfl⟩
  | succeeded =>
    rw [run_of_succeeded (houtcome.trans hanswer)]
    simp only [Events.invocations_append, invocations_begun, hmade, hfinish]
    exact ⟨rfl, rfl⟩

theorem plan_ne_nil (hpossible : phase.Possible device) : phase.plan device ≠ [] := by
  cases phase with
  | reboot => exact List.cons_ne_nil _ _
  | net =>
    obtain ⟨image, himage⟩ := Option.isSome_iff_exists.1 hpossible
    simp only [plan, himage]
    exact List.cons_ne_nil _ _
  | app =>
    obtain ⟨image, himage⟩ := Option.isSome_iff_exists.1 hpossible
    simp only [plan, himage]
    exact List.cons_ne_nil _ _

theorem work_ne_crashed (hsafe : programmer.NeverCrashes) (hpossible : phase.Possible device)
    (past : List Invocation) (text : String) :
    (phase.work programmer past device).2 ≠ .crashed text := by
  obtain ⟨before, call, _, _, houtcome⟩ := programmer.carry_split (plan_ne_nil hpossible) past
  simp only [work]
  rw [houtcome]
  cases hanswer : (programmer.respond (past ++ before) call).outcome with
  | crashed other => exact absurd hanswer (hsafe _ _ other)
  | failed fault => nofun
  | succeeded => cases phase.objection? device <;> nofun

theorem objection?_eq_none_iff :
    phase.objection? device = none ↔
      (phase = .app → device.kind = .headset →
        device.channel = "left" ∨ device.channel = "right") := by
  cases phase with
  | app => exact Uicr.objection?_eq_none_iff.trans ⟨fun h _ => h, fun h => h rfl⟩
  | net => exact ⟨nofun, fun _ => rfl⟩
  | reboot => exact ⟨nofun, fun _ => rfl⟩

/-- The flag tells whether everything succeeded and the channel, where one is needed, is one. -/
theorem work_flag_eq_done_iff :
    (phase.work programmer past device).2.flag = .done ↔
      programmer.Succeeds past (phase.work programmer past device).1 ∧
        (phase = .app → device.kind = .headset →
          device.channel = "left" ∨ device.channel = "right") := by
  have hobjection : Outcome.ofFault? (phase.objection? device) = .succeeded ↔
      phase.objection? device = none := by
    cases phase.objection? device <;> simp [Outcome.ofFault?]
  rw [Outcome.flag_eq_done_iff, work, Outcome.followedBy_eq_succeeded_iff, hobjection,
    objection?_eq_none_iff, Programmer.succeeds_carry_iff]

/-- What a phase that has what it needs does to a device: it makes the earlier invocations, records
the flag and resets the device. -/
structure Settles (phase : Phase) (programmer : Programmer) (past : List Invocation)
    (device : Device) (earlier : List Invocation) (flag : Flag) : Prop where
  /-- The phase comes to its end. -/
  crash : (phase.run programmer past device).crash = none
  /-- The last invocation is a reset. -/
  invocations : Events.invocations (phase.run programmer past device).events =
    earlier ++ [.reset device.serial]
  /-- Those before it are planned, and there is at least one. -/
  planned : earlier ≠ [] ∧ earlier <+: phase.plan device
  /-- They are all of the probe of the device. -/
  serial : ∀ call ∈ earlier, call.serial = device.serial
  /-- The device keeps everything but the flag of the phase. -/
  kept : (phase.run programmer past device).device = phase.record flag device
  /-- The phase is over for the device. -/
  settled : flag = .done ∨ flag = .failed
  /-- It is done if everything before the last reset succeeded, and if the channel of a headset
  whose application core is programmed is one. -/
  done_iff : flag = .done ↔ programmer.Succeeds past earlier ∧
    (phase = .app → device.kind = .headset → device.channel = "left" ∨ device.channel = "right")
  /-- The answer to the last reset is not in it: with a programmer that gives the same answers
  before, nothing else is asked for, and the device is left as it is. -/
  unmoved : ∀ other : Programmer,
    (∀ before call, before.length < past.length + earlier.length →
      (other.respond before call).outcome = (programmer.respond before call).outcome) →
    Events.invocations (phase.run other past device).events =
        earlier ++ [.reset device.serial] ∧
      (phase.run other past device).device = phase.record flag device

theorem settles_of_possible (hsafe : programmer.NeverCrashes) (hpossible : phase.Possible device)
    (past : List Invocation) :
    phase.Settles programmer past device (phase.work programmer past device).1
      (phase.work programmer past device).2.flag := by
  have hwork := work_ne_crashed hsafe hpossible past
  obtain ⟨hmade, hdevice⟩ := run_work hpossible hwork
  have hinitial := programmer.carry_prefix past (phase.plan device)
  refine
    { crash := crash_of_neverCrashes hsafe hpossible past
      invocations := hmade
      planned := ⟨?_, hinitial⟩
      serial := fun call hcall => serial_of_mem_plan (hinitial.subset hcall)
      kept := hdevice
      settled := Outcome.flag_settled _
      done_iff := work_flag_eq_done_iff
      unmoved := ?_ }
  · obtain ⟨before, call, hcarried, _⟩ := programmer.carry_split (plan_ne_nil hpossible) past
    simp only [work, hcarried]
    exact List.append_ne_nil_of_right_ne_nil _ (List.cons_ne_nil _ _)
  · intro other hsame
    have hother : phase.work other past device = phase.work programmer past device := by
      simp only [work, Programmer.carry_congr hsame]
    rw [← hother] at hwork ⊢
    exact run_work hpossible hwork

/-! ## Phases one after another -/

/-- A phase that was run, and what it did. -/
structure Turn where
  phase : Phase
  run : Run
  deriving DecidableEq, Repr

/-- Runs phases one after another, each on the device as the one before left it. One that
crashes does not keep the next from its turn; a sequence that stops at a crash is a shorter
sequence. -/
def turns (programmer : Programmer) : List Invocation → Device → List Phase → List Turn
  | _, _, [] => []
  | past, device, phase :: rest =>
    let run := phase.run programmer past device
    ⟨phase, run⟩ :: turns programmer (past ++ Events.invocations run.events) run.device rest

/-- The device as the last turn left it. -/
def leftBy (device : Device) (turns : List Turn) : Device :=
  (turns.getLast?.map (·.run.device)).getD device

/-- The flag to which a turn of the phase came, if it did not crash. -/
def Turn.outcome? (own : Phase) (turn : Turn) : Option Flag :=
  if turn.phase = own ∧ turn.run.crash = none then some (own.flag turn.run.device) else none

/-- The flag to which the last turn of the phase came. -/
def lastOutcome? (own : Phase) (turns : List Turn) : Option Flag :=
  (turns.filterMap (Turn.outcome? own)).getLast?

/-- The device with other flags. -/
def withFlags (device : Device) (flags : Phase → Flag) : Device :=
  { device with
    rebootOnly := flags .reboot
    netProgrammed := flags .net
    appProgrammed := flags .app }

theorem withFlags_record (phase : Phase) (flag : Flag) (device : Device) (flags : Phase → Flag) :
    withFlags (phase.record flag device) flags = withFlags device flags := by
  cases phase <;> rfl

/-- Only the last turn that came to an outcome counts. -/
theorem lastOutcome?_cons (own : Phase) (turn : Turn) (rest : List Turn) (flag : Flag) :
    (lastOutcome? own (turn :: rest)).getD flag =
      (lastOutcome? own rest).getD ((turn.outcome? own).getD flag) := by
  unfold lastOutcome?
  cases houtcome : turn.outcome? own with
  | none => rw [List.filterMap_cons_none houtcome, Option.getD_none]
  | some outcome =>
    rw [List.filterMap_cons_some houtcome, List.getLast?_cons, Option.getD_some, Option.getD_some]

theorem leftBy_cons (device : Device) (turn : Turn) (rest : List Turn) :
    leftBy device (turn :: rest) = leftBy turn.run.device rest := by
  unfold leftBy
  rw [List.getLast?_cons]
  cases rest.getLast? <;> rfl

/-- One turn changes no flag but that of its phase, and nothing else of the device. -/
theorem turn_frame (hsafe : programmer.NeverCrashes) (phase : Phase) (past : List Invocation)
    (device : Device) :
    (∀ flags, withFlags (phase.run programmer past device).device flags =
        withFlags device flags) ∧
      ∀ own : Phase, (Turn.outcome? own ⟨phase, phase.run programmer past device⟩).getD
        (own.flag device) = own.flag (phase.run programmer past device).device := by
  by_cases hlacks : phase.Lacks device
  · obtain ⟨text, hrun⟩ := run_of_lacks hlacks programmer past
    rw [hrun]
    refine ⟨fun _ => rfl, fun own => ?_⟩
    rw [Turn.outcome?, if_neg fun h => nomatch h.2]
    rfl
  · obtain ⟨hcrash, _, _, _, hdevice, _, _, _⟩ :=
      settles_of_possible hsafe (possible_of_not_lacks hlacks) past
    refine ⟨fun flags => ?_, fun own => ?_⟩
    · rw [hdevice, withFlags_record]
    · by_cases hown : phase = own
      · rw [Turn.outcome?, if_pos ⟨hown, hcrash⟩]
        rfl
      · rw [Turn.outcome?, if_neg fun h => hown h.1, hdevice, flag_record_of_ne hown]
        rfl

/-- After phases that were run one after another each flag is as the last run of its own phase
left it, and the rest of the device is as it was. -/
theorem leftBy_turns (hsafe : programmer.NeverCrashes) (phases : List Phase)
    (past : List Invocation) (device : Device) :
    leftBy device (turns programmer past device phases) =
      withFlags device fun own =>
        (lastOutcome? own (turns programmer past device phases)).getD (own.flag device) := by
  induction phases generalizing past device with
  | nil => rfl
  | cons phase rest ih =>
    obtain ⟨hframe, hflag⟩ := turn_frame hsafe phase past device
    rw [turns, leftBy_cons, ih, hframe]
    simp only [lastOutcome?_cons, hflag]

/-- A phase without its image crashes before anything is asked for and leaves the device as it
is. Any other records whether its work succeeded in its own flag and resets the device. Of
phases that are run one after another, each flag tells of the last of its own. -/
theorem phases_settle (hsafe : programmer.NeverCrashes) (past : List Invocation)
    (device : Device) :
    (∀ phase : Phase, phase.Lacks device → ∃ text, phase.run programmer past device =
        ⟨[.phaseStarted device.serial phase], device, some text⟩) ∧
      (∀ phase : Phase, ¬ phase.Lacks device →
        ∃ earlier flag, phase.Settles programmer past device earlier flag) ∧
      ∀ phases, leftBy device (turns programmer past device phases) =
        withFlags device fun own =>
          (lastOutcome? own (turns programmer past device phases)).getD (own.flag device) :=
  ⟨fun _ hlacks => run_of_lacks hlacks programmer past,
    fun _ hlacks => ⟨_, _, settles_of_possible hsafe (possible_of_not_lacks hlacks) past⟩,
    fun phases => leftBy_turns hsafe phases past device⟩

/-! ## Resets that all fail -/

/-- A programmer that succeeds at everything but resets. -/
def unresetting : Programmer where
  respond _ call :=
    if call.operation = .reset then
      { outcome := .failed (.toolFailed call.operation.verb call.serial none) }
    else {}

/-- A headset with an image for its network core, and with an empty path for the other. -/
def halfHeadset : Device :=
  { serial := 7, kind := .headset, channel := "left", appFile := some "", netFile := some "n" }

theorem unresetting_neverCrashes : unresetting.NeverCrashes := by
  intro past call text
  simp only [unresetting]
  split <;> simp

/-- The last reset does not count for the network core, and the first does for a reboot. The
application core cannot be programmed. -/
theorem phases_settle_halfHeadset :
    (∃ text, Phase.run .app unresetting [] halfHeadset =
        ⟨[.phaseStarted 7 .app], halfHeadset, some text⟩) ∧
      (∃ earlier flag, Settles .net unresetting [] halfHeadset earlier flag) ∧
      leftBy halfHeadset (turns unresetting [] halfHeadset [.net, .app, .reboot]) =
        { halfHeadset with rebootOnly := .failed, netProgrammed := .done } := by
  have hlacks : Phase.Lacks .app halfHeadset ∧ ¬ Phase.Lacks .net halfHeadset := by
    simp [Lacks, halfHeadset]
  obtain ⟨hcrashes, hsettles, hturns⟩ := phases_settle unresetting_neverCrashes [] halfHeadset
  refine ⟨hcrashes .app hlacks.1, hsettles .net hlacks.2, ?_⟩
  rw [hturns]
  decide +kernel

end Phase

end FlashFleet
