import FlashFleet.Backend.Dummy
import FlashFleet.Proofs.Isolation
import FlashFleet.Proofs.Trouble
/-!
# What the simulated programmer makes of a device

The simulated programmer fails what it was told to, by operation and serial, whatever came
before. So the flag of each phase can be told from the list and the device, and so can
those of both rounds. The reset behind the work of a phase is in no flag, and a headset
without a channel fails whatever the list says.

## Main results

* `Dummy.run_device` — the flag of a phase tells whether it fails.
* `Dummy.failsPhase_app` and its like — which phases fail.
* `Dummy.solitary_settle` — what both rounds make of a device.
-/

namespace FlashFleet

namespace Dummy

variable {dummy : Dummy} {device : Device}

/-- The simulated programmer answers every invocation. -/
theorem neverCrashes (dummy : Dummy) : dummy.programmer.NeverCrashes := by
  intro past call text
  simp only [programmer, respond]
  split <;> simp

/-- It answers each as if nothing had been asked before. -/
theorem perProbe (dummy : Dummy) : dummy.programmer.PerProbe := fun _ _ _ _ => rfl

/-- The programmer was told to fail the operation on the probe. -/
def fails (dummy : Dummy) (operation : Operation) (serial : Serial) : Bool :=
  dummy.failures.contains (operation, serial)

theorem outcome_respond (dummy : Dummy) (past : List Invocation) (call : Invocation) :
    (dummy.programmer.respond past call).outcome =
      if dummy.fails call.operation call.serial then
        .failed (.toolFailed call.operation.verb call.serial (some 1))
      else .succeeded := by
  simp [programmer, respond, fails]

/-! ## One phase -/

/-- An invocation that is planned was to fail. -/
def failsAny (dummy : Dummy) (plan : List Invocation) : Bool :=
  plan.any fun call => dummy.fails call.operation call.serial

/-- Actions succeed if none of their invocations was to fail, and nothing is refused. -/
theorem perform_outcome (dummy : Dummy) {actions : List Action} (hsound : Action.Sound actions)
    (past : List Invocation) :
    (perform dummy.programmer past actions).outcome = .succeeded ↔
      dummy.failsAny (Action.planned actions) = false ∧ Action.refusal? actions = none := by
  induction actions generalizing past with
  | nil => exact iff_of_true rfl ⟨rfl, rfl⟩
  | cons action rest ih =>
    cases action with
    | say record => exact ih hsound.tail past
    | refuse fault => exact iff_of_false nofun fun h => nomatch h.2
    | crash text => exact absurd List.mem_cons_self (hsound text)
    | invoke call =>
      have hcons : dummy.failsAny (Action.planned (.invoke call :: rest)) =
          (dummy.fails call.operation call.serial || dummy.failsAny (Action.planned rest)) := rfl
      rw [perform_invoke, Programmer.call_outcome, hcons]
      cases hfails : dummy.fails call.operation call.serial with
      | true =>
        have hanswer := dummy.outcome_respond past call
        rw [hfails, if_pos rfl] at hanswer
        simp [hanswer]
      | false =>
        have hanswer := dummy.outcome_respond past call
        rw [hfails, if_neg Bool.false_ne_true] at hanswer
        rw [hanswer, Bool.false_or]
        exact ih hsound.tail (past ++ [call])

/-- The phase fails on the device: an invocation of it is listed, or it refuses to go on. -/
def failsPhase (dummy : Dummy) (phase : Phase) (device : Device) : Bool :=
  dummy.failsAny (phase.plan device) || (phase.objection? device).isSome

/-- The flag of a phase tells whether it fails. -/
theorem run_device {phase : Phase} (hpossible : phase.Possible device)
    (past : List Invocation) :
    (phase.run dummy.programmer past device).device =
      phase.record (.ofSuccess !dummy.failsPhase phase device) device := by
  have hsound := Phase.sound_actions hpossible
  have houtcome := dummy.perform_outcome hsound past
  rw [Phase.planned_actions, Phase.refusal?_actions hpossible] at houtcome
  have hflag : (perform dummy.programmer past (phase.actions device)).outcome = .succeeded ↔
      dummy.failsPhase phase device = false := by
    rw [houtcome, failsPhase, Bool.or_eq_false_iff, Option.isSome_eq_false_iff,
      Option.isNone_iff_eq_none]
  cases hanswer : (perform dummy.programmer past (phase.actions device)).outcome with
  | succeeded =>
    rw [Phase.run_of_succeeded hanswer, hflag.1 hanswer]
    exact (Phase.finish_calls ..).2.1
  | failed fault =>
    have hfails : dummy.failsPhase phase device = true := by
      rw [← Bool.not_eq_false, ← hflag, hanswer]
      exact nofun
    rw [Phase.run_of_failed hanswer, hfails]
    exact (Phase.finish_calls ..).2.1
  | crashed text =>
    obtain ⟨exchanges, _, _, hended⟩ := perform_attempt dummy.neverCrashes hsound past
    rw [hanswer] at hended
    cases hended' : (firstFault? exchanges).or (Action.refusal? (phase.actions device)) <;>
      rw [hended'] at hended <;> cases hended

/-- When a reboot fails. -/
theorem failsPhase_reboot : dummy.failsPhase .reboot device = dummy.fails .reset device.serial := by
  simp [failsPhase, failsAny, Phase.plan, Phase.objection?, Invocation.operation,
    Invocation.serial]

/-- When the network phase fails. -/
theorem failsPhase_net (hpossible : Phase.net.Possible device) :
    dummy.failsPhase .net device = dummy.fails .programNet device.serial := by
  obtain ⟨image, himage⟩ := Option.isSome_iff_exists.1 hpossible
  simp [failsPhase, failsAny, Phase.plan, Phase.objection?, himage, Invocation.operation,
    Invocation.serial]

/-- When the application phase fails. A headset without a channel gets no words, and
fails anyway. -/
theorem failsPhase_app (hpossible : Phase.app.Possible device) :
    dummy.failsPhase .app device =
      (dummy.fails .programApp device.serial || dummy.fails .writeRegister device.serial ||
        device.lacksChannel) := by
  obtain ⟨image, himage⟩ := Option.isSome_iff_exists.1 hpossible
  have hwords : (dummy.failsAny (Uicr.words device) || device.lacksChannel) =
      (dummy.fails .writeRegister device.serial || device.lacksChannel) := by
    rw [← Uicr.objection?_isSome]
    unfold Uicr.words Uicr.objection?
    rcases device.kind with _ | _ <;> rcases Channel.parse? device.channel with _ | _ <;>
      simp [failsAny, Invocation.operation, Invocation.serial]
  have hplan : dummy.failsAny (Phase.app.plan device) =
      (dummy.fails .programApp device.serial || dummy.failsAny (Uicr.words device)) := by
    simp [failsAny, Phase.plan, himage, Invocation.operation, Invocation.serial]
  have hobjection : (Phase.app.objection? device).isSome = device.lacksChannel :=
    Uicr.objection?_isSome device
  rw [failsPhase, hplan, hobjection, Bool.or_assoc, hwords, Bool.or_assoc]

/-- A round with a phase for the device leaves it with the flag of that phase. -/
theorem serve_device {round : Round} {phase : Phase} (hphase : round.phase? device = some phase)
    (past : List Invocation) :
    (round.serve dummy.programmer past device).2 =
      phase.record (.ofSuccess !dummy.failsPhase phase device) device := by
  simp only [Round.serve, hphase]
  exact run_device (Round.possible_of_phase? hphase) past

end Dummy

/-! ## Both rounds -/

/-- A run has the phase for the device. -/
def Device.Due (device : Device) (phase : Phase) : Prop :=
  phase.round.phase? device = some phase

instance (device : Device) (phase : Phase) : Decidable (device.Due phase) :=
  inferInstanceAs (Decidable (_ = _))

/-- A round has the phases that are its own and are due. -/
theorem Round.phase?_eq_some_iff_due {round : Round} {device : Device} {phase : Phase} :
    round.phase? device = some phase ↔ phase.round = round ∧ device.Due phase := by
  constructor
  · intro hphase
    obtain rfl := round_of_phase? hphase
    exact ⟨rfl, hphase⟩
  · rintro ⟨rfl, hdue⟩
    exact hdue

/-- The phase of the second round is due whatever the first round came to. -/
theorem Round.due_app_serve {programmer : Programmer} (hsafe : programmer.NeverCrashes)
    {device : Device} (past : List Invocation) :
    (Round.first.serve programmer past device).2.Due .app ↔ device.Due .app := by
  rcases serve_narrated hsafe .first device past with
    ⟨_, hserve⟩ | ⟨phase, exchanges, hphase, _, _, hdevice⟩
  · rw [hserve]
  · rw [hdevice]
    cases phase with
    | net => rfl
    | app => cases round_of_phase? hphase
    | reboot =>
      -- A device that waits for a reboot has no other phase, and one that was rebooted neither.
      have hpending : device.rebootOnly = .pending := (phase?_eq_some_iff.1 hphase).2
      have hflag : Phase.reboot.verdict device exchanges ≠ .notSelected := by
        unfold Phase.verdict Flag.ofSuccess
        split <;> exact nofun
      rw [Device.Due, Device.Due, phase?_eq_some_iff, phase?_eq_some_iff]
      simp [Phase.round, Demands, Phase.record, hpending, hflag]

namespace Dummy

/-- The flag of a phase after its round. -/
def settled (dummy : Dummy) (phase : Phase) (device : Device) : Flag :=
  if device.Due phase then .ofSuccess !dummy.failsPhase phase device else phase.flag device

/-- The device with the flags that it has after a round. -/
def settle (dummy : Dummy) (device : Device) : Round → Device
  | .first =>
    { device with
      rebootOnly := dummy.settled .reboot device
      netProgrammed := dummy.settled .net device }
  | .second => { device with appProgrammed := dummy.settled .app device }

/-- A round settles the flags of its phases. -/
theorem serve_settle (dummy : Dummy) (round : Round) (past : List Invocation) (device : Device) :
    (round.serve dummy.programmer past device).2 = dummy.settle device round := by
  cases hphase : round.phase? device with
  | none =>
    have hsettled : ∀ phase : Phase, phase.round = round →
        dummy.settled phase device = phase.flag device := by
      rintro phase rfl
      refine if_neg fun hdue => ?_
      rw [Device.Due, hphase] at hdue
      cases hdue
    rw [Round.serve_of_none hphase]
    cases round with
    | first =>
      rw [settle, hsettled .reboot rfl, hsettled .net rfl]
      rfl
    | second =>
      rw [settle, hsettled .app rfl]
      rfl
  | some phase =>
    obtain rfl := Round.round_of_phase? hphase
    have hdone : dummy.settled phase device = .ofSuccess !dummy.failsPhase phase device :=
      if_pos hphase
    have hother : ∀ other : Phase, other.round = phase.round → other ≠ phase →
        dummy.settled other device = other.flag device := by
      intro other hround hne
      refine if_neg fun hdue => hne ?_
      rw [Device.Due, hround, hphase, Option.some.injEq] at hdue
      exact hdue.symm
    rw [serve_device hphase]
    cases phase with
    | reboot =>
      simp only [settle, Phase.round, hdone, hother .net rfl nofun]
      rfl
    | net =>
      simp only [settle, Phase.round, hdone, hother .reboot rfl nofun]
      rfl
    | app =>
      simp only [settle, Phase.round, hdone]
      rfl

/-- What the first round settles does not matter to the second. -/
theorem settled_app_settle (dummy : Dummy) (device : Device) :
    dummy.settled .app (dummy.settle device .first) = dummy.settled .app device := by
  have hdue : (dummy.settle device .first).Due .app ↔ device.Due .app := by
    rw [← serve_settle dummy .first []]
    exact Round.due_app_serve dummy.neverCrashes []
  have hfails : dummy.failsPhase .app (dummy.settle device .first) =
      dummy.failsPhase .app device := rfl
  simp only [settled, hdue, hfails]
  rfl

/-- What both rounds make of a device. -/
theorem solitary_settle (dummy : Dummy) (past : List Invocation) (device : Device) :
    (solitary dummy.programmer past device).2 =
      { device with
        rebootOnly := dummy.settled .reboot device
        netProgrammed := dummy.settled .net device
        appProgrammed := dummy.settled .app device } := by
  calc (solitary dummy.programmer past device).2
      = dummy.settle (dummy.settle device .first) .second := by
        simp only [solitary, serve_settle]
    _ = { dummy.settle device .first with
          appProgrammed := dummy.settled .app (dummy.settle device .first) } := rfl
    _ = _ := by
        rw [settled_app_settle]
        rfl

end Dummy

end FlashFleet
