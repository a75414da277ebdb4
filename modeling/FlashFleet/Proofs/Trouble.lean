import FlashFleet.Proofs.Account
import FlashFleet.Proofs.Specification
/-!
# What went wrong with a device

The flags of a device are recorded by its phases. Whether anything went wrong with it can
also be told from its account, without a look at the flags: an invocation failed that was
not the last reset of a phase, or the application core was programmed of a headset whose
channel is none. The two agree phase by phase, for the flag is settled before the last
reset, and a headset without a channel gets no words.

## Main results

* `Phase.Narrated.troubled` — the flag of a phase tells what is in its account.
* `Round.serve_hasFailure` — a round adds to the failures of a device what goes wrong in it.
* `Attended.hasFailure` — the flags of a device tell what went wrong in both rounds.
-/

namespace FlashFleet

/-! ## What went wrong -/

namespace Event

/-- An invocation ends with a fault. -/
def fails : Event → Bool
  | .ended _ (some _) => true
  | _ => false

/-- A reset comes to its end. -/
def isReset : Event → Bool
  | .ended (.reset _) _ => true
  | _ => false

/-- The application core is programmed with success. -/
def programsApp : Event → Bool
  | .ended (.program .application ..) none => true
  | _ => false

end Event

namespace Events

/-- The phase ends here, with nothing before its end but records of the log. -/
def concludes : Events → Bool
  | .log _ :: rest => concludes rest
  | .phaseFinished .. :: _ => true
  | _ => false

/-- An invocation failed that was not the last reset of a phase. -/
def failsWork : Events → Bool
  | [] => false
  | event :: rest => (event.fails && !(event.isReset && concludes rest)) || failsWork rest

end Events

/-- The device is a headset with a channel that is none. -/
def Device.lacksChannel (device : Device) : Bool :=
  device.kind == .headset && device.channel != "left" && device.channel != "right"

/-- Something went wrong with the device: an invocation failed that was not the last reset
of a phase, or the application core was programmed of a headset with a channel that is
none. -/
def Device.troubled (device : Device) (account : Events) : Bool :=
  account.failsWork || (device.lacksChannel && account.any Event.programsApp)

/-! ## Accounts in parts -/

namespace Events

variable {work rest : Events}

/-- Where an invocation is still to come the phase does not end. -/
private theorem concludes_append (hwork : ∀ event ∈ work, event.isProgress = false)
    (hrest : concludes rest = false) : concludes (work ++ rest) = false := by
  induction work with
  | nil => exact hrest
  | cons event work ih =>
    obtain ⟨hevent, hlater⟩ := List.forall_mem_cons.1 hwork
    cases event with
    | log record => exact ih hlater
    | phaseFinished serial phase flag => cases hevent
    | _ => rfl

/-- No reset is the last of its phase that comes before an invocation of it. -/
theorem failsWork_append (hwork : ∀ event ∈ work, event.isProgress = false)
    (hrest : concludes rest = false) :
    failsWork (work ++ rest) = (work.any Event.fails || failsWork rest) := by
  induction work with
  | nil => rfl
  | cons event work ih =>
    have hlater := (List.forall_mem_cons.1 hwork).2
    rw [List.cons_append, failsWork, concludes_append hlater hrest, ih hlater, List.any_cons]
    simp [Bool.or_assoc]

/-- Records of the log are no failures. -/
theorem failsWork_map_log (records : List LogRecord) :
    failsWork (records.map .log ++ rest) = failsWork rest := by
  induction records with
  | nil => rfl
  | cons record records ih => exact ih

theorem concludes_map_log (records : List LogRecord) :
    concludes (records.map .log ++ rest) = concludes rest := by
  induction records with
  | nil => rfl
  | cons record records ih => exact ih

/-- What is seen of invocations is seen in their beginnings and ends. -/
theorem any_calls {p : Event → Bool} (hp : ∀ event, event.call? = none → p event = false)
    (events : Events) : (calls events).any p = events.any p := by
  rw [calls, List.any_filter]
  congr 1
  funext event
  cases hcall : event.call? with
  | none => simp [hp event hcall]
  | some call => rfl

theorem any_fails_of_calls {exchanges : List Exchange} (hcalls : calls work = shown exchanges) :
    work.any Event.fails = (firstFault? exchanges).isSome := by
  have hfails : ∀ event : Event, event.call? = none → event.fails = false := by
    intro event hevent
    cases event <;> first | rfl | cases hevent
  rw [← any_calls hfails, hcalls]
  clear hcalls
  induction exchanges with
  | nil => rfl
  | cons exchange rest ih =>
    obtain ⟨call, fault⟩ := exchange
    cases fault with
    | none => exact ih
    | some fault => rfl

end Events

/-! ## A phase -/

theorem Uicr.objection?_isSome (device : Device) :
    (Uicr.objection? device).isSome = device.lacksChannel := by
  rw [Bool.eq_iff_iff, Option.isSome_iff_ne_none, ne_eq, objection?_eq_none_iff,
    Device.lacksChannel]
  simp [and_assoc]

namespace Phase

variable {phase : Phase} {device : Device} {exchanges : List Exchange} {events : Events}

/-- The last reset does not count. -/
private theorem failsWork_closing (phase : Phase) (serial : Serial) (flag : Flag)
    (records : List LogRecord) (last : Option Fault) (remarks : List LogRecord)
    (rest : Events) :
    (phase.closing serial flag records last remarks ++ rest).failsWork = rest.failsWork := by
  have hopened : (phase.closing serial flag records last remarks ++ rest).failsWork =
      Events.failsWork (records.map .log ++ .ended (.reset serial) last ::
        (remarks.map .log ++ .phaseFinished serial phase flag :: rest)) := by
    simp [closing, Events.failsWork, Event.fails]
  have hover : Events.concludes
      (remarks.map .log ++ .phaseFinished serial phase flag :: rest) = true := by
    rw [Events.concludes_map_log]
    rfl
  rw [hopened, Events.failsWork_map_log, Events.failsWork, hover, Events.failsWork_map_log]
  simp [Event.fails, Event.isReset, Events.failsWork]

/-- A phase fails at its work when one of its exchanges does, and what comes after the
phase is told apart from it. -/
theorem Narrated.failsWork_append (h : phase.Narrated device exchanges events) (rest : Events) :
    Events.failsWork (events ++ rest) = ((firstFault? exchanges).isSome || rest.failsWork) := by
  cases h with
  | @mk work hcalls hwork records last remarks =>
    have hbehind : Events.concludes (phase.closing device.serial (phase.verdict device exchanges)
        records last remarks ++ rest) = false := rfl
    rw [List.cons_append, List.cons_append, List.append_assoc, Events.failsWork,
      Events.failsWork_append hwork hbehind, failsWork_closing,
      Events.any_fails_of_calls hcalls]
    rfl

theorem Narrated.failsWork (h : phase.Narrated device exchanges events) :
    events.failsWork = (firstFault? exchanges).isSome := by
  have happend := h.failsWork_append []
  rwa [List.append_nil, Events.failsWork, Bool.or_false] at happend

/-- What a phase programs is seen in its exchanges. -/
theorem Narrated.any_programsApp (h : phase.Narrated device exchanges events) :
    events.any Event.programsApp = (shown exchanges).any Event.programsApp := by
  have hprograms : ∀ event : Event, event.call? = none → event.programsApp = false := by
    intro event hevent
    cases event <;> first | rfl | cases hevent
  cases h with
  | @mk work hcalls hwork records last remarks =>
    have hclosing : (phase.closing device.serial (phase.verdict device exchanges) records last
        remarks).any Event.programsApp = false := by
      rw [← Events.any_calls hprograms]
      simp [closing, Event.programsApp, Events.calls, Event.call?]
    rw [List.cons_append, List.any_cons, List.any_append, hclosing, Bool.or_false,
      ← Events.any_calls hprograms work, hcalls]
    rfl

/-- Only the application phase programs the application core. -/
private theorem any_programsApp_of_plan {plan : List Invocation} (hattempt : Attempt plan exchanges)
    (hplan : ∀ call ∈ plan, call.operation ≠ .programApp) :
    (shown exchanges).any Event.programsApp = false := by
  rw [List.any_eq_false]
  intro event hevent hprograms
  obtain ⟨exchange, hexchange, hshown⟩ := List.mem_flatMap.1 hevent
  have hcall := hplan _ (hattempt.mem_plan exchange hexchange)
  simp only [Exchange.events, List.mem_cons, List.not_mem_nil, or_false] at hshown
  rcases hshown with rfl | rfl
  · cases hprograms
  · obtain ⟨call, fault⟩ := exchange
    cases call with
    | program core image serial erase =>
      cases core with
      | application => exact hcall rfl
      | network => cases hprograms
    | _ => cases hprograms

/-- A headset with a channel that is none gets no words: its one invocation fails, or the
application core is programmed. -/
private theorem troubled_of_objection (hobjection : (Uicr.objection? device).isSome = true)
    (hpossible : Phase.app.Possible device)
    (hattempt : Attempt (Phase.app.plan device) exchanges) :
    ((firstFault? exchanges).isSome || (shown exchanges).any Event.programsApp) = true := by
  obtain ⟨image, himage⟩ := Option.isSome_iff_exists.1 hpossible
  have hwords : Uicr.words device = [] := by
    unfold Uicr.objection? at hobjection
    unfold Uicr.words
    split at hobjection
    · simp_all
    · cases hobjection
  have hplan : Phase.app.plan device = [.program .application image device.serial .chip] := by
    simp only [plan, himage, hwords]
  rw [hplan] at hattempt
  obtain ⟨fault, rfl⟩ := hattempt.single
  cases fault <;> rfl

/-- The flag of a phase tells whether anything went wrong in it. -/
theorem Narrated.troubled (h : phase.Narrated device exchanges events)
    (hpossible : phase.Possible device) (hattempt : Attempt (phase.plan device) exchanges) :
    device.troubled events = (phase.verdict device exchanges == .failed) := by
  have hverdict : (phase.verdict device exchanges == .failed) =
      ((firstFault? exchanges).isSome || (phase.objection? device).isSome) := by
    rw [verdict, ← Option.isSome_or]
    cases (firstFault? exchanges).or (phase.objection? device) <;> rfl
  rw [Device.troubled, h.failsWork, h.any_programsApp, hverdict]
  cases phase with
  | app =>
    have hobjection := Uicr.objection?_isSome device
    simp only [objection?, hobjection]
    cases hlacks : device.lacksChannel with
    | false => rfl
    | true =>
      rw [hlacks] at hobjection
      rw [Bool.true_and, Bool.or_true]
      exact troubled_of_objection hobjection hpossible hattempt
  | net =>
    rw [any_programsApp_of_plan hattempt, Bool.and_false]
    · rfl
    · intro call hcall
      unfold plan at hcall
      cases himage : device.netImage with
      | none => simp [himage] at hcall
      | some image =>
        simp only [himage, List.mem_singleton] at hcall
        rw [hcall]
        simp [Invocation.operation]
  | reboot =>
    rw [any_programsApp_of_plan hattempt, Bool.and_false]
    · rfl
    · intro call hcall
      rw [List.mem_singleton.1 hcall]
      simp [Invocation.operation]

end Phase

/-! ## Both rounds -/

namespace Round

variable {round : Round} {programmer : Programmer} {device : Device}

/-- A round leaves a device alone, or runs one phase on it. -/
theorem serve_narrated (hsafe : programmer.NeverCrashes) (round : Round) (device : Device)
    (past : List Invocation) :
    (round.phase? device = none ∧ round.serve programmer past device = ([], device)) ∨
      ∃ phase exchanges, round.phase? device = some phase ∧
        Attempt (phase.plan device) exchanges ∧
        phase.Narrated device exchanges (round.serve programmer past device).1 ∧
        (round.serve programmer past device).2 =
          phase.record (phase.verdict device exchanges) device := by
  cases hphase : round.phase? device with
  | none => exact .inl ⟨rfl, serve_of_none hphase past⟩
  | some phase =>
    obtain ⟨exchanges, hattempt, hnarrated, hdevice⟩ :=
      Phase.run_narrated hsafe (possible_of_phase? hphase) past
    refine .inr ⟨phase, exchanges, rfl, hattempt, ?_, ?_⟩
    · simpa only [serve, hphase] using hnarrated
    · simpa only [serve, hphase] using hdevice

/-- A new failure of a device is that of the flag which is recorded. -/
private theorem hasFailure_record {phase : Phase} {flag : Flag}
    (hfresh : phase.flag device ≠ .failed) :
    (phase.record flag device).hasFailure = (device.hasFailure || flag == .failed) := by
  rw [← beq_eq_false_iff_ne] at hfresh
  cases phase with
  | reboot =>
    have hold : (device.rebootOnly == .failed) = false := hfresh
    simp only [Phase.record, Device.hasFailure, hold, Bool.false_or]
    rw [Bool.or_assoc, Bool.or_comm (flag == _)]
  | net =>
    have hold : (device.netProgrammed == .failed) = false := hfresh
    simp only [Phase.record, Device.hasFailure, hold, Bool.or_false]
  | app =>
    have hold : (device.appProgrammed == .failed) = false := hfresh
    simp only [Phase.record, Device.hasFailure, hold, Bool.or_false]
    rw [Bool.or_assoc, Bool.or_comm (flag == _), Bool.or_assoc]

/-- After a round a device has failed if it had before, or something went wrong. -/
theorem serve_hasFailure (hsafe : programmer.NeverCrashes)
    (hfresh : ∀ phase, round.phase? device = some phase → phase.flag device ≠ .failed)
    (past : List Invocation) :
    (round.serve programmer past device).2.hasFailure =
      (device.hasFailure || device.troubled (round.serve programmer past device).1) := by
  rcases serve_narrated hsafe round device past with
    ⟨_, hserve⟩ | ⟨phase, exchanges, hphase, hattempt, hnarrated, hdevice⟩
  · rw [hserve]
    simp [Device.troubled, Events.failsWork]
  · rw [hdevice, hasFailure_record (hfresh phase hphase),
      hnarrated.troubled (possible_of_phase? hphase) hattempt]

/-- What goes wrong in a round is told apart from what goes wrong after it. -/
theorem troubled_serve_append (hsafe : programmer.NeverCrashes) (round : Round)
    (past : List Invocation) (rest : Events) :
    device.troubled ((round.serve programmer past device).1 ++ rest) =
      (device.troubled (round.serve programmer past device).1 || device.troubled rest) := by
  have hwork : Events.failsWork ((round.serve programmer past device).1 ++ rest) =
      ((round.serve programmer past device).1.failsWork || rest.failsWork) := by
    rcases serve_narrated hsafe round device past with
      ⟨_, hserve⟩ | ⟨phase, exchanges, _, _, hnarrated, _⟩
    · rw [hserve]
      rfl
    · rw [hnarrated.failsWork_append, hnarrated.failsWork]
  simp only [Device.troubled, hwork, List.any_append, Bool.and_or_distrib_left]
  cases (round.serve programmer past device).1.failsWork <;>
    cases device.lacksChannel && (round.serve programmer past device).1.any Event.programsApp <;>
    simp

end Round

namespace Threads

variable {programmer : Programmer} {past : List Invocation}

/-- After both rounds a device on which nothing had failed has failed exactly when
something went wrong with it. -/
theorem Attended.hasFailure (hsafe : programmer.NeverCrashes) {device after : Device}
    {account : Events} (hfresh : device.hasFailure = false)
    (h : Attended programmer past device account after) :
    after.hasFailure = device.troubled account := by
  obtain ⟨earlier, later, hearlier, hlater, first, second, rfl, rfl, rfl, rfl⟩ := h
  have hsafe₁ := hearlier.neverCrashes hsafe
  have hsafe₂ := hlater.neverCrashes hsafe
  have hflags : ∀ phase : Phase, phase.flag device ≠ .failed := by
    intro phase hflag
    rw [← Bool.not_eq_true, Device.hasFailure_iff, not_or, not_or] at hfresh
    cases phase with
    | reboot => exact hfresh.1 hflag
    | app => exact hfresh.2.1 hflag
    | net => exact hfresh.2.2 hflag
  have hearly : (Round.first.serve earlier past device).2.hasFailure =
      device.troubled (Round.first.serve earlier past device).1 := by
    rw [Round.serve_hasFailure hsafe₁ (fun phase _ => hflags phase), hfresh, Bool.false_or]
  -- The first round leaves what it does not record, and the second records something else.
  have hkept : (Round.first.serve earlier past device).2.kind = device.kind ∧
      (Round.first.serve earlier past device).2.channel = device.channel ∧
      (Round.first.serve earlier past device).2.appProgrammed = device.appProgrammed := by
    rcases Round.serve_narrated hsafe₁ .first device past with
      ⟨_, hserve⟩ | ⟨phase, exchanges, hphase, _, _, hdevice⟩
    · rw [hserve]
      exact ⟨rfl, rfl, rfl⟩
    · rw [hdevice, Phase.record_kind, Phase.record_channel]
      cases phase with
      | app => exact (Round.phase?_eq_some_iff.1 hphase).2.elim
      | _ => exact ⟨rfl, rfl, rfl⟩
  rw [Round.troubled_serve_append hsafe₁, ← hearly]
  generalize Round.first.serve earlier past device = first at hkept ⊢
  obtain ⟨hkind, hchannel, happ⟩ := hkept
  have hlate : ∀ phase, Round.second.phase? first.2 = some phase →
      phase.flag first.2 ≠ .failed := by
    intro phase hphase
    cases phase with
    | app =>
      have hflag := hflags .app
      rwa [Phase.flag, ← happ] at hflag
    | _ => exact (Round.phase?_eq_some_iff.1 hphase).2.elim
  rw [Round.serve_hasFailure hsafe₂ hlate]
  simp only [Device.troubled, Device.lacksChannel, hkind, hchannel]

end Threads

end FlashFleet
