import FlashFleet.Proofs.Schedule
/-!
# What is reported

The orchestrator reports when a round begins and when it is over, a worker when
its phase begins and when it is over. Where the orchestrator stands tells which
rounds were reported. What a worker reports is of its own phase, and the end of a
phase is reported if no crash kept the worker from it.

## Main results

* `roundReports_of_reachable` — the reports of the rounds are those that belong to
  the place where the orchestrator stands.
* `Phase.phaseReports_run` — the reports of a phase.
* `origin_of_report` — who reports a phase, and for which device.
-/

namespace FlashFleet

/-! ## Reports -/

/-- The round that is reported here. -/
def Event.round? : Event → Option Nat
  | .roundStarted round _ => some round
  | .roundFinished round => some round
  | _ => none

/-- The phase that is reported here, and the probe on which it is run. -/
def Event.phase? : Event → Option (Serial × Phase)
  | .phaseStarted serial phase => some (serial, phase)
  | .phaseFinished serial phase _ => some (serial, phase)
  | _ => none

theorem Event.phase?_of_isGeneral {event : Event} (h : event.isGeneral = true) :
    event.phase? = none := by
  cases event <;> first | rfl | cases h

/-- The beginning or end of an invocation is not a report. -/
theorem Event.unreported_of_call? {event : Event} {call : Invocation}
    (h : event.call? = some call) : event.round? = none ∧ event.phase? = none := by
  cases event <;> first | exact ⟨rfl, rfl⟩ | cases h

namespace Events

/-- The reports of rounds. -/
def roundReports (events : Events) : Events := events.filter fun event => event.round?.isSome

/-- The reports of phases. -/
def phaseReports (events : Events) : Events := events.filter fun event => event.phase?.isSome

@[simp] theorem roundReports_append (a b : Events) :
    roundReports (a ++ b) = roundReports a ++ roundReports b :=
  List.filter_append ..

@[simp] theorem phaseReports_append (a b : Events) :
    phaseReports (a ++ b) = phaseReports a ++ phaseReports b :=
  List.filter_append ..

/-- Where no round is reported there are no reports of rounds. -/
theorem roundReports_eq_nil {events : Events} (h : ∀ event ∈ events, event.round? = none) :
    roundReports events = [] := by
  rw [roundReports, List.filter_eq_nil_iff]
  intro event hevent
  simp [h event hevent]

/-- Where no phase is reported there are no reports of phases. -/
theorem phaseReports_eq_nil {events : Events} (h : ∀ event ∈ events, event.phase? = none) :
    phaseReports events = [] := by
  rw [phaseReports, List.filter_eq_nil_iff]
  intro event hevent
  simp [h event hevent]

theorem mem_roundReports {events : Events} {event : Event} {number : Nat}
    (hround : event.round? = some number) : event ∈ roundReports events ↔ event ∈ events := by
  simp [roundReports, hround]

theorem mem_phaseReports {events : Events} {event : Event} {report : Serial × Phase}
    (hphase : event.phase? = some report) : event ∈ phaseReports events ↔ event ∈ events := by
  simp [phaseReports, hphase]

end Events

/-! ## The reports of a phase -/

/-- An invocation reports nothing. -/
theorem Programmer.phaseReports_call (programmer : Programmer) (past : List Invocation)
    (call : Invocation) : Events.phaseReports (programmer.call past call).events = [] := by
  have hopening : ∀ response : Response, ∀ event ∈ response.opening call,
      event.phase? = none := by
    intro response event hevent
    rcases List.mem_cons.1 hevent with rfl | hevent
    · rfl
    · obtain ⟨record, _, rfl⟩ := List.mem_map.1 hevent
      rfl
  have hended : ∀ event ∈ [Event.ended call (programmer.respond past call).outcome.fault?],
      event.phase? = none := by
    intro event hevent
    rw [List.mem_singleton.1 hevent]
    rfl
  apply Events.phaseReports_eq_nil
  simp only [Programmer.call]
  split
  · exact hopening _
  · exact List.forall_mem_append.2 ⟨hopening _, hended⟩

/-- The work of a worker reports nothing. -/
theorem phaseReports_perform (programmer : Programmer) (past : List Invocation)
    (actions : List Action) :
    Events.phaseReports (perform programmer past actions).events = [] := by
  induction actions generalizing past with
  | nil => rfl
  | cons action rest ih =>
    cases action with
    | say record => exact ih past
    | refuse fault => rfl
    | crash text => rfl
    | invoke call =>
      have hcall := programmer.phaseReports_call past call
      rw [perform_invoke]
      split
      · rw [Events.phaseReports_append, hcall, ih]
        rfl
      · exact hcall

namespace Phase

variable {phase : Phase} {programmer : Programmer} {past : List Invocation} {device : Device}

/-- The report that a phase is over, unless it crashed. -/
def farewell (phase : Phase) (device : Device) (run : Run) : Events :=
  match run.crash with
  | none => [.phaseFinished device.serial phase (phase.flag run.device)]
  | some _ => []

/-- Behind the last reset the end of the phase is reported. -/
private theorem phaseReports_finish (flag : Flag) :
    Events.phaseReports (phase.finish programmer past flag (phase.record flag device)).events =
      phase.farewell device (phase.finish programmer past flag (phase.record flag device)) := by
  have hcall := programmer.phaseReports_call past (.reset device.serial)
  simp only [finish, farewell, record_serial, Programmer.call_outcome]
  cases (programmer.respond past (.reset device.serial)).outcome with
  | succeeded =>
    rw [Events.phaseReports_append, hcall, flag_record]
    rfl
  | failed fault =>
    rw [Events.phaseReports_append, hcall, flag_record]
    rfl
  | crashed text => exact hcall

/-- A phase reports its beginning and, if it does not crash, its end with the flag
that it left. -/
theorem phaseReports_run (phase : Phase) (programmer : Programmer) (past : List Invocation)
    (device : Device) :
    Events.phaseReports (phase.run programmer past device).events =
      .phaseStarted device.serial phase ::
        phase.farewell device (phase.run programmer past device) := by
  have hbegun : Events.phaseReports (phase.begun programmer past device) =
      [.phaseStarted device.serial phase] :=
    congrArg (_ :: ·) (phaseReports_perform programmer past (phase.actions device))
  cases houtcome : (perform programmer past (phase.actions device)).outcome with
  | crashed text =>
    rw [run_of_crashed houtcome]
    exact hbegun
  | failed fault =>
    rw [run_of_failed houtcome]
    simp only [Events.phaseReports_append, hbegun]
    exact congrArg (_ :: ·) (phaseReports_finish .failed)
  | succeeded =>
    rw [run_of_succeeded houtcome]
    simp only [Events.phaseReports_append, hbegun]
    exact congrArg (_ :: ·) (phaseReports_finish .done)

end Phase

/-! ## The reports of a worker -/

namespace Station

variable {programmer : Programmer} {past : List Invocation} {station : Station}

/-- What a worker may show by a step: an invocation, a log record, or the report of
its phase. -/
inductive Shows (station : Station) : Event → Prop where
  | call {event : Event} {call : Invocation} (hcall : event.call? = some call) :
      Shows station event
  | log (record : LogRecord) : Shows station (.log record)
  | started {phase : Phase} (hstage : station.stage = .dispatched phase) :
      Shows station (.phaseStarted station.device.serial phase)
  | finished {phase : Phase} {flag : Flag} (hstage : station.stage = .reporting phase flag) :
      Shows station (.phaseFinished station.device.serial phase flag)

theorem shows_of_mem_step {event : Event} (h : event ∈ (station.step programmer past).1) :
    station.Shows event := by
  have hstart : ∀ phase call sequel,
      event ∈ (station.start programmer past phase call sequel).1 → station.Shows event := by
    intro phase call sequel hmem
    rcases List.mem_cons.1 hmem with rfl | hmem
    · exact .call rfl
    · obtain ⟨record, _, rfl⟩ := List.mem_map.1 hmem
      exact .log record
  have hsettle : ∀ phase call outcome sequel,
      event ∈ (station.settle phase call outcome sequel).1 → station.Shows event := by
    intro phase call outcome sequel hmem
    have hended : event ∈ [Event.ended call outcome.fault?] := by
      cases outcome with
      | crashed text => cases sequel <;> cases hmem
      | _ => cases sequel <;> exact hmem
    rw [List.mem_singleton.1 hended]
    exact .call rfl
  obtain ⟨device, stage⟩ := station
  cases stage with
  | dispatched phase =>
    rw [List.mem_singleton.1 h]
    exact .started rfl
  | reporting phase flag =>
    rw [List.mem_singleton.1 h]
    exact .finished rfl
  | acting phase todo =>
    cases todo with
    | nil => cases h
    | cons action todo =>
      cases action with
      | say record =>
        rw [List.mem_singleton.1 h]
        exact .log record
      | invoke call => exact hstart _ _ _ h
      | refuse fault => cases h
      | crash text => cases h
  | resetting phase flag => exact hstart _ _ _ h
  | calling phase call outcome sequel => exact hsettle _ _ _ _ h
  | failing phase fault =>
    rw [List.mem_singleton.1 h]
    exact .log _
  | resetFailed phase flag fault =>
    rw [List.mem_singleton.1 h]
    exact .log _
  | idle => cases h
  | queued phase => cases h
  | finished => cases h
  | crashed text => cases h

/-- A worker does not report a round. -/
theorem Shows.round? {event : Event} (h : station.Shows event) : event.round? = none := by
  cases h with
  | call hcall => exact (Event.unreported_of_call? hcall).1
  | _ => rfl

/-- A worker reports its own phase. -/
theorem Faithful.report {phase : Phase} {origin : Device} (h : Faithful phase origin station)
    {event : Event} (hevent : event ∈ (station.step programmer past).1) {serial : Serial}
    {reported : Phase} (hreport : event.phase? = some (serial, reported)) :
    serial = origin.serial ∧ reported = phase := by
  have hserial := h.serial
  unfold Faithful at h
  cases shows_of_mem_step hevent with
  | call hcall =>
    rw [(Event.unreported_of_call? hcall).2] at hreport
    cases hreport
  | log record => cases hreport
  | started hstage =>
    rw [hstage] at h
    cases hreport
    exact ⟨hserial, h.1⟩
  | finished hstage =>
    rw [hstage] at h
    cases hreport
    exact ⟨hserial, h.1⟩

/-- Along its path a worker reports its own phase. -/
theorem Path.report {origin : Device} {phase : Phase} {events : Events}
    (path : Path programmer past ⟨origin, .dispatched phase⟩ events station) {event : Event}
    (hevent : event ∈ events) {serial : Serial} {reported : Phase}
    (hreport : event.phase? = some (serial, reported)) :
    serial = origin.serial ∧ reported = phase := by
  induction path with
  | here => cases hevent
  | step path live ih =>
    rcases List.mem_append.1 hevent with hevent | hevent
    · exact ih hevent
    · exact path.faithful.report hevent hreport

end Station

namespace Course

variable {programmer : Programmer} {round : Round} {past : List Invocation} {device : Device}
  {events : Events} {station : Station} (h : Course programmer round past device events station)
include h

/-- What a worker reports is the phase that the round has for its device. -/
theorem report {event : Event} (hevent : event ∈ events) {serial : Serial} {phase : Phase}
    (hreport : event.phase? = some (serial, phase)) :
    serial = device.serial ∧ round.phase? device = some phase := by
  cases h with
  | waiting => cases hevent
  | begun hphase path =>
    obtain ⟨hserial, rfl⟩ := path.report hevent hreport
    exact ⟨hserial, hphase⟩

/-- A worker that is not live has reported the end of its phase if it finished, with the
flag that it left. -/
theorem finished_iff (hdead : station.stage.isLive = false) {phase : Phase}
    (hphase : round.phase? device = some phase) {flag : Flag} :
    .phaseFinished device.serial phase flag ∈ events ↔
      station.stage = .finished ∧ flag = phase.flag station.device := by
  rcases h.of_dead hdead with ⟨rfl, rfl⟩ | ⟨other, hother, rfl, rfl⟩
  · rw [Station.enter_of_some hphase]
    exact ⟨nofun, nofun⟩
  · rw [hphase, Option.some.injEq] at hother
    subst hother
    rw [← Events.mem_phaseReports rfl, Phase.phaseReports_run, Phase.farewell]
    cases (phase.run programmer past device).crash with
    | none => simp [Stage.over]
    | some text => simp [Stage.over]

end Course

namespace Threads

variable {setting : Setting} {s next : State}

/-! ## Who reports a phase -/

/-- The report of a phase comes from the worker of the device with that probe, in a
round that has the phase for the device. -/
theorem origin_of_report (hreach : Reachable setting s) {event : Event}
    (hevent : event ∈ s.trace.events) {serial : Serial} {phase : Phase}
    (hreport : event.phase? = some (serial, phase)) :
    ∃ round position origin, setting.devices[position]? = some origin ∧
      origin.serial = serial ∧ round.phase? origin = some phase ∧
      event ∈ s.eventsOf (.worker round position) := by
  obtain ⟨occurrence, hoccurrence, rfl⟩ := List.mem_map.1 hevent
  obtain ⟨deed, hdeed, rfl⟩ := List.mem_map.1 hoccurrence
  cases hthread : deed.thread with
  | orchestrator =>
    have hgeneral := isGeneral_of_orchestrator hreach _ (mem_eventsBy hdeed hthread)
    rw [Event.phase?_of_isGeneral hgeneral] at hreport
    cases hreport
  | worker round position =>
    have hlt := (orderly_of_reachable hreach).staffed deed hdeed round position hthread
    obtain ⟨device, _, hdevice, _, hcourse⟩ :=
      course_of_reachable hreach (List.getElem?_eq_getElem hlt)
    have hown := mem_eventsBy hdeed hthread
    obtain ⟨rfl, hphase⟩ := hcourse.report hown hreport
    obtain ⟨origin, horigin, hserial, hsame, _⟩ := origin_of_roster hreach hdevice
    exact ⟨round, position, origin, horigin, hserial.symm, hsame.symm.trans hphase, hown⟩

/-- Where no probe is listed twice, what is reported of a device and a phase of a round is
reported by the worker of the device in that round. -/
theorem report_mem_iff (hnodup : (setting.devices.map Device.serial).Nodup)
    (hreach : Reachable setting s) {round : Round} {place : Nat} {device : Device}
    (hdevice : (s.roster setting.devices round)[place]? = some device) {phase : Phase}
    (hphase : round.phase? device = some phase) {event : Event}
    (hreport : event.phase? = some (device.serial, phase)) :
    event ∈ s.trace.events ↔ event ∈ s.eventsOf (.worker round place) := by
  constructor
  · intro hevent
    obtain ⟨origin, horigin, hserial, _⟩ := origin_of_roster hreach hdevice
    obtain ⟨now, position, source, hsource, hsame, hnow, hown⟩ :=
      origin_of_report hreach hevent hreport
    obtain rfl := position_of_serial hnodup hsource horigin (hsame.trans hserial)
    obtain rfl : now = round :=
      (Round.round_of_phase? hnow).symm.trans (Round.round_of_phase? hphase)
    exact hown
  · exact State.mem_trace_of_mem_eventsOf

/-! ## The reports of the rounds -/

/-- The reports of the rounds before one is opened. -/
def earlierReports (counts : Round → Nat) : Round → Events
  | .first => []
  | .second => [.roundStarted 1 (counts .first), .roundFinished 1]

/-- The reports of the rounds up to the opening of one. -/
def openingReports (counts : Round → Nat) (round : Round) : Events :=
  earlierReports counts round ++ [.roundStarted round.number (counts round)]

/-- The reports of the rounds when the orchestrator has come to a place. -/
def Post.reports (counts : Round → Nat) : Post → Events
  | .opening round => earlierReports counts round
  | .ended => openingReports counts .second ++ [.roundFinished 2]
  | post => openingReports counts post.round

/-- How many devices have work in each round. -/
def State.counts (s : State) (devices : List Device) (round : Round) : Nat :=
  round.count (s.roster devices round)

/-- The first round begins with the devices of the run, the second with those that
the first left. -/
theorem openingReports_congr {devices : List Device} {round : Round}
    (h : round = .second → next.stations .first = s.stations .first) :
    openingReports (next.counts devices) round = openingReports (s.counts devices) round := by
  cases round with
  | first => rfl
  | second =>
    unfold openingReports earlierReports State.counts State.roster
    rw [h rfl]

theorem roundReports_announcement (devices : List Device) (round : Round) :
    Events.roundReports (State.announcement devices round) =
      [.roundStarted round.number (round.count devices)] := by
  have hforeword : Events.roundReports (State.foreword devices round) = [] := by
    cases round with
    | first =>
      simp only [State.foreword, Fleet.skipped]
      split <;> rfl
    | second => rfl
  rw [State.announcement, Events.roundReports_append, hforeword]
  rfl

/-- In the middle of a round nothing is reported of the rounds. -/
private theorem reports_of_silent {devices : List Device}
    (h : s.trace.events.roundReports = s.post.reports (s.counts devices))
    (hpost : s.post.reports (s.counts devices) = openingReports (s.counts devices) s.post.round)
    (hnext : next.post.reports (next.counts devices) =
      openingReports (next.counts devices) s.post.round)
    (hfirst : s.post.round = .second → next.stations .first = s.stations .first)
    {author : Author} {events : Events} (htrace : next.trace = s.trace ++ events.authoredBy author)
    (hsilent : events.roundReports = []) :
    next.trace.events.roundReports = next.post.reports (next.counts devices) := by
  rw [htrace, Trace.events_append, Trace.events_authoredBy, Events.roundReports_append, hsilent,
    List.append_nil, h, hpost, hnext, openingReports_congr hfirst]

/-- What is reported of the rounds goes with the orchestrator. -/
theorem roundReports_of_step (horderly : Orderly setting s) {thread : Thread}
    (hstep : Step setting s thread next)
    (h : s.trace.events.roundReports = s.post.reports (s.counts setting.devices)) :
    next.trace.events.roundReports = next.post.reports (next.counts setting.devices) := by
  -- Within a round the orchestrator goes from one place to another without a word.
  have hmoves : ∀ post : Post,
      (∀ counts, s.post.reports counts = openingReports counts s.post.round) →
      (∀ counts, post.reports counts = openingReports counts s.post.round) →
      (s.moveTo post).trace.events.roundReports =
        (s.moveTo post).post.reports ((s.moveTo post).counts setting.devices) := by
    intro post hwas hnext
    have htrace : (s.moveTo post).trace = s.trace ++ Events.authoredBy .orchestrator [] :=
      (List.append_nil _).symm
    exact reports_of_silent h (hwas _) (hnext _) (fun _ => rfl) htrace rfl
  cases hstep with
  | @opening round hpost =>
    rw [State.trace_openRound, Trace.events_append, Trace.events_authoredBy,
      Events.roundReports_append, h, hpost, roundReports_announcement, State.post_openRound]
    have hfirst : round = .second →
        (s.openRound setting.devices round).stations .first = s.stations .first := by
      rintro rfl
      exact State.stations_openRound_of_ne s setting.devices (by decide)
    exact (openingReports_congr hfirst).symm
  | @dispatching round handles position station phase hpost hget hstage hnone =>
    refine reports_of_silent h (by rw [hpost]; rfl) ?_ ?_ (State.trace_dispatch ..) rfl
    · rw [State.post_dispatch, hpost]
      unfold Post.afterDispatch
      split <;> rfl
    · intro hround
      rw [hpost] at hround
      cases hround
      exact State.stations_dispatch_of_ne _ _ _ _ _ _ (by decide)
  | dispatched hpost hnone =>
    rw [hpost] at hmoves
    exact hmoves _ (fun _ => rfl) fun _ => rfl
  | join hawaited hget hstage =>
    rcases Post.awaited?_eq_some hawaited with ⟨_, hpost, rfl⟩ | ⟨_, hpost, rfl⟩ <;>
      (rw [hpost] at hmoves; exact hmoves _ (fun _ => rfl) fun _ => rfl)
  | rethrow hawaited hget hstage =>
    rcases Post.awaited?_eq_some hawaited with ⟨_, hpost, rfl⟩ | ⟨_, hpost, rfl⟩ <;>
      (rw [hpost] at hmoves; exact hmoves _ (fun _ => rfl) fun _ => rfl)
  | joined hpost =>
    rw [hpost] at hmoves
    exact hmoves _ (fun _ => rfl) fun _ => rfl
  | unwound hpost hrest =>
    rw [hpost] at hmoves
    exact hmoves _ (fun _ => rfl) fun _ => rfl
  | @closing round hpost =>
    rw [State.trace_close, Trace.events_append, Trace.events_authoredBy,
      Events.roundReports_append, h, hpost, State.post_close]
    have hsame : (s.close round).counts setting.devices = s.counts setting.devices := by
      funext other
      cases other <;> simp [State.counts, State.roster]
    rw [hsame]
    cases round <;> rfl
  | @working round position station hget hlive =>
    obtain ⟨hround, hattends⟩ := horderly.round_of_live hget hlive
    have hmiddle : ∀ counts, s.post.reports counts = openingReports counts s.post.round := by
      intro counts
      cases hpost : s.post with
      | opening now =>
        rw [hpost] at hattends
        exact hattends.elim
      | ended =>
        rw [hpost] at hattends
        exact hattends.elim
      | _ => rfl
    refine reports_of_silent h (hmiddle _) ?_ ?_ (State.trace_work ..) ?_
    · rw [State.post_work]
      exact hmiddle _
    · intro hsecond
      apply State.stations_work_of_ne
      rw [hround, hsecond]
      decide
    · apply Events.roundReports_eq_nil
      intro event hevent
      exact (Station.shows_of_mem_step hevent).round?

/-- The reports of the rounds are those that belong to the place where the orchestrator
stands. -/
theorem roundReports_of_reachable (hreach : Reachable setting s) :
    s.trace.events.roundReports = s.post.reports (s.counts setting.devices) := by
  induction hreach with
  | refl => rfl
  | tail hbefore hstep ih =>
    obtain ⟨thread, hstep⟩ := hstep
    exact roundReports_of_step (orderly_of_reachable hbefore) hstep ih

end Threads

end FlashFleet
