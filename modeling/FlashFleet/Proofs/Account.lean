import FlashFleet.Proofs.Service
import Mathlib.Data.List.Forall2
/-!
# What a worker tells of itself

A trace says of each event whose it is. What it says of the workers of one device is what
they did in the first round and then what they did in the second, without a gap: their
invocations, what they wrote to the log, and what they reported. At the end of a run it is
what the two rounds do to the device when it is alone: each phase is reported to begin,
makes its invocations, resets the device, and is reported to be over.

## Main results

* `Phase.run_narrated` — all that a phase shows, from its beginning to its end.
* `ofAuthor_eq` — what a trace says of a device is what its workers did.
* `recounted_of_comesTo` — a run goes through both rounds with each device.
-/

namespace FlashFleet

/-! ## What a phase shows -/

/-- What a worker does on its own makes no report. -/
theorem isProgress_of_mem_perform (programmer : Programmer) (past : List Invocation)
    (actions : List Action) :
    ∀ event ∈ (perform programmer past actions).events, event.isProgress = false := by
  have hopening : ∀ (response : Response) (call : Invocation),
      ∀ event ∈ response.opening call, event.isProgress = false := by
    intro response call event hevent
    rcases List.mem_cons.1 hevent with rfl | hevent
    · rfl
    · obtain ⟨record, _, rfl⟩ := List.mem_map.1 hevent
      rfl
  have hcall : ∀ past call, ∀ event ∈ (programmer.call past call).events,
      event.isProgress = false := by
    intro past call
    simp only [Programmer.call]
    split
    · exact hopening _ call
    · exact List.forall_mem_append.2 ⟨hopening _ call, List.forall_mem_singleton.2 rfl⟩
  induction actions generalizing past with
  | nil => exact List.forall_mem_nil _
  | cons action rest ih =>
    cases action with
    | say record => exact List.forall_mem_cons.2 ⟨rfl, ih past⟩
    | refuse fault => exact List.forall_mem_nil _
    | crash text => exact List.forall_mem_nil _
    | invoke call =>
      rw [perform_invoke]
      split
      · exact List.forall_mem_append.2 ⟨hcall past call, ih _⟩
      · exact hcall past call

namespace Phase

variable {phase : Phase} {programmer : Programmer} {device : Device}

/-- The last reset of a phase, with what the programmer and the worker write to the log, and
the report that the phase is over. -/
def closing (phase : Phase) (serial : Serial) (flag : Flag) (records : List LogRecord)
    (last : Option Fault) (remarks : List LogRecord) : Events :=
  .began (.reset serial) :: (records.map .log ++ .ended (.reset serial) last ::
    (remarks.map .log ++ [.phaseFinished serial phase flag]))

/-- All that a phase shows which came to its end after these exchanges. -/
inductive Narrated (phase : Phase) (device : Device) (exchanges : List Exchange) :
    Events → Prop where
  | mk {work : Events} (hcalls : Events.calls work = shown exchanges)
      (hwork : ∀ event ∈ work, event.isProgress = false) (records : List LogRecord)
      (last : Option Fault) (remarks : List LogRecord) :
      Narrated phase device exchanges
        (.phaseStarted device.serial phase :: work ++
          phase.closing device.serial (phase.verdict device exchanges) records last remarks)

/-- With a programmer that never crashes the last reset comes to its end, and a fault of it is
noted by the worker. -/
theorem finish_closing (hsafe : programmer.NeverCrashes) (phase : Phase)
    (past : List Invocation) (flag : Flag) (device : Device) :
    (phase.finish programmer past flag device).device = device ∧
      ∃ records last, (phase.finish programmer past flag device).events =
        phase.closing device.serial flag records last
          (last.toList.map (phase.resetFailure device.serial)) := by
  refine ⟨(finish_calls phase programmer past flag device).2.1,
    (programmer.respond past (.reset device.serial)).logs, ?_⟩
  cases hanswer : (programmer.respond past (.reset device.serial)).outcome with
  | crashed text => exact absurd hanswer (hsafe past _ text)
  | succeeded =>
    refine ⟨none, ?_⟩
    simp [finish, closing, Programmer.call, Response.opening, hanswer, Outcome.fault?]
  | failed fault =>
    refine ⟨some fault, ?_⟩
    simp [finish, closing, Programmer.call, Response.opening, hanswer, Outcome.fault?]

/-- What a phase shows that is concluded behind its work, with the flag for its exchanges. -/
private theorem narrated_of_finish (hsafe : programmer.NeverCrashes) {exchanges : List Exchange}
    {flag : Flag} (hverdict : phase.verdict device exchanges = flag) {work : Events}
    (hcalls : Events.calls work = shown exchanges)
    (hwork : ∀ event ∈ work, event.isProgress = false) (past : List Invocation) :
    phase.Narrated device exchanges (.phaseStarted device.serial phase :: work ++
        (phase.finish programmer past flag (phase.record flag device)).events) ∧
      (phase.finish programmer past flag (phase.record flag device)).device =
        phase.record (phase.verdict device exchanges) device := by
  obtain ⟨hdevice, records, last, hclosing⟩ :=
    finish_closing hsafe phase past flag (phase.record flag device)
  rw [record_serial, ← hverdict] at hclosing
  rw [← hverdict] at hdevice ⊢
  rw [hclosing]
  exact ⟨.mk hcalls hwork records last _, hdevice⟩

/-- All that a phase shows, from its beginning to its end. -/
theorem run_narrated (hsafe : programmer.NeverCrashes) (hpossible : phase.Possible device)
    (past : List Invocation) :
    ∃ exchanges, Attempt (phase.plan device) exchanges ∧
      phase.Narrated device exchanges (phase.run programmer past device).events ∧
      (phase.run programmer past device).device =
        phase.record (phase.verdict device exchanges) device := by
  obtain ⟨exchanges, hcalls, hattempt, houtcome⟩ :=
    perform_attempt hsafe (sound_actions hpossible) past
  rw [planned_actions] at hattempt
  rw [refusal?_actions hpossible] at houtcome
  have hwork := isProgress_of_mem_perform programmer past (phase.actions device)
  refine ⟨exchanges, hattempt, ?_⟩
  cases hfault : (firstFault? exchanges).or (phase.objection? device) with
  | none =>
    have hverdict : phase.verdict device exchanges = .done := by
      rw [verdict, hfault]
      rfl
    rw [hfault] at houtcome
    rw [run_of_succeeded houtcome]
    exact narrated_of_finish hsafe hverdict hcalls hwork _
  | some fault =>
    have hverdict : phase.verdict device exchanges = .failed := by
      rw [verdict, hfault]
      rfl
    rw [hfault] at houtcome
    rw [run_of_failed houtcome]
    -- The failure is noted behind the work and before the last reset.
    have hnoted : Events.calls ((perform programmer past (phase.actions device)).events ++
        [.log (phase.failure device.serial fault)]) = shown exchanges := by
      rw [Events.calls_append, hcalls]
      exact List.append_nil _
    have hconcluded := narrated_of_finish hsafe hverdict hnoted
      (List.forall_mem_append.2 ⟨hwork, List.forall_mem_singleton.2 rfl⟩)
      (past ++ Events.invocations (phase.begun programmer past device))
    simpa [begun] using hconcluded

end Phase

namespace Threads

variable {setting : Setting} {s next : State} {thread : Thread}

/-! ## Authors -/

/-- A thread goes by a name: a worker by the serial of its device's probe. -/
inductive Signs (devices : List Device) : Thread → Author → Prop where
  | orchestrator : Signs devices .orchestrator .orchestrator
  | worker {round : Round} {position : Nat} {origin : Device}
      (horigin : devices[position]? = some origin) :
      Signs devices (.worker round position) (.worker origin.serial)

/-- What happens by a step is signed by the thread that takes it. -/
private theorem signs_of_step (hreach : Reachable setting s) (hstep : Step setting s thread next) :
    ∃ (author : Author) (events : Events),
      next.deeds = s.deeds ++ events.map (fun event => (⟨thread, ⟨author, event⟩⟩ : Deed)) ∧
      Signs setting.devices thread author := by
  have hmoved : ∀ post, ∃ (author : Author) (events : Events),
      (s.moveTo post).deeds = s.deeds ++
        events.map (fun event => (⟨.orchestrator, ⟨author, event⟩⟩ : Deed)) ∧
      Signs setting.devices .orchestrator author :=
    fun post => ⟨_, [], (List.append_nil _).symm, .orchestrator⟩
  cases hstep with
  | opening hpost => exact ⟨_, _, State.deeds_openRound .., .orchestrator⟩
  | dispatching hpost hget hstage hfirst => exact ⟨_, _, State.deeds_dispatch .., .orchestrator⟩
  | closing hpost => exact ⟨_, _, State.deeds_close .., .orchestrator⟩
  | working hget hlive =>
    obtain ⟨origin, horigin, hserial⟩ := serial_of_station hreach hget
    refine ⟨_, _, State.deeds_work .., ?_⟩
    rw [hserial]
    exact .worker horigin
  | dispatched hpost hnone => exact hmoved _
  | join hpost hget hstage => exact hmoved _
  | rethrow hpost hget hstage => exact hmoved _
  | joined hpost => exact hmoved _
  | unwound hpost hrest => exact hmoved _

/-- Everything that happens is signed by the thread that did it. -/
theorem signs_of_deed (hreach : Reachable setting s) :
    ∀ deed ∈ s.deeds, Signs setting.devices deed.thread deed.occurrence.author := by
  induction hreach with
  | refl =>
    intro deed hdeed
    cases hdeed
  | tail hbefore hstep ih =>
    obtain ⟨thread, hstep⟩ := hstep
    obtain ⟨author, events, hdeeds, hsigns⟩ := signs_of_step hbefore hstep
    intro deed hdeed
    rw [hdeeds] at hdeed
    rcases List.mem_append.1 hdeed with hold | hnew
    · exact ih deed hold
    · obtain ⟨event, _, rfl⟩ := List.mem_map.1 hnew
      exact hsigns

/-! ## What is said of one author -/

/-- Where nobody of the other round moved, what the workers at a position did is what the
one of this round did. -/
theorem events_of_round {part : List Deed} {position : Nat} {mine : Deed → Bool}
    (hmine : ∀ deed ∈ part, mine deed = true ↔ ∃ round, deed.thread = .worker round position)
    {round other : Round} (hne : round ≠ other)
    (hround : ∀ deed ∈ part, deed.thread.round? ≠ some other) :
    (part.filter mine).map (·.occurrence.event) = eventsBy (.worker round position) part := by
  rw [eventsBy, List.filter_congr]
  intro deed hdeed
  rw [Bool.eq_iff_iff, hmine deed hdeed, beq_iff_eq]
  constructor
  · rintro ⟨now, hthread⟩
    have hnow : now ≠ other := by
      rintro rfl
      apply hround deed hdeed
      rw [hthread]
      rfl
    have hsame : now = round := by
      cases now <;> cases round <;> cases other <;> first | rfl | contradiction
    rw [hthread, hsame]
  · exact fun hthread => ⟨round, hthread⟩

/-- What the workers at a position did is what they did in the first round, and then what
they did in the second. -/
private theorem events_of_position (hreach : Reachable setting s) {position : Nat}
    {mine : Deed → Bool}
    (hmine : ∀ deed ∈ s.deeds,
      mine deed = true ↔ ∃ round, deed.thread = .worker round position) :
    (s.deeds.filter mine).map (·.occurrence.event) =
      s.eventsOf (.worker .first position) ++ s.eventsOf (.worker .second position) := by
  have hapart := (orderly_of_reachable hreach).apart
  unfold State.eventsOf
  cases hnow : s.post.round with
  | first =>
    rw [hnow] at hapart
    rw [eventsBy_eq_nil_of_round hapart, List.append_nil]
    exact events_of_round hmine (by decide) hapart
  | second =>
    rw [hnow] at hapart
    obtain ⟨before, after, hdeeds, hbefore, hafter⟩ := hapart
    have hlater : ∀ deed ∈ firstRoundOver :: after, deed.thread.round? ≠ some .first :=
      List.forall_mem_cons.2 ⟨by decide, hafter⟩
    rw [hdeeds] at hmine
    obtain ⟨hmineBefore, hmineAfter⟩ := List.forall_mem_append.1 hmine
    have hfirst : (before.filter mine).map (·.occurrence.event) =
        eventsBy (.worker .first position) before :=
      events_of_round hmineBefore (by decide) hbefore
    have hsecond : ((firstRoundOver :: after).filter mine).map (·.occurrence.event) =
        eventsBy (.worker .second position) (firstRoundOver :: after) :=
      events_of_round hmineAfter (by decide) hlater
    rw [hdeeds, List.filter_append, List.map_append, hfirst, hsecond, eventsBy_append,
      eventsBy_append, eventsBy_eq_nil_of_round hbefore, eventsBy_eq_nil_of_round hlater,
      List.append_nil, List.nil_append]

/-- What is said of an author is what those did who go by that name. -/
theorem ofAuthor_occurrences (deeds : List Deed) (author : Author) :
    Trace.ofAuthor (deeds.map Deed.occurrence) author =
      (deeds.filter (·.occurrence.author = author)).map (·.occurrence.event) := by
  rw [Trace.ofAuthor, List.filter_map, List.map_map]
  rfl

/-- The orchestrator goes by its own name, and nobody else does. -/
theorem author_eq_orchestrator_iff (hreach : Reachable setting s) {deed : Deed}
    (hdeed : deed ∈ s.deeds) :
    deed.occurrence.author = .orchestrator ↔ deed.thread = .orchestrator := by
  have hsigns := signs_of_deed hreach deed hdeed
  generalize deed.thread = thread at hsigns
  generalize deed.occurrence.author = author at hsigns
  cases hsigns with
  | orchestrator => exact iff_of_true rfl rfl
  | worker horigin => exact iff_of_false (by simp) (by simp)

/-- Where no probe is listed twice, the workers of a device are those at its position. -/
theorem author_eq_worker_iff (hnodup : (setting.devices.map Device.serial).Nodup)
    (hreach : Reachable setting s) {position : Nat} {origin : Device}
    (horigin : setting.devices[position]? = some origin) {deed : Deed} (hdeed : deed ∈ s.deeds) :
    deed.occurrence.author = .worker origin.serial ↔
      ∃ round, deed.thread = .worker round position := by
  have hsigns := signs_of_deed hreach deed hdeed
  constructor
  · intro hauthor
    rw [hauthor] at hsigns
    generalize hthread : deed.thread = thread at hsigns
    generalize hname : Author.worker origin.serial = author at hsigns
    cases hsigns with
    | orchestrator => cases hname
    | @worker round place other hother =>
      rw [Author.worker.injEq] at hname
      exact ⟨round, by rw [position_of_serial hnodup horigin hother hname]⟩
  · rintro ⟨round, hthread⟩
    rw [hthread] at hsigns
    generalize deed.occurrence.author = author at hsigns
    cases hsigns with
    | worker hother =>
      rw [horigin, Option.some.injEq] at hother
      rw [hother]

/-- Where no probe is listed twice, what a trace says of a device is what its workers did
in the first round, and then what they did in the second. -/
theorem ofAuthor_eq (hnodup : (setting.devices.map Device.serial).Nodup)
    (hreach : Reachable setting s) {position : Nat} {origin : Device}
    (horigin : setting.devices[position]? = some origin) :
    s.trace.ofAuthor (.worker origin.serial) =
      s.eventsOf (.worker .first position) ++ s.eventsOf (.worker .second position) := by
  rw [State.trace, ofAuthor_occurrences]
  apply events_of_position hreach
  intro deed hdeed
  rw [decide_eq_true_eq]
  exact author_eq_worker_iff hnodup hreach horigin hdeed

/-- Nothing is said of a probe that no device has. -/
theorem ofAuthor_eq_nil (hreach : Reachable setting s) {serial : Serial}
    (h : ∀ origin ∈ setting.devices, origin.serial ≠ serial) :
    s.trace.ofAuthor (.worker serial) = [] := by
  rw [State.trace, ofAuthor_occurrences, List.map_eq_nil_iff, List.filter_eq_nil_iff]
  intro deed hdeed
  rw [decide_eq_true_eq]
  intro hauthor
  have hsigns := signs_of_deed hreach deed hdeed
  rw [hauthor] at hsigns
  generalize deed.thread = thread at hsigns
  generalize hname : Author.worker serial = author at hsigns
  cases hsigns with
  | orchestrator => cases hname
  | worker horigin =>
    rw [Author.worker.injEq] at hname
    exact h _ (List.mem_of_getElem? horigin) hname.symm

/-- What is said of the orchestrator is what it did. -/
theorem ofAuthor_orchestrator (hreach : Reachable setting s) :
    s.trace.ofAuthor .orchestrator = s.eventsOf .orchestrator := by
  rw [State.trace, ofAuthor_occurrences, State.eventsOf, eventsBy, List.filter_congr]
  intro deed hdeed
  rw [Bool.eq_iff_iff, decide_eq_true_eq, beq_iff_eq]
  exact author_eq_orchestrator_iff hreach hdeed

/-! ## The end of a run -/

/-- What a run does with a device: its two rounds, each by itself, with programmers that
give answers of the programmer of the run. -/
def Attended (programmer : Programmer) (past : List Invocation) (device : Device)
    (account : Events) (after : Device) : Prop :=
  ∃ earlier later : Programmer,
    earlier.Echoes programmer (Alike device.serial) ∧
    later.Echoes programmer (Alike device.serial) ∧
    ∃ first second : Events × Device,
      Round.first.serve earlier past device = first ∧
      Round.second.serve later (past ++ Events.invocations first.1) first.2 = second ∧
      account = first.1 ++ second.1 ∧ after = second.2

/-- A run goes through both rounds with each device, and tells of nobody else. -/
structure Recounted (programmer : Programmer) (past : List Invocation) (devices : List Device)
    (run : FleetRun) : Prop where
  /-- Each of the devices is attended to, and stays where it is in the fleet. -/
  attended : List.Forall₂ (fun device after =>
    Attended programmer past device (run.trace.ofAuthor (.worker device.serial)) after)
      devices run.devices
  /-- Nothing is told of any other probe. -/
  silent : ∀ serial, (∀ device ∈ devices, device.serial ≠ serial) →
    run.trace.ofAuthor (.worker serial) = []
  /-- What the orchestrator says is of no probe. -/
  general : ∀ event ∈ run.trace.ofAuthor .orchestrator, event.isGeneral = true

theorem recounted_of_comesTo {programmer : Programmer} {mode : Mode} {past : List Invocation}
    {devices : List Device} {run : FleetRun} (hsafe : programmer.NeverCrashes)
    (hnodup : (devices.map Device.serial).Nodup)
    (h : ComesTo (.of programmer mode past devices) run) :
    Recounted programmer past devices run := by
  obtain ⟨s, hreach, hrun⟩ := h
  obtain ⟨hpost, rfl⟩ := outcome_of_neverCrashes hsafe hreach hrun
  have hsize := (orderly_of_reachable hreach).size .second (by rw [hpost]; exact .inr rfl)
  refine ⟨List.forall₂_iff_get.2 ⟨?_, ?_⟩, fun _ => ofAuthor_eq_nil hreach, ?_⟩
  · rw [List.length_map, hsize]
    rfl
  · intro position hlisted hleft
    have hdevice : devices[position]? = some devices[position] :=
      List.getElem?_eq_getElem hlisted
    obtain ⟨station, hget, earlier, later, hearlier, hlater, first, second, hfirst, hsecond,
      htold, htold', hafter⟩ := rounds_of_ended hnodup hreach hpost hdevice
    have hstation : ((s.stations .second).map Station.device)[position] = station.device := by
      rw [List.getElem_map, (List.getElem?_eq_some_iff.1 hget).2]
    rw [List.get_eq_getElem, List.get_eq_getElem, hstation]
    refine ⟨earlier, later, hearlier, hlater, first, second, hfirst, hsecond, ?_, hafter⟩
    rw [ofAuthor_eq hnodup hreach hdevice, htold, htold']
  · rw [ofAuthor_orchestrator hreach]
    exact isGeneral_of_orchestrator hreach

end Threads

end FlashFleet
