import FlashFleet.Proofs.Isolation
import FlashFleet.Proofs.Lockstep
/-!
# Programmers that agree

Two programmers agree when the same comes of every invocation, whatever was asked before,
and neither logs an error of its own. They may differ in what else they write to the log.
Sequential runs with them are then the same step by step, but for these records. Of runs in
parallel no two need to be in the same order, even with one programmer. What such runs have
in common goes by the device that is alone.

## Main results

* `run_essence`, `work_essence` — what agreeing programmers have in common passes from a phase
  to a round.
* `fleet_essence` — sequential runs with agreeing programmers are the same in essence.
* `alike_of_comesTo` — any runs with agreeing programmers leave the same devices, and
  ask the same of each probe.
-/

namespace FlashFleet

/-! ## The essence of events -/

/-- A record of the log that is not an error. -/
def Event.isRemark : Event → Bool
  | .log record => record.level != .error
  | _ => false

namespace Events

/-- What happens, without the records of the log that are no errors. -/
def essence (events : Events) : Events := events.filter fun event => !event.isRemark

@[simp] theorem essence_append (a b : Events) : essence (a ++ b) = essence a ++ essence b :=
  List.filter_append ..

theorem essence_cons (event : Event) (events : Events) :
    essence (event :: events) = essence [event] ++ essence events :=
  essence_append [event] events

theorem essence_remarks {records : List LogRecord} (h : ∀ record ∈ records, record.level ≠ .error) :
    essence (records.map .log) = [] := by
  rw [essence, List.filter_eq_nil_iff]
  intro event hevent
  obtain ⟨record, hrecord, rfl⟩ := List.mem_map.1 hevent
  simp [Event.isRemark, h record hrecord]

/-- Invocations are of the essence. -/
theorem invocations_essence (events : Events) :
    invocations (essence events) = invocations events := by
  induction events with
  | nil => rfl
  | cons event rest ih =>
    cases hremark : event.isRemark with
    | false =>
      rw [essence, List.filter_cons_of_pos (by rw [hremark]; rfl), ← essence]
      simp only [invocations, List.filterMap_cons] at ih ⊢
      rw [ih]
    | true =>
      rw [essence, List.filter_cons_of_neg (by simp [hremark]), ← essence, ih]
      cases event <;> first | rfl | cases hremark

theorem invocations_congr {a b : Events} (h : essence a = essence b) :
    invocations a = invocations b := by
  rw [← invocations_essence, h, invocations_essence]

end Events

/-- What happens in a trace, without the records of the log that are no errors. -/
def Trace.essence (trace : Trace) : Trace := trace.filter fun o => !o.event.isRemark

@[simp] theorem Trace.essence_append (a b : Trace) : essence (a ++ b) = essence a ++ essence b :=
  List.filter_append ..

@[simp] theorem Trace.essence_authoredBy (author : Author) (events : Events) :
    (events.authoredBy author).essence = (events.essence).authoredBy author :=
  List.filter_map

theorem Trace.invocations_congr {a b : Trace} (h : a.essence = b.essence) :
    a.invocations = b.invocations := by
  have hevents : ∀ trace : Trace, trace.essence.events = Events.essence trace.events := by
    intro trace
    rw [events, essence, Events.essence, events, List.filter_map]
    rfl
  apply Events.invocations_congr
  rw [← hevents, ← hevents, h]

/-! ## Agreement -/

/-- The programmers answer alike, and log no errors themselves. -/
structure Programmer.Agrees (programmer other : Programmer) : Prop where
  outcome : ∀ past call,
    (programmer.respond past call).outcome = (other.respond past call).outcome
  calmly : ∀ past call, ∀ record ∈ (programmer.respond past call).logs, record.level ≠ .error
  calmly' : ∀ past call, ∀ record ∈ (other.respond past call).logs, record.level ≠ .error

namespace Programmer.Agrees

variable {programmer other : Programmer} (h : programmer.Agrees other)
include h

theorem call_essence (past : List Invocation) (call : Invocation) :
    (programmer.call past call).events.essence = (other.call past call).events.essence ∧
      (programmer.call past call).outcome = (other.call past call).outcome := by
  refine ⟨?_, by rw [call_outcome, call_outcome, h.outcome]⟩
  have hopening : ∀ response : Response, (∀ record ∈ response.logs, record.level ≠ .error) →
      Events.essence (response.opening call) = [.began call] := by
    intro response hlogs
    rw [Response.opening, Events.essence_cons, Events.essence_remarks hlogs]
    rfl
  simp only [Programmer.call, h.outcome past call]
  cases (other.respond past call).outcome <;>
    simp [hopening _ (h.calmly past call), hopening _ (h.calmly' past call)]

theorem perform_essence (past : List Invocation) (actions : List Action) :
    (perform programmer past actions).events.essence =
        (perform other past actions).events.essence ∧
      (perform programmer past actions).outcome = (perform other past actions).outcome := by
  induction actions generalizing past with
  | nil => exact ⟨rfl, rfl⟩
  | cons action rest ih =>
    cases action with
    | say record =>
      obtain ⟨hevents, houtcome⟩ := ih past
      rw [perform_say, perform_say]
      refine ⟨?_, houtcome⟩
      rw [Events.essence_cons, hevents, ← Events.essence_cons]
    | refuse fault => exact ⟨rfl, rfl⟩
    | crash text => exact ⟨rfl, rfl⟩
    | invoke call =>
      obtain ⟨hcall, hanswer⟩ := h.call_essence past call
      obtain ⟨hevents, houtcome⟩ := ih (past ++ [call])
      rw [perform_invoke, perform_invoke]
      rw [hanswer]
      cases (other.call past call).outcome with
      | succeeded =>
        refine ⟨?_, houtcome⟩
        rw [Events.essence_append, hcall, hevents, ← Events.essence_append]
      | failed fault => exact ⟨hcall, hanswer⟩
      | crashed text => exact ⟨hcall, hanswer⟩

/-- The last resets of a phase are the same in essence. -/
theorem finish_essence (phase : Phase) (past : List Invocation) (flag : Flag) (device : Device) :
    (phase.finish programmer past flag device).events.essence =
        (phase.finish other past flag device).events.essence ∧
      (phase.finish programmer past flag device).device =
        (phase.finish other past flag device).device ∧
      (phase.finish programmer past flag device).crash =
        (phase.finish other past flag device).crash := by
  obtain ⟨hreset, hanswer⟩ := h.call_essence past (.reset device.serial)
  simp only [Phase.finish, hanswer]
  cases (other.call past (.reset device.serial)).outcome <;> simp [hreset]

/-- Phases are the same in essence. -/
theorem run_essence (phase : Phase) (past : List Invocation) (device : Device) :
    (phase.run programmer past device).events.essence =
        (phase.run other past device).events.essence ∧
      (phase.run programmer past device).device = (phase.run other past device).device ∧
      (phase.run programmer past device).crash = (phase.run other past device).crash := by
  obtain ⟨hwork, houtcome⟩ := h.perform_essence past (phase.actions device)
  have hbegun : (phase.begun programmer past device).essence =
      (phase.begun other past device).essence := by
    rw [Phase.begun, Events.essence_cons, hwork, ← Events.essence_cons, ← Phase.begun]
  have hpast := Events.invocations_congr hbegun
  cases hanswer : (perform other past (phase.actions device)).outcome with
  | crashed text =>
    rw [Phase.run_of_crashed (houtcome.trans hanswer), Phase.run_of_crashed hanswer]
    exact ⟨hbegun, rfl, rfl⟩
  | failed fault =>
    rw [Phase.run_of_failed (houtcome.trans hanswer), Phase.run_of_failed hanswer, hpast]
    obtain ⟨hevents, hdevice, hcrash⟩ := h.finish_essence phase
      (past ++ Events.invocations (phase.begun other past device)) .failed
      (phase.record .failed device)
    refine ⟨?_, hdevice, hcrash⟩
    rw [Events.essence_append, hbegun, Events.essence_cons, hevents, ← Events.essence_cons,
      ← Events.essence_append]
  | succeeded =>
    rw [Phase.run_of_succeeded (houtcome.trans hanswer), Phase.run_of_succeeded hanswer, hpast]
    obtain ⟨hevents, hdevice, hcrash⟩ := h.finish_essence phase
      (past ++ Events.invocations (phase.begun other past device)) .done
      (phase.record .done device)
    refine ⟨?_, hdevice, hcrash⟩
    rw [Events.essence_append, hbegun, hevents, ← Events.essence_append]

end Programmer.Agrees

/-! ## Sequential runs -/

/-- The runs are the same in essence. -/
structure FleetRun.Agrees (run other : FleetRun) : Prop where
  essence : run.trace.essence = other.trace.essence
  devices : run.devices = other.devices
  crash : run.crash = other.crash

namespace FleetRun.Agrees

variable {run other : FleetRun}

/-- What comes before both changes nothing. -/
theorem after (h : run.Agrees other) {before before' : Trace}
    (hbefore : before.essence = before'.essence) :
    (run.after before).Agrees (other.after before') where
  essence := by
    simp only [FleetRun.after, Trace.essence_append, hbefore, h.essence]
  devices := h.devices
  crash := h.crash

theorem closed (h : run.Agrees other) (round : Round) :
    (run.closed round).Agrees (other.closed round) := by
  unfold FleetRun.closed
  rw [h.crash]
  cases other.crash with
  | some text => exact h
  | none =>
    refine ⟨?_, h.devices, rfl⟩
    simp only [Trace.essence_append, h.essence]

end FleetRun.Agrees

namespace Programmer.Agrees

variable {programmer other : Programmer} (h : programmer.Agrees other)
include h

theorem work_essence (round : Round) (past : List Invocation) (devices : List Device) :
    (Sequential.work programmer round past devices).Agrees
      (Sequential.work other round past devices) := by
  induction devices generalizing past with
  | nil => exact ⟨rfl, rfl, rfl⟩
  | cons device rest ih =>
    cases hphase : round.phase? device with
    | none =>
      have hlater := ih past
      rw [Sequential.work_cons_idle hphase, Sequential.work_cons_idle hphase]
      exact ⟨hlater.essence, congrArg (device :: ·) hlater.devices, hlater.crash⟩
    | some phase =>
      obtain ⟨hevents, hdevice, hcrash⟩ := h.run_essence phase past device
      have hlater := ih (past ++ Events.invocations (phase.run other past device).events)
      simp only [Sequential.work, hphase, Events.invocations_congr hevents, hdevice, hcrash]
      cases (phase.run other past device).crash with
      | some text =>
        refine ⟨?_, rfl, rfl⟩
        simp only [Trace.essence_append, Trace.essence_authoredBy, hevents]
      | none =>
        refine ⟨?_, congrArg ((phase.run other past device).device :: ·) hlater.devices,
          hlater.crash⟩
        simp only [Trace.essence_append, Trace.essence_authoredBy, hevents, hlater.essence]

/-- Sequential runs are the same in essence. -/
theorem fleet_essence (past : List Invocation) (devices : List Device) :
    (Fleet.run programmer .sequential past devices).Agrees
      (Fleet.run other .sequential past devices) := by
  have hround : ∀ (round : Round) (past : List Invocation) (devices : List Device),
      (round.run programmer .sequential past devices).Agrees
        (round.run other .sequential past devices) :=
    fun round past devices => ((h.work_essence round past devices).closed round).after rfl
  have hfirst := (hround .first past devices).after (Eq.refl
    (Trace.essence ((Fleet.skipped devices).authoredBy .orchestrator)))
  simp only [Fleet.run, hfirst.crash]
  split
  · exact hfirst
  · rw [Trace.invocations_congr hfirst.essence, hfirst.devices]
    exact (hround .second _ _).after hfirst.essence

end Programmer.Agrees

/-! ## Any runs -/

/-- What is done to a device that is alone depends on the outcomes of invocations alone. -/
theorem Programmer.Agrees.solitary {programmer other : Programmer} (h : programmer.Agrees other)
    (past : List Invocation) (device : Device) :
    solitary programmer past device = solitary other past device := by
  obtain ⟨hcalls, hdevice⟩ :=
    @Round.serve_congr .first programmer other device (fun past call _ => h.outcome past call) past
  have hbegun : Events.invocations (Round.first.serve programmer past device).1 =
      Events.invocations (Round.first.serve other past device).1 := by
    rw [← Events.invocations_calls, hcalls, Events.invocations_calls]
  simp only [FlashFleet.solitary, hcalls, hdevice, hbegun]
  obtain ⟨hcalls', hdevice'⟩ := @Round.serve_congr .second programmer other
    (Round.first.serve other past device).2 (fun past call _ => h.outcome past call)
    (past ++ Events.invocations (Round.first.serve other past device).1)
  rw [hcalls', hdevice']

namespace Threads

/-- Runs with agreeing programmers, in whatever order their threads move, leave the same
devices and ask the same of each probe. -/
theorem alike_of_comesTo {programmer other : Programmer} (h : programmer.Agrees other)
    (hsafe : other.NeverCrashes) (hprobe : other.PerProbe) {past : List Invocation}
    {devices : List Device} (hnodup : (devices.map Device.serial).Nodup) {mode mode' : Mode}
    {run run' : FleetRun} (hrun : ComesTo (.of programmer mode past devices) run)
    (hrun' : ComesTo (.of other mode' past devices) run') :
    run.devices = run'.devices ∧
      ∀ serial, ofProbe serial run.trace.invocations = ofProbe serial run'.trace.invocations := by
  have hsafe' : programmer.NeverCrashes := by
    intro past call text
    rw [h.outcome]
    exact hsafe past call text
  have hprobe' : programmer.PerProbe := by
    intro past earlier call hsame
    rw [h.outcome, h.outcome]
    exact hprobe past earlier call hsame
  obtain ⟨_, hdevices, htold, hsilent⟩ := solitary_of_comesTo hsafe' hprobe' hnodup hrun
  obtain ⟨_, hdevices', htold', hsilent'⟩ := solitary_of_comesTo hsafe hprobe hnodup hrun'
  refine ⟨?_, fun serial => ?_⟩
  · rw [hdevices, hdevices']
    exact List.map_congr_left fun device _ => by rw [h.solitary]
  · have hdialogue : run.trace.dialogue serial = run'.trace.dialogue serial := by
      by_cases hknown : ∃ device ∈ devices, device.serial = serial
      · obtain ⟨device, hmem, rfl⟩ := hknown
        rw [htold device hmem, htold' device hmem, h.solitary]
      · have hnone : ∀ device ∈ devices, device.serial ≠ serial :=
          fun device hmem hserial => hknown ⟨device, hmem, hserial⟩
        rw [hsilent serial hnone, hsilent' serial hnone]
    have hcalls := congrArg Events.invocations hdialogue
    rwa [Trace.dialogue, Trace.dialogue, Events.invocations_about, Events.invocations_about]
      at hcalls

end Threads

end FlashFleet
