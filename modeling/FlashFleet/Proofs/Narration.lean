import FlashFleet.Proofs.Rehearsing
import FlashFleet.Proofs.Stretches
import Mathlib.Data.List.Nodup
/-!
# What a run reports

Each round is reported once, and announced with the number of the devices that have work in it.
Between the reports of a round each of these devices, and no other, is reported to begin its
phase and to be done with it: in front of the first invocation of the phase, and behind the
reset that is the last. What is said of the phase when it is done is what the device is left
with, although the second round is still to come, for no phase has a flag of another.

## Main results

* `Round.serve_tells` — what a round tells of a device that is alone.
* `told_of_stretch` — what is told in the stretch of a round.
* `fleet_reported` — what every run reports.
-/

namespace FlashFleet

/-! ## Reports of phases -/

namespace Event

/-- The phase that is reported to begin, and the probe. -/
def started? : Event → Option (Serial × Phase)
  | .phaseStarted serial phase => some (serial, phase)
  | _ => none

/-- The phase that is reported to be over, the probe, and the flag that is given. -/
def finished? : Event → Option (Serial × Phase × Flag)
  | .phaseFinished serial phase flag => some (serial, phase, flag)
  | _ => none

/-- What is of no probe and reports no round is a record of the log. -/
theorem exists_log {event : Event} (hgeneral : event.isGeneral = true)
    (hround : event.round? = none) : ∃ record, event = .log record := by
  cases event with
  | log record => exact ⟨record, rfl⟩
  | roundStarted round count => cases hround
  | roundFinished round => cases hround
  | _ => cases hgeneral

end Event

/-- The last of a phase is the report that it is over, and there is none before it. -/
theorem Phase.closing_eq (phase : Phase) (serial : Serial) (flag : Flag) (records : List LogRecord)
    (last : Option Fault) (remarks : List LogRecord) :
    ∃ rest, phase.closing serial flag records last remarks =
        rest ++ [.phaseFinished serial phase flag] ∧
      ∀ event ∈ rest, event.isProgress = false := by
  refine ⟨.began (.reset serial) ::
    (records.map .log ++ .ended (.reset serial) last :: remarks.map .log), by simp [closing], ?_⟩
  simp only [List.forall_mem_cons, List.forall_mem_append, List.forall_mem_map]
  exact ⟨rfl, fun _ _ => rfl, rfl, fun _ _ => rfl⟩

/-! ## What a round tells of a device -/

/-- What a round tells of a device: nothing if it has no work, and otherwise its phase from the
beginning to the end, with the flag of the phase that the device is left with. -/
inductive Round.Tells (round : Round) (device left : Device) : Events → Prop where
  | idle (hphase : round.phase? device = none) : round.Tells device left []
  | worked {phase : Phase} (hphase : round.phase? device = some phase) {work : Events}
      (hwork : ∀ event ∈ work, event.isProgress = false) (records : List LogRecord)
      (last : Option Fault) (remarks : List LogRecord) :
      round.Tells device left (.phaseStarted device.serial phase :: work ++
        phase.closing device.serial (phase.flag left) records last remarks)

namespace Round

variable {round : Round} {device left : Device} {events : Events} {programmer : Programmer}

/-- Of what is told of a device two events are reports, if there are any. -/
theorem Tells.filterMap {α : Type} {see : Event → Option α}
    (hblind : ∀ event, event.isProgress = false → see event = none)
    (h : round.Tells device left events) :
    events.filterMap see = (round.phase? device).toList.flatMap fun phase =>
      [.phaseStarted device.serial phase,
        .phaseFinished device.serial phase (phase.flag left)].filterMap see := by
  cases h with
  | idle hphase =>
    rw [hphase]
    rfl
  | @worked phase hphase work hwork records last remarks =>
    obtain ⟨rest, hclosing, hrest⟩ :=
      phase.closing_eq device.serial (phase.flag left) records last remarks
    have hnone : ∀ part : Events, (∀ event ∈ part, event.isProgress = false) →
        part.filterMap see = [] :=
      fun part hpart => List.filterMap_eq_nil_iff.2 fun event hevent =>
        hblind event (hpart event hevent)
    rw [hphase, hclosing, List.cons_append, List.filterMap_cons, List.filterMap_append,
      List.filterMap_append, hnone work hwork, hnone rest hrest, List.nil_append, List.nil_append,
      Option.toList_some, List.flatMap_singleton]
    exact List.filterMap_cons.symm

/-- A phase is reported to begin once if the device has work, and not otherwise. -/
theorem Tells.started (h : round.Tells device left events) :
    events.filterMap Event.started? =
      ((round.phase? device).map fun phase => (device.serial, phase)).toList := by
  rw [h.filterMap fun event hevent => by cases event <;> first | rfl | cases hevent]
  cases round.phase? device <;> rfl

/-- A phase is reported to be over once if the device has work, and not otherwise. -/
theorem Tells.finished (h : round.Tells device left events) :
    events.filterMap Event.finished? =
      ((round.phase? device).map fun phase =>
        (device.serial, phase, phase.flag left)).toList := by
  rw [h.filterMap fun event hevent => by cases event <;> first | rfl | cases hevent]
  cases round.phase? device <;> rfl

/-- A report is of the phase that the round has for the device. -/
theorem Tells.report (h : round.Tells device left events) {event : Event} (hevent : event ∈ events)
    {serial : Serial} {phase : Phase} (hreport : event.phase? = some (serial, phase)) :
    serial = device.serial ∧ round.phase? device = some phase := by
  have hseen : (serial, phase) ∈ events.filterMap Event.phase? :=
    List.mem_filterMap.2 ⟨event, hevent, hreport⟩
  rw [h.filterMap fun event hevent => by cases event <;> first | rfl | cases hevent] at hseen
  cases hphase : round.phase? device with
  | none =>
    rw [hphase] at hseen
    cases hseen
  | some due =>
    rw [hphase] at hseen
    obtain ⟨rfl, rfl⟩ : serial = device.serial ∧ phase = due := by
      simpa [Event.phase?] using hseen
    exact ⟨rfl, rfl⟩

/-- What is told depends on the probe and the work alone. -/
theorem Tells.congr (h : round.Tells device left events) {other : Device}
    (hserial : device.serial = other.serial)
    (hphase : round.phase? device = round.phase? other) : round.Tells other left events := by
  cases h with
  | idle hnone => exact .idle (hphase.symm.trans hnone)
  | worked hsome hwork records last remarks =>
    rw [hserial]
    exact .worked (hphase.symm.trans hsome) hwork records last remarks

/-- A round leaves the flags of all phases but its own. -/
theorem flag_serve_of_ne (hsafe : programmer.NeverCrashes) {phase : Phase}
    (hne : phase.round ≠ round) (past : List Invocation) :
    phase.flag (round.serve programmer past device).2 = phase.flag device := by
  rcases serve_narrated hsafe round device past with
    ⟨_, hserve⟩ | ⟨run, exchanges, hphase, _, _, hdevice⟩
  · rw [hserve]
  · have hrun := round_of_phase? hphase
    have hother : run ≠ phase := by
      rintro rfl
      exact hne hrun
    rw [hdevice]
    exact Phase.flag_record_of_ne hother _ device

/-- What the second round has for a device is not changed by the first. -/
theorem phase?_second_serve (hsafe : programmer.NeverCrashes) (past : List Invocation) :
    Round.second.phase? (Round.first.serve programmer past device).2 =
      Round.second.phase? device := by
  apply Option.ext
  intro phase
  rw [phase?_eq_some_iff_due, phase?_eq_some_iff_due]
  cases phase with
  | app => exact and_congr_right fun _ => due_app_serve hsafe past
  | _ => exact iff_of_false (fun h => nomatch h.1) fun h => nomatch h.1

/-- What a round tells of a device that is alone, if what comes later does not change the flag
of its phase. -/
theorem serve_tells (hsafe : programmer.NeverCrashes) (past : List Invocation)
    (hleft : ∀ phase : Phase, phase.round = round →
      phase.flag left = phase.flag (round.serve programmer past device).2) :
    round.Tells device left (round.serve programmer past device).1 := by
  rcases serve_narrated hsafe round device past with
    ⟨hphase, hserve⟩ | ⟨phase, exchanges, hphase, _, hnarrated, hdevice⟩
  · rw [hserve]
    exact .idle hphase
  · have hflag : phase.flag left = phase.verdict device exchanges := by
      rw [hleft phase (round_of_phase? hphase), hdevice, Phase.flag_record]
    generalize (round.serve programmer past device).1 = events at hnarrated
    cases hnarrated with
    | mk hcalls hwork records last remarks =>
      rw [← hflag]
      exact .worked hphase hwork records last remarks

end Round

/-! ## A trace and its authors -/

namespace Trace

variable {part : Trace}

theorem mem_ofAuthor {o : Occurrence} (h : o ∈ part) : o.event ∈ part.ofAuthor o.author :=
  List.mem_map_of_mem (List.mem_filter.2 ⟨h, decide_eq_true rfl⟩)

/-- What happened is what each of the authors did, up to the order. -/
theorem perm_ofAuthor {authors : List Author} (hnodup : authors.Nodup)
    (hall : ∀ o ∈ part, o.author ∈ authors) :
    part.events.Perm (authors.flatMap part.ofAuthor) := by
  induction authors generalizing part with
  | nil =>
    have hnone : part = [] := List.eq_nil_iff_forall_not_mem.2 fun o ho => nomatch hall o ho
    rw [hnone]
    exact .nil
  | cons author rest ih =>
    obtain ⟨hfresh, hrest⟩ := List.nodup_cons.1 hnodup
    let others : Trace := part.filter fun o => !decide (o.author = author)
    have hothers : ∀ o ∈ others, o.author ∈ rest := by
      intro o ho
      obtain ⟨hmem, hne⟩ := List.mem_filter.1 ho
      refine (List.mem_cons.1 (hall o hmem)).resolve_left fun heq => ?_
      simp [heq] at hne
    have hkept : ∀ other ∈ rest, others.ofAuthor other = part.ofAuthor other := by
      intro other hother
      rw [ofAuthor, ofAuthor, List.filter_filter]
      congr 1
      apply List.filter_congr
      intro o _
      by_cases heq : o.author = other
      · have hne : other ≠ author := fun h => hfresh (h ▸ hother)
        simp [heq, hne]
      · simp [heq]
    have hsplit : part.Perm (part.filter (fun o => decide (o.author = author)) ++ others) :=
      (List.filter_append_perm (fun o => decide (o.author = author)) part).symm
    have hevents : part.events.Perm (part.ofAuthor author ++ others.events) := by
      have hmapped := hsplit.map Occurrence.event
      rwa [List.map_append] at hmapped
    rw [List.flatMap_cons, ← List.flatMap_congr hkept]
    exact hevents.trans ((ih hrest hothers).append_left _)

end Trace

/-! ## What a stretch tells -/

/-- The orchestrator does nothing but to write to the log. -/
def Trace.Aside (part : Trace) : Prop := ∀ o ∈ part, ∃ record, o = ⟨.orchestrator, .log record⟩

/-- What is told between the reports of a round. -/
structure Round.Told (round : Round) (devices left : List Device) (part : Trace) : Prop where
  /-- The orchestrator reports nothing before the round is over. -/
  quiet : ∀ o ∈ part, o.author = .orchestrator → ∃ record, o.event = .log record
  /-- All others are workers of the devices. -/
  manned : ∀ o ∈ part, o.author = .orchestrator ∨
    ∃ device ∈ devices, o.author = .worker device.serial
  /-- Each worker reports the beginning of its phase first and the end of it last, with the flag
  that its device is left with. -/
  tells : List.Forall₂ (fun device after =>
    round.Tells device after (part.ofAuthor (.worker device.serial))) devices left
  /-- The invocations of a probe are made by the worker of its device. -/
  own : ∀ o ∈ part, ∀ call, o.event.call? = some call → o.author = .worker call.serial
  /-- A report is of a connected device with that work. -/
  due : ∀ o ∈ part, ∀ serial phase, o.event.phase? = some (serial, phase) →
    ∃ device ∈ devices, device.serial = serial ∧ device.connected = true ∧
      round.phase? device = some phase
  /-- Each device with work is reported once to begin it. -/
  started : (part.events.filterMap Event.started?).Perm
    (devices.filterMap fun device => (round.phase? device).map fun phase => (device.serial, phase))
  /-- Each is reported once to be done with it, with the flag that it is left with. -/
  finished : (part.events.filterMap Event.finished?).Perm
    ((devices.zip left).filterMap fun pair =>
      (round.phase? pair.1).map fun phase => (pair.1.serial, phase, phase.flag pair.2))
  /-- As many devices are reported as were announced. -/
  counted : (part.events.filterMap Event.started?).length = round.count devices

section Perm

variable {α : Type} {devices left : List Device} {part : Trace}

/-- What is seen of related lists is seen of their pairs. -/
private theorem flatMap_eq_flatMap_zip {f : Device → List α} {g : Device → Device → List α}
    (h : List.Forall₂ (fun device after => f device = g device after) devices left) :
    devices.flatMap f = (devices.zip left).flatMap fun pair => g pair.1 pair.2 := by
  induction h with
  | nil => rfl
  | cons hfirst _ ih => rw [List.flatMap_cons, List.zip_cons_cons, List.flatMap_cons, hfirst, ih]

/-- What is seen of workers, each with its device, is all that is seen, up to the order. -/
theorem Trace.perm_workers {see : Event → Option α} {g : Device → Device → List α}
    (hnodup : (devices.map Device.serial).Nodup)
    (hquiet : ∀ o ∈ part, o.author = .orchestrator → see o.event = none)
    (hmanned : ∀ o ∈ part, o.author = .orchestrator ∨
      ∃ device ∈ devices, o.author = .worker device.serial)
    (h : List.Forall₂ (fun device after =>
      (part.ofAuthor (.worker device.serial)).filterMap see = g device after) devices left) :
    (part.events.filterMap see).Perm
      ((devices.zip left).flatMap fun pair => g pair.1 pair.2) := by
  have hworkers : (devices.map fun device => Author.worker device.serial).Nodup := by
    have hmapped := List.Nodup.map (fun _ _ heq => Author.worker.inj heq) hnodup
    rwa [List.map_map] at hmapped
  have hauthors : (Author.orchestrator ::
      devices.map fun device => Author.worker device.serial).Nodup :=
    List.nodup_cons.2 ⟨by simp, hworkers⟩
  have hall : ∀ o ∈ part, o.author ∈
      Author.orchestrator :: devices.map fun device => Author.worker device.serial := by
    intro o ho
    rcases hmanned o ho with hauthor | ⟨device, hmem, hauthor⟩
    · rw [hauthor]
      exact List.mem_cons_self
    · rw [hauthor]
      exact List.mem_cons_of_mem _ (List.mem_map_of_mem hmem)
  have hnone : (part.ofAuthor .orchestrator).filterMap see = [] := by
    rw [List.filterMap_eq_nil_iff]
    intro event hevent
    obtain ⟨o, ho, rfl⟩ := List.mem_map.1 hevent
    obtain ⟨hmem, hauthor⟩ := List.mem_filter.1 ho
    exact hquiet o hmem (of_decide_eq_true hauthor)
  have hperm := (Trace.perm_ofAuthor hauthors hall).filterMap see
  rwa [List.flatMap_cons, List.filterMap_append, hnone, List.nil_append, List.flatMap_map,
    List.filterMap_flatMap, flatMap_eq_flatMap_zip h] at hperm

/-- What the workers report of their devices is what is reported, up to the order. -/
private theorem perm_reports {see : Event → Option α} {g : Device × Device → Option α}
    (hnodup : (devices.map Device.serial).Nodup)
    (hquiet : ∀ o ∈ part, o.author = .orchestrator → see o.event = none)
    (hmanned : ∀ o ∈ part, o.author = .orchestrator ∨
      ∃ device ∈ devices, o.author = .worker device.serial)
    (h : List.Forall₂ (fun device after =>
      (part.ofAuthor (.worker device.serial)).filterMap see = (g (device, after)).toList)
        devices left) :
    (part.events.filterMap see).Perm ((devices.zip left).filterMap g) := by
  rw [List.filterMap_eq_flatMap_toList g]
  exact Trace.perm_workers hnodup hquiet hmanned h

/-- The reports of a stretch are those of its workers. -/
theorem Round.told_of_tells {round : Round} (hnodup : (devices.map Device.serial).Nodup)
    (hquiet : ∀ o ∈ part, o.author = .orchestrator → ∃ record, o.event = .log record)
    (hmanned : ∀ o ∈ part, o.author = .orchestrator ∨
      ∃ device ∈ devices, o.author = .worker device.serial)
    (htells : List.Forall₂ (fun device after =>
      round.Tells device after (part.ofAuthor (.worker device.serial))) devices left)
    (hown : ∀ o ∈ part, ∀ call, o.event.call? = some call → o.author = .worker call.serial) :
    round.Told devices left part := by
  have hunseen : ∀ {β : Type} (see : Event → Option β), (∀ record, see (.log record) = none) →
      ∀ o ∈ part, o.author = .orchestrator → see o.event = none := by
    intro β see hlog o ho hauthor
    obtain ⟨record, hevent⟩ := hquiet o ho hauthor
    rw [hevent]
    exact hlog record
  have hpairs : devices = (devices.zip left).map Prod.fst :=
    (List.map_fst_zip (Nat.le_of_eq htells.length_eq)).symm
  have hstarted : (part.events.filterMap Event.started?).Perm
      (devices.filterMap fun device =>
        (round.phase? device).map fun phase => (device.serial, phase)) := by
    have hperm : (part.events.filterMap Event.started?).Perm
        ((devices.zip left).filterMap fun pair =>
          (round.phase? pair.1).map fun phase => (pair.1.serial, phase)) :=
      perm_reports hnodup (hunseen _ fun _ => rfl) hmanned (htells.imp fun _ _ h => h.started)
    rw [hpairs, List.filterMap_map]
    exact hperm
  refine ⟨hquiet, hmanned, htells, hown, fun o ho serial phase hreport => ?_, hstarted,
    perm_reports hnodup (hunseen _ fun _ => rfl) hmanned (htells.imp fun _ _ h => h.finished), ?_⟩
  · rcases hmanned o ho with hauthor | ⟨device, hmem, hauthor⟩
    · rw [hunseen Event.phase? (fun _ => rfl) o ho hauthor] at hreport
      cases hreport
    · obtain ⟨position, hlt, rfl⟩ := List.getElem_of_mem hmem
      have hevent := Trace.mem_ofAuthor ho
      rw [hauthor] at hevent
      obtain ⟨rfl, hphase⟩ :=
        (htells.get hlt (htells.length_eq ▸ hlt)).report hevent hreport
      exact ⟨_, hmem, rfl, (Round.phase?_eq_some_iff.1 hphase).1, hphase⟩
  · rw [hstarted.length_eq, List.length_filterMap_eq_countP]
    simp only [Option.isSome_map]
    rfl

end Perm

namespace Threads

variable {setting : Setting} {s : State}

/-- Both rounds tell of each device what they do with it. -/
theorem tells_of_ended (hsafe : setting.programmer.NeverCrashes)
    (hnodup : (setting.devices.map Device.serial).Nodup) (hreach : Reachable setting s)
    (hpost : s.post = .ended) {position : Nat} {device : Device}
    (hdevice : setting.devices[position]? = some device) :
    ∃ station, (s.stations .second)[position]? = some station ∧
      ∀ round, Round.Tells round device station.device (s.eventsOf (.worker round position)) := by
  obtain ⟨station, hget, earlier, later, hearlier, hlater, first, second, rfl, rfl, hshown, hshown',
    hafter⟩ := rounds_of_ended hnodup hreach hpost hdevice
  have hsafe₁ := hearlier.neverCrashes hsafe
  have hsafe₂ := hlater.neverCrashes hsafe
  refine ⟨station, hget, fun round => ?_⟩
  rw [hafter]
  cases round with
  | first =>
    rw [hshown]
    refine Round.serve_tells hsafe₁ _ fun phase hround => ?_
    exact Round.flag_serve_of_ne hsafe₂ (by rw [hround]; decide) _
  | second =>
    rw [hshown']
    exact (Round.serve_tells hsafe₂ _ fun _ _ => rfl).congr (Round.serve_serial ..)
      (Round.phase?_second_serve hsafe₁ _)

/-- What the orchestrator did without a report of a round it wrote to the log. -/
private theorem log_of_orchestrator (hreach : Reachable setting s) {deed : Deed}
    (hdeed : deed ∈ s.deeds) (hthread : deed.thread = .orchestrator)
    (hsilent : deed.isHerald = false) : ∃ record, deed.occurrence.event = .log record := by
  refine Event.exists_log (isGeneral_of_orchestrator hreach _ (mem_eventsBy hdeed hthread)) ?_
  exact Option.not_isSome_iff_eq_none.1 (Bool.eq_false_iff.1 hsilent)

/-- Outside of the rounds the orchestrator writes to the log. -/
theorem aside_of_stretch (hreach : Reachable setting s) {count : Nat} {deeds : List Deed}
    (hdeeds : ∀ deed ∈ deeds, deed ∈ s.deeds) (hstretch : Stretch count deeds)
    (hcount : ∀ round : Round, count ≠ round.heralds) :
    Trace.Aside (deeds.map Deed.occurrence) := by
  intro o ho
  obtain ⟨deed, hdeed, rfl⟩ := List.mem_map.1 ho
  have hthread := hstretch.orchestrator hcount deed hdeed
  obtain ⟨record, hlog⟩ := log_of_orchestrator hreach (hdeeds deed hdeed) hthread
    (hstretch.silent deed hdeed)
  have hauthor := (author_eq_orchestrator_iff hreach (hdeeds deed hdeed)).2 hthread
  exact ⟨record, by rw [← hlog, ← hauthor]⟩

/-- In the stretch of a round a trace says of a device what its worker did in the round. -/
theorem ofAuthor_of_stretch (hnodup : (setting.devices.map Device.serial).Nodup)
    (hreach : Reachable setting s) {round : Round} {before part behind : List Deed}
    (hdeeds : s.deeds = before ++ (part ++ behind))
    (hbefore : ∀ deed ∈ before, deed.thread.round? ≠ some round)
    (hbehind : ∀ deed ∈ behind, deed.thread.round? ≠ some round)
    (hstretch : Stretch round.heralds part) {position : Nat} {origin : Device}
    (horigin : setting.devices[position]? = some origin) :
    Trace.ofAuthor (part.map Deed.occurrence) (.worker origin.serial) =
      s.eventsOf (.worker round position) := by
  have hother : ∃ other, round ≠ other := by
    cases round with
    | first => exact ⟨.second, by decide⟩
    | second => exact ⟨.first, by decide⟩
  obtain ⟨other, hne⟩ := hother
  have hown : (part.filter (·.occurrence.author = .worker origin.serial)).map
      (·.occurrence.event) = eventsBy (.worker round position) part := by
    refine events_of_round (fun deed hdeed => ?_) hne fun deed hdeed hround => ?_
    · rw [decide_eq_true_eq]
      exact author_eq_worker_iff hnodup hreach horigin (by rw [hdeeds]; simp [hdeed])
    · exact hne (hstretch.round deed hdeed other hround).symm
  rw [ofAuthor_occurrences, hown, State.eventsOf, hdeeds, eventsBy_append, eventsBy_append,
    eventsBy_eq_nil_of_round hbefore, eventsBy_eq_nil_of_round hbehind, List.nil_append,
    List.append_nil]

/-- Whatever happens is signed by the orchestrator or by the worker of a device. -/
theorem manned_of_deed (hreach : Reachable setting s) {deed : Deed} (hdeed : deed ∈ s.deeds) :
    deed.occurrence.author = .orchestrator ∨
      ∃ device ∈ setting.devices, deed.occurrence.author = .worker device.serial := by
  have hsigns := signs_of_deed hreach deed hdeed
  generalize deed.thread = thread at hsigns
  generalize deed.occurrence.author = author at hsigns
  cases hsigns with
  | orchestrator => exact .inl rfl
  | worker horigin => exact .inr ⟨_, List.mem_of_getElem? horigin, rfl⟩

/-- What is told in the stretch of a round. -/
theorem told_of_stretch (hsafe : setting.programmer.NeverCrashes)
    (hnodup : (setting.devices.map Device.serial).Nodup) (hreach : Reachable setting s)
    (hpost : s.post = .ended) {round : Round} {before part behind : List Deed}
    (hdeeds : s.deeds = before ++ (part ++ behind))
    (hbefore : ∀ deed ∈ before, deed.thread.round? ≠ some round)
    (hbehind : ∀ deed ∈ behind, deed.thread.round? ≠ some round)
    (hstretch : Stretch round.heralds part) :
    round.Told setting.devices ((s.stations .second).map Station.device)
      (part.map Deed.occurrence) := by
  have hmem : ∀ deed ∈ part, deed ∈ s.deeds := by
    intro deed hdeed
    rw [hdeeds]
    simp [hdeed]
  have htells : List.Forall₂ (fun device after => round.Tells device after
      (Trace.ofAuthor (part.map Deed.occurrence) (.worker device.serial)))
        setting.devices ((s.stations .second).map Station.device) := by
    have hsize := (orderly_of_reachable hreach).size .second (by rw [hpost]; exact .inr rfl)
    refine List.forall₂_iff_get.2 ⟨by rw [List.length_map, hsize], ?_⟩
    intro position hlisted hleft
    have hdevice : setting.devices[position]? = some setting.devices[position] :=
      List.getElem?_eq_getElem hlisted
    obtain ⟨station, hget, htells⟩ := tells_of_ended hsafe hnodup hreach hpost hdevice
    have hstation : ((s.stations .second).map Station.device)[position] = station.device := by
      rw [List.getElem_map, (List.getElem?_eq_some_iff.1 hget).2]
    rw [List.get_eq_getElem, List.get_eq_getElem, hstation,
      ofAuthor_of_stretch hnodup hreach hdeeds hbefore hbehind hstretch hdevice]
    exact htells round
  refine Round.told_of_tells hnodup (List.forall_mem_map.2 fun deed hdeed hauthor => ?_)
    (List.forall_mem_map.2 fun deed hdeed => manned_of_deed hreach (hmem deed hdeed)) htells
    (List.forall_mem_map.2 fun deed hdeed call hcall => ?_)
  · exact log_of_orchestrator hreach (hmem deed hdeed)
      ((author_eq_orchestrator_iff hreach (hmem deed hdeed)).1 hauthor)
      (hstretch.silent deed hdeed)
  · obtain ⟨now, position, origin, hthread, horigin, hserial, _⟩ :=
      origin_of_call hreach (hmem deed hdeed) hcall
    rw [hserial]
    exact (author_eq_worker_iff hnodup hreach horigin (hmem deed hdeed)).2 ⟨now, hthread⟩

/-! ## Every run of a fleet -/

/-- The orchestrator reports both rounds, and between its reports each round is told. -/
structure Reported (devices : List Device) (run : FleetRun) : Prop where
  /-- The run does not crash. -/
  crash : run.crash = none
  /-- Each round is reported once, with the number of the devices that have work in it. -/
  rounds : Events.roundReports run.trace.events =
    [.roundStarted 1 (Round.first.count devices), .roundFinished 1,
      .roundStarted 2 (Round.second.count devices), .roundFinished 2]
  /-- What is told of the devices is told between the reports of the rounds. -/
  told : ∃ before first between second behind : Trace,
    run.trace =
      before ++ ⟨.orchestrator, .roundStarted 1 (Round.first.count devices)⟩ ::
        (first ++ ⟨.orchestrator, .roundFinished 1⟩ ::
          (between ++ ⟨.orchestrator, .roundStarted 2 (Round.second.count devices)⟩ ::
            (second ++ ⟨.orchestrator, .roundFinished 2⟩ :: behind))) ∧
    before.Aside ∧ Round.first.Told devices run.devices first ∧ between.Aside ∧
    Round.second.Told devices run.devices second ∧ behind.Aside

/-- A run that has come to its end has reported both rounds. -/
theorem reported_of_ended (hsafe : setting.programmer.NeverCrashes)
    (hnodup : (setting.devices.map Device.serial).Nodup) (hreach : Reachable setting s)
    (hpost : s.post = .ended) :
    Reported setting.devices ⟨s.trace, (s.stations .second).map Station.device, none⟩ := by
  have hreports := roundReports_of_reachable hreach
  rw [hpost, Post.reports, openingReports, earlierReports, counts_of_ended hreach hpost,
    counts_of_ended hreach hpost] at hreports
  refine ⟨rfl, hreports, ?_⟩
  obtain ⟨before, first, between, second, behind, hdeeds, hbefore, hfirst, hbetween, hsecond,
    hbehind⟩ := stretches_of_ended hreach hpost
  have hmem : (∀ deed ∈ before, deed ∈ s.deeds) ∧ (∀ deed ∈ between, deed ∈ s.deeds) ∧
      ∀ deed ∈ behind, deed ∈ s.deeds := by
    rw [hdeeds]
    refine ⟨fun deed hdeed => ?_, fun deed hdeed => ?_, fun deed hdeed => ?_⟩ <;> simp [hdeed]
  -- No worker of a round moves in front of its stretch or behind it.
  have hfirstTold : Round.first.Told setting.devices ((s.stations .second).map Station.device)
      (first.map Deed.occurrence) := by
    refine told_of_stretch hsafe hnodup hreach hpost (hdeeds.trans (List.append_cons ..))
      ?_ ?_ hfirst
    · simp only [List.forall_mem_append, List.forall_mem_singleton]
      exact ⟨hbefore.round?_ne (by decide), round?_herald_ne _ _⟩
    · simp only [List.forall_mem_append, List.forall_mem_cons]
      exact ⟨round?_herald_ne _ _, hbetween.round?_ne (by decide), round?_herald_ne _ _,
        hsecond.round?_ne (by decide), round?_herald_ne _ _, hbehind.round?_ne (by decide)⟩
  have hsecondTold : Round.second.Told setting.devices ((s.stations .second).map Station.device)
      (second.map Deed.occurrence) := by
    have hsplit : s.deeds =
        (before ++ herald (.roundStarted 1 (Round.first.count setting.devices)) ::
          (first ++ herald (.roundFinished 1) ::
            (between ++ [herald (.roundStarted 2 (Round.second.count setting.devices))]))) ++
          (second ++ herald (.roundFinished 2) :: behind) := by
      rw [hdeeds]
      simp
    refine told_of_stretch hsafe hnodup hreach hpost hsplit ?_ ?_ hsecond
    · simp only [List.forall_mem_append, List.forall_mem_cons]
      exact ⟨hbefore.round?_ne (by decide), round?_herald_ne _ _, hfirst.round?_ne (by decide),
        round?_herald_ne _ _, hbetween.round?_ne (by decide), round?_herald_ne _ _,
        List.forall_mem_nil _⟩
    · simp only [List.forall_mem_cons]
      exact ⟨round?_herald_ne _ _, hbehind.round?_ne (by decide)⟩
  have hnowhere : (∀ round : Round, 0 ≠ round.heralds) ∧ (∀ round : Round, 2 ≠ round.heralds) ∧
      ∀ round : Round, 4 ≠ round.heralds := by
    refine ⟨fun round => ?_, fun round => ?_, fun round => ?_⟩ <;> cases round <;> decide
  refine ⟨before.map Deed.occurrence, first.map Deed.occurrence, between.map Deed.occurrence,
    second.map Deed.occurrence, behind.map Deed.occurrence, ?_,
    aside_of_stretch hreach hmem.1 hbefore hnowhere.1, hfirstTold,
    aside_of_stretch hreach hmem.2.1 hbetween hnowhere.2.1, hsecondTold,
    aside_of_stretch hreach hmem.2.2 hbehind hnowhere.2.2⟩
  rw [State.trace, hdeeds]
  simp only [List.map_append, List.map_cons]
  rfl

theorem reported_of_comesTo {programmer : Programmer} {mode : Mode} {past : List Invocation}
    {devices : List Device} {run : FleetRun} (hsafe : programmer.NeverCrashes)
    (hnodup : (devices.map Device.serial).Nodup)
    (h : ComesTo (.of programmer mode past devices) run) : Reported devices run := by
  obtain ⟨s, hreach, hrun⟩ := h
  obtain ⟨hpost, rfl⟩ := outcome_of_neverCrashes hsafe hreach hrun
  exact reported_of_ended hsafe hnodup hreach hpost

/-- Whatever the programmer answers, a run reports each of its rounds once, with the devices that
have work in it, and so does whatever else its threads may come to. In whatever order they move,
they come to an end. -/
theorem fleet_reported {programmer : Programmer} {devices : List Device}
    (hsafe : programmer.NeverCrashes) (hnodup : (devices.map Device.serial).Nodup)
    (past : List Invocation) (mode : Mode) :
    Reported devices (Fleet.run programmer mode past devices) ∧
      Ends (.of programmer mode past devices) ∧
      ∀ run, ComesTo (.of programmer mode past devices) run → Reported devices run :=
  ⟨reported_of_comesTo hsafe hnodup (comesTo_run programmer mode past devices), ends _,
    fun _ => reported_of_comesTo hsafe hnodup⟩

/-! ## A fleet of which some kits fail -/

theorem fleet_reported_mixedKits :
    (Fleet.run moody (.parallel Parallel.ascending) [] mixedKits).trace.events.filter
        Event.isProgress =
      [.roundStarted 1 3, .phaseStarted 1 .net, .phaseFinished 1 .net .done,
        .phaseStarted 2 .net, .phaseFinished 2 .net .failed,
        .phaseStarted 3 .reboot, .phaseFinished 3 .reboot .done, .roundFinished 1,
        .roundStarted 2 1, .phaseStarted 1 .app, .phaseFinished 1 .app .failed,
        .roundFinished 2] ∧
      Reported mixedKits (Fleet.run moody (.parallel Parallel.ascending) [] mixedKits) :=
  ⟨by decide +kernel,
    (fleet_reported moody_neverCrashes (by decide) [] (.parallel Parallel.ascending)).1⟩

end Threads

end FlashFleet
