import FlashFleet.Proofs.Crashes
import FlashFleet.Proofs.Reports
/-!
# A crash unwinds the run

When a worker of a round crashes, the run crashes in that round: the round is not
reported as over and there is no later one. In a parallel run the other workers of
the round still end by themselves, and the crash that is raised is that of the
first device in the fleet that crashed, whatever crashed first in time. In a
sequential run the devices behind the one that crashed are not touched. A worker
that crashed leaves its device as the round found it, unless only the last reset
was missing, when the flag of the phase is recorded.

## Main results

* `raised_of_crashed` — a crash of a worker is raised at the end of the run.
* `unwound_of_raised` — how a run stands whose end is a crash.
-/

namespace FlashFleet

/-- What a worker did to its device and what it showed of it. -/
def Station.run (station : Station) (events : Events) : Phase.Run :=
  ⟨events, station.device, station.stage.crash?⟩

namespace Course

variable {programmer : Programmer} {round : Round} {past : List Invocation} {device : Device}
  {events : Events} {station : Station} (h : Course programmer round past device events station)
include h

/-- A worker that was dispatched and is not live has run its phase. -/
theorem run_of_dead (hdead : station.stage.isLive = false)
    (hqueued : station.stage.isQueued = false) {phase : Phase}
    (hphase : round.phase? device = some phase) :
    station.run events = phase.run programmer past device := by
  rcases h.of_dead hdead with ⟨_, rfl⟩ | ⟨other, hother, rfl, rfl⟩
  · rw [Station.enter_of_some hphase] at hqueued
    cases hqueued
  · rw [hphase, Option.some.injEq] at hother
    subst hother
    unfold Station.run
    cases hcrash : (phase.run programmer past device).crash with
    | none => exact congrArg (Phase.Run.mk _ _) hcrash.symm
    | some text => exact congrArg (Phase.Run.mk _ _) hcrash.symm

/-- A worker that was not dispatched has done nothing. -/
theorem of_not_dispatched (hdispatched : station.stage.wasDispatched = false) :
    events = [] ∧ station.device = device := by
  have hdead : station.stage.isLive = false := by
    by_contra hlive
    rw [Bool.not_eq_false] at hlive
    rw [Stage.wasDispatched_of_isLive hlive] at hdispatched
    cases hdispatched
  rcases h.of_dead hdead with ⟨rfl, rfl⟩ | ⟨phase, _, _, rfl⟩
  · exact ⟨rfl, Station.device_enter round device⟩
  · cases hcrash : (phase.run programmer past device).crash <;>
      (rw [hcrash] at hdispatched; cases hdispatched)

/-- Where a round has nothing for a device its worker does nothing. -/
theorem of_idle (hphase : round.phase? device = none) : events = [] ∧ station.device = device := by
  cases h with
  | waiting => exact ⟨rfl, Station.device_enter round device⟩
  | begun hother path =>
    rw [hphase] at hother
    cases hother

end Course

namespace Threads

variable {setting : Setting} {s last : State} {round : Round} {text reason : String}

/-- How a run stands whose end is a crash in a round: `first` is the place in the fleet
of the worker whose crash is raised. -/
structure Unwound (setting : Setting) (s : State) (run : FleetRun) (round : Round) (first : Nat)
    (reason : String) : Prop where
  /-- The crash is raised. -/
  raised : run.crash = some reason
  /-- The devices are left as the round left them, in their places. -/
  left : run.devices = (s.stations round).map Station.device
  size : run.devices.length = setting.devices.length
  /-- The round began with all of them. -/
  roster : (s.roster setting.devices round).length = setting.devices.length
  /-- It is the crash of the first device that crashed. -/
  blamed : (s.stations round)[first]?.map Station.stage = some (.crashed reason)
  earlier : ∀ (place : Nat) (station : Station), place < first →
    (s.stations round)[place]? = some station → station.stage.crash? = none
  /-- A crash of a worker is one of the programmer, at an invocation of the worker. -/
  answered : ∀ (place : Nat) (station : Station) (text : String),
    (s.stations round)[place]? = some station → station.stage = .crashed text →
    CrashedAt setting.programmer setting.past run.trace.events station.device.serial text
  /-- The end of the round is not reported. -/
  unfinished : .roundFinished round.number ∉ run.trace.events
  /-- There is no later round. -/
  final : ∀ later : Round, round.number < later.number → s.stations later = [] ∧
    (∀ count, .roundStarted later.number count ∉ run.trace.events) ∧
    ∀ deed ∈ s.deeds, deed.thread.round? ≠ some later
  /-- A worker that was dispatched ended by itself: all of them in a parallel run, those
  up to the one whose crash is raised in a sequential run. -/
  ended : ∀ (place : Nat) (device : Device) (station : Station) (phase : Phase),
    (s.roster setting.devices round)[place]? = some device →
    (s.stations round)[place]? = some station → round.phase? device = some phase →
    (setting.sequential = true → place ≤ first) →
    phase.Ended device (station.run (s.eventsOf (.worker round place)))
  /-- It reports the end of its phase if it did not crash. -/
  reported : ∀ (place : Nat) (device : Device) (station : Station) (phase : Phase) (flag : Flag),
    (s.roster setting.devices round)[place]? = some device →
    (s.stations round)[place]? = some station → round.phase? device = some phase →
    (.phaseFinished device.serial phase flag ∈ run.trace.events ↔
      station.stage = .finished ∧ flag = phase.flag station.device)
  /-- Devices without work are left alone, and in a sequential run those behind the one
  that crashed. -/
  untouched : ∀ (place : Nat) (device : Device) (station : Station),
    (s.roster setting.devices round)[place]? = some device →
    (s.stations round)[place]? = some station →
    (round.phase? device = none ∨ (setting.sequential = true ∧ first < place)) →
    station.device = device ∧ s.eventsOf (.worker round place) = [] ∧
    ∀ deed ∈ s.deeds, deed.thread.round? = some round → ∀ call,
      deed.occurrence.event.call? = some call → call.serial ≠ device.serial

/-- A crash of a worker is raised at the end of the run, in the round of the worker. -/
theorem raised_of_crashed (hreach : Reachable setting s) {place : Nat} {station : Station}
    (hget : (s.stations round)[place]? = some station) (hstage : station.stage = .crashed text)
    (hleads : Leads setting s last) {run : FleetRun} (hrun : last.outcome? = some run) :
    ∃ reason, last.post = .raised round reason ∧
      run = ⟨last.trace, (last.stations round).map Station.device, some reason⟩ := by
  have hstays := crashed_of_leads hreach hleads hget hstage
  have hattended := (orderly_of_reachable (hreach.trans hleads)).attended round place station hstays
  rw [hstage] at hattended
  have hattends := hattended.resolve_left Bool.false_ne_true
  cases hpost : last.post with
  | ended =>
    rw [hpost] at hattends
    exact hattends.elim
  | raised now reason =>
    rw [hpost] at hattends
    obtain ⟨rfl, _⟩ := hattends
    rw [State.outcome?, hpost] at hrun
    exact ⟨reason, rfl, (Option.some.inj hrun).symm⟩
  | _ =>
    rw [State.outcome?, hpost] at hrun
    cases hrun

/-! ## How the others stand -/

/-- A worker that is not live has reported the end of its phase if it finished, with
the flag that it left. -/
theorem reported_iff (hnodup : (setting.devices.map Device.serial).Nodup)
    (hreach : Reachable setting s) {place : Nat} {device : Device} {station : Station}
    {phase : Phase} (hdevice : (s.roster setting.devices round)[place]? = some device)
    (hget : (s.stations round)[place]? = some station)
    (hphase : round.phase? device = some phase) (hdead : station.stage.isLive = false)
    (flag : Flag) :
    .phaseFinished device.serial phase flag ∈ s.trace.events ↔
      station.stage = .finished ∧ flag = phase.flag station.device := by
  obtain ⟨other, _, hother, _, hcourse⟩ := course_of_reachable hreach hget
  rw [hdevice, Option.some.injEq] at hother
  subst hother
  rw [← hcourse.finished_iff hdead hphase]
  exact report_mem_iff hnodup hreach hdevice hphase rfl

/-- A worker without events has made no invocation, and nobody else makes one for its
device in the round. -/
theorem silent_of_eventsOf (hnodup : (setting.devices.map Device.serial).Nodup)
    (hreach : Reachable setting s) {place : Nat} {device : Device}
    (hdevice : (s.roster setting.devices round)[place]? = some device)
    (hnil : s.eventsOf (.worker round place) = []) :
    ∀ deed ∈ s.deeds, deed.thread.round? = some round → ∀ call,
      deed.occurrence.event.call? = some call → call.serial ≠ device.serial := by
  intro deed hdeed hround call hcall hserial
  obtain ⟨origin, horigin, hsame, _⟩ := origin_of_roster hreach hdevice
  obtain ⟨now, position, source, hthread, hsource, hown, _⟩ := origin_of_call hreach hdeed hcall
  obtain rfl := position_of_serial hnodup hsource horigin
    (hown.symm.trans (hserial.trans hsame))
  rw [hthread] at hround
  cases hround
  have hevent := mem_eventsBy hdeed hthread
  change _ ∈ s.eventsOf (.worker round position) at hevent
  rw [hnil] at hevent
  cases hevent

/-- After the crash of a round no later round has begun. -/
theorem final_of_raised (hreach : Reachable setting s) (hpost : s.post = .raised round reason)
    {later : Round} (hlater : round.number < later.number) :
    s.stations later = [] ∧ (∀ count, .roundStarted later.number count ∉ s.trace.events) ∧
      ∀ deed ∈ s.deeds, deed.thread.round? ≠ some later := by
  have horderly := orderly_of_reachable hreach
  have hround : s.post.round = round := by
    rw [hpost]
    rfl
  cases later with
  | first => cases round <;> simp [Round.number] at hlater
  | second =>
    cases round with
    | second => exact absurd hlater (Nat.lt_irrefl _)
    | first =>
      have hapart := horderly.apart
      rw [hround] at hapart
      refine ⟨horderly.second_eq_nil hround, fun count hreport => ?_, hapart⟩
      rw [← Events.mem_roundReports rfl, roundReports_of_reachable hreach, hpost] at hreport
      simp [Post.reports, Post.round, openingReports, earlierReports, Round.number] at hreport

/-- The end of a round that crashed is not reported. -/
theorem unfinished_of_raised (hreach : Reachable setting s)
    (hpost : s.post = .raised round reason) :
    .roundFinished round.number ∉ s.trace.events := by
  intro hreport
  rw [← Events.mem_roundReports rfl, roundReports_of_reachable hreach, hpost] at hreport
  cases round <;>
    simp [Post.reports, Post.round, openingReports, earlierReports, Round.number] at hreport

/-- When a crash is raised no worker of the round is live. -/
theorem dead_of_raised (hreach : Reachable setting s) (hpost : s.post = .raised round reason)
    {place : Nat} {station : Station} (hget : (s.stations round)[place]? = some station) :
    station.stage.isLive = false := by
  rcases (orderly_of_reachable hreach).attended round place station hget with hrest | hattends
  · exact Stage.isLive_of_atRest hrest
  · rw [hpost] at hattends
    exact hattends.2

/-- The round whose crash is raised has a station for each device, and so had the round
before. -/
theorem length_stations_of_raised (hreach : Reachable setting s)
    (hpost : s.post = .raised round reason) {now : Round} (hnow : now = .first ∨ now = round) :
    (s.stations now).length = setting.devices.length := by
  apply (orderly_of_reachable hreach).size
  rw [hpost]
  rcases hnow with rfl | rfl
  · exact .inl rfl
  · cases now
    · exact .inl rfl
    · exact .inr rfl

/-- How a run stands whose end is a crash. -/
theorem unwound_of_raised (hnodup : (setting.devices.map Device.serial).Nodup)
    (hreach : Reachable setting s) (hpost : s.post = .raised round reason) :
    ∃ first, Unwound setting s
      ⟨s.trace, (s.stations round).map Station.device, some reason⟩ round first reason := by
  obtain ⟨first, crashed, hcrashed, hstage, hearlier, hbehind, hall⟩ :=
    blamed_of_raised hreach hpost
  have hsize := length_stations_of_raised hreach hpost (.inr rfl)
  have hroster : (s.roster setting.devices round).length = setting.devices.length := by
    cases round with
    | first => rfl
    | second =>
      rw [State.roster, List.length_map]
      exact length_stations_of_raised hreach hpost (.inl rfl)
  refine ⟨first,
    { raised := rfl
      left := rfl
      size := by rw [List.length_map, hsize]
      roster := hroster
      blamed := by rw [hcrashed, Option.map_some, hstage]
      earlier := fun place station hlt hget =>
        Stage.crash?_of_atRest (hearlier place station hlt hget)
      answered := fun place station text hget hstage =>
        crashedAt_of_reachable hnodup hreach hget hstage
      unfinished := unfinished_of_raised hreach hpost
      final := fun later hlater => final_of_raised hreach hpost hlater
      ended := ?_
      reported := fun place device station phase flag hdevice hget hphase =>
        reported_iff hnodup hreach hdevice hget hphase (dead_of_raised hreach hpost hget) flag
      untouched := ?_ }⟩
  · intro place device station phase hdevice hget hphase hdispatched
    have hqueued : station.stage.isQueued = false := by
      cases hmode : setting.sequential with
      | false => exact hall hmode station (List.mem_of_getElem? hget)
      | true =>
        rcases Nat.lt_or_eq_of_le (hdispatched hmode) with hlt | rfl
        · exact Stage.isQueued_of_atRest (hearlier place station hlt hget)
        · rw [hcrashed, Option.some.injEq] at hget
          rw [← hget, hstage]
          rfl
    obtain ⟨other, _, hother, _, hcourse⟩ := course_of_reachable hreach hget
    rw [hdevice, Option.some.injEq] at hother
    subst hother
    rw [hcourse.run_of_dead (dead_of_raised hreach hpost hget) hqueued hphase]
    exact Phase.run_ended (Round.possible_of_phase? hphase) _ _
  · intro place device station hdevice hget hidle
    obtain ⟨other, _, hother, _, hcourse⟩ := course_of_reachable hreach hget
    rw [hdevice, Option.some.injEq] at hother
    subst hother
    obtain ⟨hnil, hsame⟩ : s.eventsOf (.worker round place) = [] ∧ station.device = device := by
      rcases hidle with hphase | ⟨hmode, hlt⟩
      · exact hcourse.of_idle hphase
      · exact hcourse.of_not_dispatched (hbehind hmode place station hlt hget)
    exact ⟨hsame, hnil, silent_of_eventsOf hnodup hreach hdevice hnil⟩

/-! ## Every run that crashes -/

variable {devices : List Device}

/-- A crash of a worker, at any time and in whatever order the threads move, is raised
at the end of the run, in the round of the worker. The run over a fleet is one of these
runs, and all of them come to an end. -/
theorem fleet_unwinds (hnodup : (devices.map Device.serial).Nodup) (programmer : Programmer)
    (mode : Mode) (past : List Invocation) :
    ComesTo (.of programmer mode past devices) (Fleet.run programmer mode past devices) ∧
      Ends (.of programmer mode past devices) ∧
      ∀ (s last : State) (run : FleetRun) (round : Round) (place : Nat) (station : Station)
        (text : String), Reachable (.of programmer mode past devices) s →
        (s.stations round)[place]? = some station → station.stage = .crashed text →
        Leads (.of programmer mode past devices) s last → last.outcome? = some run →
        ∃ first reason,
          Unwound (.of programmer mode past devices) last run round first reason := by
  refine ⟨comesTo_run programmer mode past devices, ends _, ?_⟩
  intro s last run round place station text hreach hget hstage hleads hrun
  obtain ⟨reason, hpost, rfl⟩ := raised_of_crashed hreach hget hstage hleads hrun
  obtain ⟨first, hunwound⟩ := unwound_of_raised hnodup (hreach.trans hleads) hpost
  exact ⟨first, reason, hunwound⟩

/-! ## Three gateways -/

/-- A programmer that crashes at all that is asked of the second probe, and at the reset
of the third. -/
def fragile : Programmer where
  respond _ call :=
    if call = .reset 3 then { outcome := .crashed "third" }
    else if call.serial = 2 then { outcome := .crashed "second" }
    else {}

/-- Three gateways with an image for the network core. -/
def threeGateways : List Device :=
  [{ serial := 1, kind := .gateway, netFile := some "n" },
    { serial := 2, kind := .gateway, netFile := some "n" },
    { serial := 3, kind := .gateway, netFile := some "n" }]

/-- All are dispatched, and the last goes on until it crashes. -/
def lastCrashing : List Thread :=
  List.replicate 4 .orchestrator ++ List.replicate 7 (.worker .first 2)

/-- The others follow, and the orchestrator joins them all. -/
def othersFollowing : List Thread :=
  List.replicate 4 (.worker .first 1) ++ List.replicate 8 (.worker .first 0) ++
    List.replicate 4 .orchestrator

/-- The third crashes first, with its flag recorded. The crash that is raised is that of
the second, and the first has done its work. -/
theorem fleet_unwinds_threeGateways :
    ∃ s last run first reason,
      Reachable (.of fragile (.parallel Parallel.ascending) [] threeGateways) s ∧
      (s.stations .first).map (·.stage.crash?) = [none, none, some "third"] ∧
      last.outcome? = some run ∧ run.crash = some "second" ∧
      run.devices.map Device.netProgrammed = [.done, .notSelected, .done] ∧
      Unwound (.of fragile (.parallel Parallel.ascending) [] threeGateways) last run .first first
        reason := by
  let setting := Setting.of fragile (.parallel Parallel.ascending) [] threeGateways
  have hplayed : (play? setting .start lastCrashing).map
      (fun s => (s.stations .first).map (·.stage.crash?)) = some [none, none, some "third"] := by
    decide +kernel
  have hfollowed : ((play? setting .start lastCrashing).bind fun s =>
      (play? setting s othersFollowing).bind State.outcome?).map
        (fun run => (run.crash, run.devices.map Device.netProgrammed)) =
      some (some "second", [.done, .notSelected, .done]) := by
    decide +kernel
  obtain ⟨s, hs, hcrashes⟩ := Option.map_eq_some_iff.1 hplayed
  obtain ⟨run, hrun, hend⟩ := Option.map_eq_some_iff.1 hfollowed
  rw [hs, Option.bind_some] at hrun
  obtain ⟨last, hlast, houtcome⟩ := Option.bind_eq_some_iff.1 hrun
  obtain ⟨hcrash, hflags⟩ := Prod.mk.inj hend
  obtain ⟨station, hget, hstage⟩ : ∃ station, (s.stations .first)[2]? = some station ∧
      station.stage.crash? = some "third" := by
    have hthird := congrArg (fun list => list[2]?) hcrashes
    rw [List.getElem?_map] at hthird
    exact Option.map_eq_some_iff.1 hthird
  have hcrashed : station.stage = .crashed "third" := by
    cases hat : station.stage with
    | crashed text =>
      rw [hat] at hstage
      exact congrArg Stage.crashed (Option.some.inj hstage)
    | _ =>
      rw [hat] at hstage
      cases hstage
  have hreach : Reachable setting s := leads_of_play? hs
  obtain ⟨first, reason, hunwound⟩ :=
    (fleet_unwinds (by decide) fragile (.parallel Parallel.ascending) []).2.2 s last run .first 2
      station "third" hreach hget hcrashed (leads_of_play? hlast) houtcome
  exact ⟨s, last, run, first, reason, hreach, hcrashes, houtcome, hcrash, hflags, hunwound⟩

end Threads

end FlashFleet
