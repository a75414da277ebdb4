import FlashFleet.Proofs.Attendance
/-!
# The course of a worker among others

Others move between two steps of a worker, and what the programmer answers may
depend on what they asked it for. Still what a worker did is the path of a
worker let alone, if it is asked by another programmer: one that at each step
gives the answer that was given in the run. Its answers are all answers of the
programmer, so that it never crashes if the programmer never does, and if the
programmer answers each probe by itself, so that the others are not seen, it
answers this probe as the programmer does.

## Main results

* `conducted_of_reachable` — whatever the order in which the threads move, what
  each worker did is a path of its own.
* `Course.of_atRest` — the worker of a device that is at rest has run its phase, or
  had none to run.
-/

namespace FlashFleet

/-! ## Answers of a programmer -/

namespace Programmer

/-- Every answer of a programmer is one that another gives, maybe after other
invocations, but such that the worker that asks cannot tell them apart. -/
def Echoes (other programmer : Programmer)
    (alike : List Invocation → List Invocation → Prop) : Prop :=
  ∀ own call, ∃ past, alike own past ∧ other.respond own call = programmer.respond past call

/-- The programmer with the answers after the invocations `own` replaced by those
that another gives after `past`. -/
def patched (other programmer : Programmer) (own past : List Invocation) : Programmer where
  respond now call := if now = own then programmer.respond past call else other.respond now call

theorem respond_patched_self (other programmer : Programmer) (own past : List Invocation)
    (call : Invocation) :
    (other.patched programmer own past).respond own call = programmer.respond past call :=
  if_pos rfl

theorem respond_patched_of_length_lt (other programmer : Programmer) {own now : List Invocation}
    (past : List Invocation) (h : now.length < own.length) (call : Invocation) :
    (other.patched programmer own past).respond now call = other.respond now call := by
  apply if_neg
  rintro rfl
  exact Nat.lt_irrefl _ h

variable {other programmer : Programmer} {alike : List Invocation → List Invocation → Prop}

theorem Echoes.self (hrefl : ∀ past, alike past past) : programmer.Echoes programmer alike :=
  fun own _ => ⟨own, hrefl own, rfl⟩

theorem Echoes.patched (h : other.Echoes programmer alike) {own past : List Invocation}
    (halike : alike own past) : (other.patched programmer own past).Echoes programmer alike := by
  intro now call
  by_cases heq : now = own
  · subst heq
    exact ⟨past, halike, respond_patched_self ..⟩
  · obtain ⟨before, hbefore, hanswer⟩ := h now call
    exact ⟨before, hbefore, (if_neg heq).trans hanswer⟩

/-- What echoes a programmer that never crashes never crashes. -/
theorem Echoes.neverCrashes (h : other.Echoes programmer alike)
    (hsafe : programmer.NeverCrashes) : other.NeverCrashes := by
  intro own call text
  obtain ⟨past, _, hanswer⟩ := h own call
  rw [hanswer]
  exact hsafe past call text

end Programmer

/-! ## The course of a worker -/

/-- What the worker of a device may come to in a round: it has no work or waits
for its dispatch, or it is on a path of its phase. -/
inductive Course (programmer : Programmer) (round : Round) (past : List Invocation)
    (device : Device) : Events → Station → Prop where
  | waiting : Course programmer round past device [] (.enter round device)
  | begun {phase : Phase} {events : Events} {station : Station}
      (hphase : round.phase? device = some phase)
      (path : Station.Path programmer past ⟨device, .dispatched phase⟩ events station) :
      Course programmer round past device events station

/-- The worker of a device was led to where it is by answers of the programmer. -/
def Led (programmer : Programmer) (alike : List Invocation → List Invocation → Prop)
    (round : Round) (past : List Invocation) (device : Device) (events : Events)
    (station : Station) : Prop :=
  ∃ other : Programmer,
    other.Echoes programmer alike ∧ Course other round past device events station

namespace Course

variable {programmer : Programmer} {round : Round} {past : List Invocation} {device : Device}
  {events : Events} {station : Station}

/-- A worker keeps its probe. -/
theorem serial (h : Course programmer round past device events station) :
    station.device.serial = device.serial := by
  cases h with
  | waiting => rw [Station.device_enter]
  | begun hphase path => exact path.faithful.serial

/-- A worker leaves its device as it is, but for the flag of its phase. -/
theorem device_eq (h : Course programmer round past device events station) :
    station.device = device ∨
      ∃ (phase : Phase) (flag : Flag), round.phase? device = some phase ∧ flag.IsVerdict ∧
        station.device = phase.record flag device := by
  cases h with
  | waiting => exact .inl (Station.device_enter ..)
  | begun hphase path =>
    rcases path.faithful.device_eq with hdevice | ⟨flag, hflag, hdevice⟩
    · exact .inl hdevice
    · exact .inr ⟨_, flag, hphase, hflag, hdevice⟩

/-- A worker that waits for its dispatch has done nothing. -/
theorem of_queued (h : Course programmer round past device events station) {phase : Phase}
    (hstage : station.stage = .queued phase) :
    events = [] ∧ round.phase? device = some phase ∧ station.device = device := by
  cases h with
  | waiting =>
    cases hphase : round.phase? device with
    | none => simp [Station.enter_of_none hphase] at hstage
    | some other =>
      simp only [Station.enter_of_some hphase, Stage.queued.injEq] at hstage
      exact ⟨rfl, congrArg some hstage, Station.device_enter ..⟩
  | begun hphase path =>
    have hfaithful := path.faithful
    unfold Station.Faithful at hfaithful
    rw [hstage] at hfaithful
    exact hfaithful.elim

/-- A live worker is on a path of its phase. -/
theorem of_live (h : Course programmer round past device events station)
    (hlive : station.stage.isLive = true) :
    ∃ phase, round.phase? device = some phase ∧
      Station.Path programmer past ⟨device, .dispatched phase⟩ events station := by
  cases h with
  | waiting =>
    cases hphase : round.phase? device with
    | none =>
      rw [Station.enter_of_none hphase] at hlive
      cases hlive
    | some phase =>
      rw [Station.enter_of_some hphase] at hlive
      cases hlive
  | begun hphase path => exact ⟨_, hphase, path⟩

/-- What a worker does in a round are invocations of its phase. -/
theorem makes (h : Course programmer round past device events station) {event : Event}
    (hevent : event ∈ events) {call : Invocation} (hcall : event.call? = some call) :
    ∃ phase, round.phase? device = some phase ∧ phase.Makes device call := by
  cases h with
  | waiting => cases hevent
  | begun hphase path => exact ⟨_, hphase, path.makes hevent hcall⟩

/-- The invocation under way is one of the worker's own probe. -/
theorem serial_inFlight (h : Course programmer round past device events station)
    {call : Invocation} (hflight : station.stage.inFlight? = some call) :
    station.stage.isLive = true ∧ call.serial = station.device.serial := by
  have hlive : station.stage.isLive = true := by
    cases hstage : station.stage <;> simp [hstage, Stage.inFlight?, Stage.isLive] at hflight ⊢
  obtain ⟨phase, _, path⟩ := h.of_live hlive
  exact ⟨hlive, (path.faithful.makes_inFlight hflight).serial.trans h.serial.symm⟩

/-- What a step shows is of the worker's own probe. -/
theorem serial_of_mem_step (h : Course programmer round past device events station)
    (hlive : station.stage.isLive = true) {asked : Programmer} {now : List Invocation}
    {event : Event} (hevent : event ∈ (station.step asked now).1) {call : Invocation}
    (hcall : event.call? = some call) : call.serial = station.device.serial := by
  obtain ⟨phase, _, path⟩ := h.of_live hlive
  exact (path.faithful.call_of_mem_step hevent hcall).serial.trans h.serial.symm

/-- A worker that is not live has not begun, or has run its phase. -/
theorem of_dead (h : Course programmer round past device events station)
    (hdead : station.stage.isLive = false) :
    (events = [] ∧ station = .enter round device) ∨
      ∃ phase, round.phase? device = some phase ∧
        events = (phase.run programmer past device).events ∧
        station = ⟨(phase.run programmer past device).device,
          .over (phase.run programmer past device).crash⟩ := by
  cases h with
  | waiting => exact .inl ⟨rfl, rfl⟩
  | @begun phase _ _ hphase path =>
    right
    have hrun := path.solo
    rw [Station.solo_dispatched, Station.solo_of_rest hdead] at hrun
    simp only [Station.behind, List.append_nil, Prod.mk.injEq] at hrun
    obtain ⟨hevents, hstation⟩ := hrun
    exact ⟨phase, hphase, hevents.symm, hstation.symm⟩

/-- At its end a worker has run its phase, or there was none to run. -/
theorem of_atRest (h : Course programmer round past device events station)
    (hrest : station.stage.atRest = true) :
    (round.phase? device = none ∧ events = [] ∧ station = ⟨device, .idle⟩) ∨
      ∃ phase, round.phase? device = some phase ∧
        events = (phase.run programmer past device).events ∧
        station = ⟨(phase.run programmer past device).device, .finished⟩ := by
  rcases h.of_dead (Stage.isLive_of_atRest hrest) with ⟨rfl, rfl⟩ | ⟨phase, hphase, rfl, rfl⟩
  · cases hphase : round.phase? device with
    | none => exact .inl ⟨rfl, rfl, Station.enter_of_none hphase⟩
    | some phase =>
      rw [Station.enter_of_some hphase] at hrest
      cases hrest
  · refine .inr ⟨phase, hphase, rfl, ?_⟩
    cases hcrash : (phase.run programmer past device).crash with
    | none => rfl
    | some text =>
      rw [hcrash] at hrest
      cases hrest

/-- What a worker shows are exchanges, and at most one invocation that has not
come to its end. -/
theorem exchanges (h : Course programmer round past device events station) :
    ∃ exchanges opened,
      Events.calls events = shown exchanges ++ opened.toList.map .began ∧
      (station.stage.crash? = none → opened = station.stage.inFlight?) := by
  cases h with
  | waiting =>
    refine ⟨[], none, rfl, fun _ => ?_⟩
    unfold Station.enter
    split <;> rfl
  | begun hphase path => exact path.exchanges rfl

/-- At its end a worker has brought all its invocations to their end. -/
theorem ended (h : Course programmer round past device events station)
    (hrest : station.stage.atRest = true) :
    ∃ exchanges, Events.calls events = shown exchanges := by
  obtain ⟨exchanges, opened, hcalls, hopened⟩ := h.exchanges
  have hnone : opened = none := by
    cases hstage : station.stage with
    | idle =>
      rw [hstage] at hopened
      exact hopened rfl
    | finished =>
      rw [hstage] at hopened
      exact hopened rfl
    | _ => simp [hstage, Stage.atRest] at hrest
  refine ⟨exchanges, ?_⟩
  rw [hcalls, hnone]
  exact List.append_nil _

/-- At its end a worker has recorded what came of its phase. -/
theorem recorded (h : Course programmer round past device events station)
    (hrest : station.stage.atRest = true) {phase : Phase}
    (hphase : round.phase? device = some phase) :
    ∃ flag : Flag, flag.IsVerdict ∧ station.device = phase.record flag device := by
  cases h with
  | waiting =>
    rw [Station.enter_of_some hphase] at hrest
    cases hrest
  | @begun other _ _ hother path =>
    rw [hphase, Option.some.injEq] at hother
    subst hother
    have hfaithful := path.faithful
    unfold Station.Faithful at hfaithful
    cases hstage : station.stage with
    | idle =>
      rw [hstage] at hfaithful
      exact hfaithful.elim
    | finished =>
      rw [hstage] at hfaithful
      exact hfaithful
    | _ => simp [hstage, Stage.atRest] at hrest

end Course

namespace Led

variable {programmer : Programmer} {alike : List Invocation → List Invocation → Prop}
  {round : Round} {past : List Invocation} {device : Device} {events : Events} {station : Station}

theorem enter (hrefl : ∀ past, alike past past) (round : Round) (past : List Invocation)
    (device : Device) : Led programmer alike round past device [] (.enter round device) :=
  ⟨programmer, .self hrefl, .waiting⟩

theorem dispatch (h : Led programmer alike round past device events station) {phase : Phase}
    (hstage : station.stage = .queued phase) :
    Led programmer alike round past device events (station.moveTo (.dispatched phase)) := by
  obtain ⟨other, hechoes, hcourse⟩ := h
  obtain ⟨rfl, hphase, rfl⟩ := hcourse.of_queued hstage
  exact ⟨other, hechoes, .begun hphase .here⟩

/-- A worker that is asked after the invocations of all is led on if it cannot
tell them from its own. -/
theorem step (h : Led programmer alike round past device events station)
    (hlive : station.stage.isLive = true) {now : List Invocation}
    (halike : alike (past ++ Events.invocations events) now) :
    Led programmer alike round past device (events ++ (station.step programmer now).1)
      (station.step programmer now).2 := by
  obtain ⟨other, hechoes, hcourse⟩ := h
  obtain ⟨phase, hphase, path⟩ := hcourse.of_live hlive
  let own := past ++ Events.invocations events
  let asked := other.patched programmer own now
  -- Before this step fewer invocations were made, so the patch is not seen there.
  have hpath : Station.Path asked past ⟨device, .dispatched phase⟩ events station :=
    path.congr fun before call hlt =>
      (Programmer.respond_patched_of_length_lt other programmer now hlt call).symm
  have hstep : station.step programmer now = station.step asked own :=
    Station.step_congr fun call _ => (Programmer.respond_patched_self ..).symm
  refine ⟨asked, hechoes.patched halike, ?_⟩
  rw [hstep]
  exact .begun hphase (.step hpath hlive)

end Led

namespace Threads

/-! ## The frame of a step -/

/-- What one thread does is not done by another. -/
theorem eventsOf_of_step {setting : Setting} {s next : State} {thread other : Thread}
    (hstep : Step setting s thread next) (hne : other ≠ thread) :
    next.eventsOf other = s.eventsOf other := by
  obtain ⟨author, events, hdeeds, _⟩ := deeds_of_step hstep
  exact State.eventsOf_of_ne hne hdeeds

/-- A worker without a station has done nothing. -/
theorem Orderly.eventsOf_eq_nil {setting : Setting} {s : State} (h : Orderly setting s)
    {round : Round} {position : Nat} (hsize : (s.stations round).length ≤ position) :
    s.eventsOf (.worker round position) = [] := by
  apply eventsBy_eq_nil
  intro deed hdeed hthread
  have hlt := h.staffed deed hdeed round position hthread
  omega

theorem State.roster_congr {s next : State} (devices : List Device) (round : Round)
    (h : (next.stations .first).map Station.device = (s.stations .first).map Station.device) :
    next.roster devices round = s.roster devices round := by
  cases round with
  | first => rfl
  | second => exact h

/-! ## The invariant -/

/-- The invocations that concern a device before its worker in a round begins:
those before the run and, in the second round, those of its worker in the
first. -/
def State.known (s : State) (past : List Invocation) (round : Round) (position : Nat) :
    List Invocation :=
  match round with
  | .first => past
  | .second => past ++ Events.invocations (s.eventsOf (.worker .first position))

/-- A worker was led to where it is by answers of the programmer. -/
def Conducted (setting : Setting) (alike : Serial → List Invocation → List Invocation → Prop)
    (s : State) (round : Round) (position : Nat) (station : Station) : Prop :=
  ∃ device, (s.roster setting.devices round)[position]? = some device ∧
    Led setting.programmer (alike device.serial) round (s.known setting.past round position)
      device (s.eventsOf (.worker round position)) station

variable {setting : Setting} {alike : Serial → List Invocation → List Invocation → Prop}

/-- What others do does not concern a worker. -/
private theorem Conducted.frame {s next : State} {round : Round} {position : Nat}
    {station : Station} (h : Conducted setting alike s round position station)
    (hroster : next.roster setting.devices round = s.roster setting.devices round)
    (hevents : ∀ other, (other = round ∨ other = .first) →
      next.eventsOf (.worker other position) = s.eventsOf (.worker other position)) :
    Conducted setting alike next round position station := by
  obtain ⟨device, hdevice, hled⟩ := h
  have hknown : next.known setting.past round position = s.known setting.past round position := by
    cases round with
    | first => rfl
    | second => simp only [State.known, hevents .first (.inr rfl)]
  refine ⟨device, by rw [hroster]; exact hdevice, ?_⟩
  rw [hknown, hevents round (.inl rfl)]
  exact hled

/-- Stations that the orchestrator did not touch. -/
private theorem Conducted.of_orchestrator {s next : State} {round : Round} {position : Nat}
    {station : Station} (h : Conducted setting alike s round position station)
    (hstep : Step setting s .orchestrator next)
    (hroster : next.roster setting.devices round = s.roster setting.devices round) :
    Conducted setting alike next round position station := by
  apply h.frame hroster
  intro other _
  exact eventsOf_of_step hstep (by simp)

private theorem Conducted.openRound (hrefl : ∀ serial past, alike serial past past) {s : State}
    (horderly : Orderly setting s) {now : Round} (hpost : s.post = .opening now)
    (h : ∀ round position station, (s.stations round)[position]? = some station →
      Conducted setting alike s round position station)
    {round : Round} {position : Nat} {station : Station}
    (hget : ((s.openRound setting.devices now).stations round)[position]? = some station) :
    Conducted setting alike (s.openRound setting.devices now) round position station := by
  have hstep : Step setting s .orchestrator (s.openRound setting.devices now) := .opening hpost
  have hunopened : ∀ other, ¬ (Post.opening now).Opened other → s.stations other = [] := by
    intro other hnot
    apply horderly.unopened
    rw [hpost]
    exact hnot
  have hroster : ∀ other, other = now ∨ other = .first →
      (s.openRound setting.devices now).roster setting.devices other =
        s.roster setting.devices other := by
    intro other hother
    cases other with
    | first => rfl
    | second =>
      have hnow : now = .second := by
        rcases hother with rfl | hother
        · rfl
        · cases hother
      apply State.roster_congr
      rw [State.stations_openRound_of_ne s setting.devices]
      rw [hnow]
      decide
  by_cases heq : round = now
  · subst heq
    rw [State.stations_openRound_self, List.getElem?_map, Option.map_eq_some_iff] at hget
    obtain ⟨device, hdevice, rfl⟩ := hget
    have hnil : s.stations round = [] := by
      apply hunopened
      rintro ⟨hsecond, hfirst⟩
      rw [hfirst] at hsecond
      cases hsecond
    have hevents : (s.openRound setting.devices round).eventsOf (.worker round position) = [] := by
      rw [eventsOf_of_step hstep (by simp)]
      apply horderly.eventsOf_eq_nil
      rw [hnil]
      exact Nat.zero_le position
    refine ⟨device, by rw [hroster round (.inl rfl)]; exact hdevice, ?_⟩
    rw [hevents]
    exact .enter (hrefl device.serial) round _ device
  · rw [State.stations_openRound_of_ne s setting.devices heq] at hget
    cases round with
    | first => exact (h _ _ _ hget).of_orchestrator hstep (hroster .first (.inr rfl))
    | second =>
      rw [hunopened .second (by rintro ⟨_, hfirst⟩; cases hfirst)] at hget
      simp at hget

private theorem Conducted.dispatch {s : State} {now : Round} {handles : List Nat} {place : Nat}
    {found : Station} {phase : Phase} (hpost : s.post = .dispatching now handles)
    (hfound : (s.stations now)[place]? = some found) (hstage : found.stage = .queued phase)
    (hfirst : ∀ earlier ∈ (s.stations now).take place, earlier.stage.isQueued = false)
    (h : ∀ round position station, (s.stations round)[position]? = some station →
      Conducted setting alike s round position station)
    {round : Round} {position : Nat} {station : Station}
    (hget : ((s.dispatch setting.sequential now handles place found phase).stations
      round)[position]? = some station) :
    Conducted setting alike (s.dispatch setting.sequential now handles place found phase) round
      position station := by
  have hstep : Step setting s .orchestrator
      (s.dispatch setting.sequential now handles place found phase) :=
    .dispatching hpost hfound hstage hfirst
  have hroster : (s.dispatch setting.sequential now handles place found phase).roster
      setting.devices round = s.roster setting.devices round := by
    apply State.roster_congr
    cases now with
    | first =>
      rw [State.stations_dispatch_self, List.map_set]
      apply List.ext_getElem?
      intro index
      by_cases hindex : place = index
      · subst hindex
        simp only [List.getElem?_map, List.getElem?_set, if_true, List.length_map, hfound]
        rw [if_pos (List.getElem?_eq_some_iff.1 hfound).1]
        rfl
      · rw [List.getElem?_set_ne hindex]
    | second => rw [State.stations_dispatch_of_ne _ _ _ _ _ _ (by decide)]
  by_cases heq : round = now ∧ position = place
  · obtain ⟨rfl, rfl⟩ := heq
    rw [State.getElem?_dispatch_self hfound, Option.some.injEq] at hget
    obtain ⟨device, hdevice, hled⟩ := h _ _ _ hfound
    have hmoved : Conducted setting alike s round position
        (found.moveTo (.dispatched phase)) := ⟨device, hdevice, hled.dispatch hstage⟩
    rw [← hget]
    exact hmoved.of_orchestrator hstep hroster
  · rw [State.getElem?_dispatch_of_ne _ _ _ _ _ heq] at hget
    exact (h _ _ _ hget).of_orchestrator hstep hroster

private theorem Conducted.work {s : State} (horderly : Orderly setting s) {now : Round}
    {place : Nat} {found : Station} (hfound : (s.stations now)[place]? = some found)
    (hlive : found.stage.isLive = true)
    (halike : alike found.device.serial
      (s.known setting.past now place ++ Events.invocations (s.eventsOf (.worker now place)))
      (setting.past ++ s.trace.invocations))
    (h : ∀ round position station, (s.stations round)[position]? = some station →
      Conducted setting alike s round position station)
    {round : Round} {position : Nat} {station : Station}
    (hget : ((s.work setting now place found).stations round)[position]? = some station) :
    Conducted setting alike (s.work setting now place found) round position station := by
  have hstep : Step setting s (.worker now place) (s.work setting now place found) :=
    .working hfound hlive
  have hround := (horderly.round_of_live hfound hlive).1
  -- While the first round has a live worker there is no station in the second.
  have hsecond : round = .second → now = .second := by
    rintro rfl
    cases now with
    | second => rfl
    | first =>
      rw [State.stations_work_of_ne _ _ _ _ (by decide),
        horderly.second_eq_nil hround.symm] at hget
      simp at hget
  have hroster : (s.work setting now place found).roster setting.devices round =
      s.roster setting.devices round := by
    cases round with
    | first => rfl
    | second =>
      apply State.roster_congr
      rw [State.stations_work_of_ne]
      rw [hsecond rfl]
      decide
  have hevents : ∀ other, (other = round ∨ other = .first) → ¬ (other = now ∧ position = place) →
      (s.work setting now place found).eventsOf (.worker other position) =
        s.eventsOf (.worker other position) := by
    intro other _ hne
    apply eventsOf_of_step hstep
    simpa using hne
  by_cases heq : round = now ∧ position = place
  · obtain ⟨rfl, rfl⟩ := heq
    rw [State.getElem?_work_self hfound, Option.some.injEq] at hget
    obtain ⟨device, hdevice, hled⟩ := h _ _ _ hfound
    have hserial : found.device.serial = device.serial := by
      obtain ⟨_, _, hcourse⟩ := hled
      exact hcourse.serial
    have hknown : (s.work setting round position found).known setting.past round position =
        s.known setting.past round position := by
      cases round with
      | first => rfl
      | second =>
        simp only [State.known]
        rw [hevents .first (.inr rfl) (by simp)]
    rw [hserial] at halike
    have hled' := hled.step hlive halike
    rw [hget] at hled'
    refine ⟨device, by rw [hroster]; exact hdevice, ?_⟩
    rw [hknown, State.eventsOf_self (State.deeds_work s setting round position found)]
    exact hled'
  · rw [State.getElem?_work_of_ne _ _ _ heq] at hget
    apply (h _ _ _ hget).frame hroster
    intro other hother
    apply hevents other hother
    rintro ⟨rfl, rfl⟩
    rcases hother with rfl | rfl
    · exact heq ⟨rfl, rfl⟩
    · cases round with
      | first => exact heq ⟨rfl, rfl⟩
      | second => exact absurd (hsecond rfl) (by decide)

/-- Whatever the order in which the threads move, what each worker did is a path
of its own, along which it is given answers of the programmer. -/
theorem conducted_of_reachable (hrefl : ∀ serial past, alike serial past past)
    (halike : ∀ s, Reachable setting s → ∀ round position station,
      (s.stations round)[position]? = some station → station.stage.isLive = true →
      alike station.device.serial
        (s.known setting.past round position ++
          Events.invocations (s.eventsOf (.worker round position)))
        (setting.past ++ s.trace.invocations))
    {s : State} (hreach : Reachable setting s) (round : Round) (position : Nat)
    (station : Station) (hget : (s.stations round)[position]? = some station) :
    Conducted setting alike s round position station := by
  induction hreach generalizing round position station with
  | refl => cases round <;> simp [State.start, State.stations] at hget
  | @tail s next hbefore hstep ih =>
    obtain ⟨thread, hstep⟩ := hstep
    have horderly := orderly_of_reachable hbefore
    cases hstep with
    | opening hpost => exact .openRound hrefl horderly hpost ih hget
    | dispatching hpost hfound hstage hfirst => exact .dispatch hpost hfound hstage hfirst ih hget
    | working hfound hlive =>
      exact .work horderly hfound hlive (halike _ hbefore _ _ _ hfound hlive) ih hget
    | @closing now hpost =>
      rw [State.stations_close] at hget
      refine (ih _ _ _ hget).of_orchestrator (.closing hpost) (State.roster_congr _ _ ?_)
      rw [State.stations_close]
    | dispatched hpost hnone =>
      rw [State.stations_moveTo] at hget
      exact (ih _ _ _ hget).of_orchestrator (.dispatched hpost hnone) (State.roster_congr _ _ rfl)
    | join hpost hfound hstage =>
      rw [State.stations_moveTo] at hget
      exact (ih _ _ _ hget).of_orchestrator (.join hpost hfound hstage)
        (State.roster_congr _ _ rfl)
    | rethrow hpost hfound hstage =>
      rw [State.stations_moveTo] at hget
      exact (ih _ _ _ hget).of_orchestrator (.rethrow hpost hfound hstage)
        (State.roster_congr _ _ rfl)
    | joined hpost =>
      rw [State.stations_moveTo] at hget
      exact (ih _ _ _ hget).of_orchestrator (.joined hpost) (State.roster_congr _ _ rfl)
    | unwound hpost hrest =>
      rw [State.stations_moveTo] at hget
      exact (ih _ _ _ hget).of_orchestrator (.unwound hpost hrest) (State.roster_congr _ _ rfl)

end Threads

end FlashFleet
