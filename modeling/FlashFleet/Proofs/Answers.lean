import FlashFleet.Proofs.Ownership
/-!
# What the programmer answered

What a run tells of the end of an invocation is what the programmer answered to
it, and the programmer was asked when the invocation began: after all
invocations that any worker had begun by then, and with no other invocation of
the same probe in between.

## Main results

* `Candid.step` — every step keeps to what was answered.
* `truthful_of_reachable` — each invocation ends as the programmer answered.
-/

namespace FlashFleet

/-! ## Answers in a trace -/

/-- The invocation was the last of its probe to begin, and what came of it is what
the programmer answered then. -/
def Answered (programmer : Programmer) (past : List Invocation) (events : Events)
    (call : Invocation) (outcome : Outcome) : Prop :=
  ∃ earlier between, events = earlier ++ .began call :: between ∧
    Events.about call.serial between = [] ∧
    (programmer.respond (past ++ Events.invocations earlier) call).outcome = outcome

/-- Each invocation ends as the programmer answered. -/
def Truthful (programmer : Programmer) (past : List Invocation) (events : Events) : Prop :=
  ∀ before after call fault, events = before ++ .ended call fault :: after →
    Answered programmer past before call (.ofFault? fault)

variable {programmer : Programmer} {past : List Invocation} {events more : Events}
  {call : Invocation} {outcome : Outcome}

/-- What others do changes nothing. -/
theorem Answered.append (h : Answered programmer past events call outcome)
    (hother : Events.about call.serial more = []) :
    Answered programmer past (events ++ more) call outcome := by
  obtain ⟨earlier, between, rfl, hbetween, hanswer⟩ := h
  refine ⟨earlier, between ++ more, by simp, ?_, hanswer⟩
  rw [Events.about_append, hbetween, hother, List.append_nil]

/-- When an invocation begins the programmer answers it. -/
theorem answered_opening (programmer : Programmer) (past : List Invocation) (events : Events)
    (call : Invocation) :
    Answered programmer past
      (events ++ (programmer.respond (past ++ Events.invocations events) call).opening call) call
      (programmer.respond (past ++ Events.invocations events) call).outcome := by
  refine ⟨events, _, rfl, ?_, rfl⟩
  apply Events.about_eq_nil
  intro event hevent other hcall
  obtain ⟨record, _, rfl⟩ := List.mem_map.1 hevent
  cases hcall

theorem truthful_nil : Truthful programmer past [] := by
  intro before after call fault hsplit
  simp at hsplit

/-- A truthful trace goes on as one if what is added is truthful. -/
theorem Truthful.append (h : Truthful programmer past events)
    (hmore : ∀ before after call fault, more = before ++ .ended call fault :: after →
      Answered programmer past (events ++ before) call (.ofFault? fault)) :
    Truthful programmer past (events ++ more) := by
  intro before after call fault hsplit
  rcases List.append_eq_append_iff.1 hsplit with ⟨middle, rfl, hrest⟩ | ⟨middle, hevents, hrest⟩
  · exact hmore middle after call fault hrest
  · cases middle with
    | nil =>
      rw [List.append_nil] at hevents
      subst hevents
      have hanswered := hmore [] after call fault (by simpa using hrest.symm)
      rwa [List.append_nil] at hanswered
    | cons event middle =>
      rw [List.cons_append, List.cons.injEq] at hrest
      obtain ⟨rfl, _⟩ := hrest
      exact h before middle call fault hevents

/-! ## Answers of a step -/

/-- The worker has taken a step. -/
def Stage.hasBegun : Stage → Bool
  | .idle => false
  | .queued _ => false
  | .dispatched _ => false
  | _ => true

theorem Station.hasBegun_enter (round : Round) (device : Device) :
    (Station.enter round device).stage.hasBegun = false := by
  unfold Station.enter
  split <;> rfl

namespace Station

variable {station : Station}

/-- An invocation under way after a step was begun by it. -/
theorem opening_of_step {phase : Phase} {sequel : Sequel}
    (h : (station.step programmer past).2.stage = .calling phase call outcome sequel) :
    (station.step programmer past).1 = (programmer.respond past call).opening call ∧
      outcome = (programmer.respond past call).outcome := by
  have hbegins : ∀ next (after : Phase) (rest : Sequel),
      (station.start programmer past after next rest).2.stage =
        .calling phase call outcome sequel →
      (station.start programmer past after next rest).1 =
          (programmer.respond past call).opening call ∧
        outcome = (programmer.respond past call).outcome := by
    intro next after rest hstage
    simp only [start, moveTo, Stage.calling.injEq] at hstage
    obtain ⟨_, rfl, houtcome, _⟩ := hstage
    exact ⟨rfl, houtcome.symm⟩
  obtain ⟨device, stage⟩ := station
  cases stage with
  | acting now todo =>
    cases todo with
    | nil => cases h
    | cons action todo =>
      cases action with
      | invoke next => exact hbegins _ _ _ h
      | _ => cases h
  | resetting now flag => exact hbegins _ _ _ h
  | calling now other answer rest => cases answer <;> cases rest <;> cases h
  | _ => cases h

/-- A step that tells of an end brings the invocation under way to it. -/
theorem calling_of_ended {fault : Option Fault}
    (h : .ended call fault ∈ (station.step programmer past).1) :
    (∃ phase sequel, station.stage = .calling phase call (.ofFault? fault) sequel) ∧
      (station.step programmer past).1 = [.ended call fault] := by
  have hnone : ∀ next (after : Phase) (rest : Sequel),
      .ended call fault ∉ (station.start programmer past after next rest).1 := by
    intro next after rest hmem
    simp [start, Response.opening] at hmem
  obtain ⟨device, stage⟩ := station
  cases stage with
  | acting now todo =>
    cases todo with
    | nil => cases h
    | cons action todo =>
      cases action with
      | invoke next => exact absurd h (hnone _ _ _)
      | say record => simp [step] at h
      | refuse fault => cases h
      | crash text => cases h
  | resetting now flag => exact absurd h (hnone _ _ _)
  | calling now other answer rest =>
    cases answer with
    | crashed text => cases rest <;> cases h
    | succeeded =>
      have hmem : Event.ended call fault ∈ [Event.ended other none] := by
        cases rest <;> exact h
      simp only [List.mem_singleton, Event.ended.injEq] at hmem
      obtain ⟨rfl, rfl⟩ := hmem
      exact ⟨⟨now, rest, rfl⟩, by cases rest <;> rfl⟩
    | failed problem =>
      have hmem : Event.ended call fault ∈ [Event.ended other (some problem)] := by
        cases rest <;> exact h
      simp only [List.mem_singleton, Event.ended.injEq] at hmem
      obtain ⟨rfl, rfl⟩ := hmem
      exact ⟨⟨now, rest, rfl⟩, by cases rest <;> rfl⟩
  | _ => simp [step] at h

end Station

namespace Threads

variable {setting : Setting} {s next : State}

/-! ## The invariant -/

/-- What is told of an invocation, and what will be, is what was answered. -/
structure Candid (setting : Setting) (s : State) : Prop where
  /-- An invocation under way was answered when it began. -/
  underWay : ∀ (round : Round) (position : Nat) (station : Station) (phase : Phase)
    (call : Invocation) (outcome : Outcome) (sequel : Sequel),
    (s.stations round)[position]? = some station →
    station.stage = .calling phase call outcome sequel →
    Answered setting.programmer setting.past s.trace.events call outcome
  /-- One that ended came to what was answered. -/
  told : Truthful setting.programmer setting.past s.trace.events

theorem candid_start (setting : Setting) : Candid setting .start where
  underWay := by
    intro round position station phase call outcome sequel hget
    cases round <;> simp [State.start, State.stations] at hget
  told := truthful_nil

/-- A worker that has begun was where it is before the orchestrator moved. -/
theorem station_of_orchestrator (hstep : Step setting s .orchestrator next) {round : Round}
    {position : Nat} {station : Station} (hget : (next.stations round)[position]? = some station)
    (hbegun : station.stage.hasBegun = true) : (s.stations round)[position]? = some station := by
  cases hstep with
  | @opening now hpost =>
    by_cases heq : round = now
    · subst heq
      rw [State.stations_openRound_self, List.getElem?_map, Option.map_eq_some_iff] at hget
      obtain ⟨device, _, rfl⟩ := hget
      rw [Station.hasBegun_enter] at hbegun
      cases hbegun
    · rwa [State.stations_openRound_of_ne _ _ heq] at hget
  | @dispatching now handles place found phase hpost hfound hstage hfirst =>
    by_cases heq : round = now ∧ position = place
    · obtain ⟨rfl, rfl⟩ := heq
      rw [State.getElem?_dispatch_self hfound, Option.some.injEq] at hget
      subst hget
      cases hbegun
    · rwa [State.getElem?_dispatch_of_ne _ _ _ _ _ heq] at hget
  | closing hpost => rwa [State.stations_close] at hget
  | dispatched hpost hnone => rwa [State.stations_moveTo] at hget
  | join hpost hfound hstage => rwa [State.stations_moveTo] at hget
  | rethrow hpost hfound hstage => rwa [State.stations_moveTo] at hget
  | joined hpost => rwa [State.stations_moveTo] at hget
  | unwound hpost hrest => rwa [State.stations_moveTo] at hget

/-- The orchestrator leaves alone what was answered. -/
private theorem Candid.of_orchestrator (h : Candid setting s)
    (hstep : Step setting s .orchestrator next) : Candid setting next := by
  obtain ⟨author, events, hdeeds, hannounced⟩ := deeds_of_step hstep
  have htrace : next.trace.events = s.trace.events ++ events := by
    rw [State.trace_of_deeds hdeeds, Trace.events_append, Trace.events_authoredBy]
  refine ⟨?_, ?_⟩
  · intro round position station phase call outcome sequel hget hstage
    have hold := station_of_orchestrator hstep hget (by rw [hstage]; rfl)
    rw [htrace]
    apply (h.underWay _ _ _ _ _ _ _ hold hstage).append
    apply Events.about_eq_nil
    intro event hevent other hcall
    rw [Event.call?_of_isGeneral (hannounced rfl event hevent).isGeneral] at hcall
    cases hcall
  · rw [htrace]
    apply h.told.append
    rintro before after call fault rfl
    cases hannounced rfl (.ended call fault) (by simp)

/-- A worker asks the programmer and tells what it answered, and it says nothing to
the probes of others. -/
private theorem Candid.work (hnodup : (setting.devices.map Device.serial).Nodup)
    (hreach : Reachable setting s) (h : Candid setting s) {now : Round} {place : Nat}
    {found : Station} (hfound : (s.stations now)[place]? = some found)
    (hlive : found.stage.isLive = true) : Candid setting (s.work setting now place found) := by
  have htrace : (s.work setting now place found).trace.events = s.trace.events ++
      (found.step setting.programmer (setting.past ++ s.trace.invocations)).1 := by
    rw [State.trace_work, Trace.events_append, Trace.events_authoredBy]
  refine ⟨?_, ?_⟩
  · intro round position station phase call outcome sequel hget hstage
    rw [htrace]
    by_cases heq : round = now ∧ position = place
    · obtain ⟨rfl, rfl⟩ := heq
      rw [State.getElem?_work_self hfound, Option.some.injEq] at hget
      subst hget
      obtain ⟨hevents, rfl⟩ := Station.opening_of_step hstage
      rw [hevents]
      exact answered_opening ..
    · rw [State.getElem?_work_of_ne _ _ _ heq] at hget
      apply (h.underWay _ _ _ _ _ _ _ hget hstage).append
      apply Events.about_eq_nil
      intro event hevent other hcall hserial
      -- Two workers of one probe would be live at once.
      obtain ⟨_, _, _, _, hcourse⟩ := course_of_reachable hreach hget
      obtain ⟨_, _, _, _, hcourse'⟩ := course_of_reachable hreach hfound
      have hflight : station.stage.inFlight? = some call := by
        rw [hstage]
        rfl
      obtain ⟨hcalling, hown⟩ := hcourse.serial_inFlight hflight
      have hother := hcourse'.serial_of_mem_step hlive hevent hcall
      obtain ⟨hnow, hplace⟩ := alone_of_live hnodup hreach hget hfound hcalling hlive
        (by rw [← hown, ← hother, hserial])
      exact heq ⟨hnow, hplace⟩
  · rw [htrace]
    apply h.told.append
    intro before after call fault hsplit
    have hmem : .ended call fault ∈
        (found.step setting.programmer (setting.past ++ s.trace.invocations)).1 := by
      rw [hsplit]
      simp
    obtain ⟨⟨phase, sequel, hstage⟩, hevents⟩ := Station.calling_of_ended hmem
    rw [hevents] at hsplit
    have hbefore : before = [] := by
      cases before with
      | nil => rfl
      | cons event before => simp at hsplit
    rw [hbefore, List.append_nil]
    exact h.underWay _ _ _ _ _ _ _ hfound hstage

/-- Every step keeps to what was answered. -/
theorem Candid.step (hnodup : (setting.devices.map Device.serial).Nodup)
    (hreach : Reachable setting s) (h : Candid setting s) {thread : Thread}
    (hstep : Step setting s thread next) : Candid setting next := by
  cases thread with
  | orchestrator => exact h.of_orchestrator hstep
  | worker now place =>
    cases hstep with
    | working hfound hlive => exact h.work hnodup hreach hfound hlive

/-- Where no probe is listed twice, every run keeps to what was answered. -/
theorem candid_of_reachable (hnodup : (setting.devices.map Device.serial).Nodup)
    (hreach : Reachable setting s) : Candid setting s := by
  induction hreach with
  | refl => exact candid_start setting
  | tail hbefore hstep ih =>
    obtain ⟨thread, hstep⟩ := hstep
    exact ih.step hnodup hbefore hstep

/-- Where no probe is listed twice, each invocation ends as the programmer
answered. -/
theorem truthful_of_reachable (hnodup : (setting.devices.map Device.serial).Nodup)
    (hreach : Reachable setting s) :
    Truthful setting.programmer setting.past s.trace.events :=
  (candid_of_reachable hnodup hreach).told

end Threads

end FlashFleet
