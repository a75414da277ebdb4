import FlashFleet.Fleet.Station
import FlashFleet.Proofs.PhaseRun
/-!
# The worker of one device

What a worker does is seen step by step, since others may move between two of
its steps, but the steps of one worker always make up a phase. A path is what a
worker has done so far, if it was asked to act after the invocations that it
made itself. Let alone, a worker runs its phase without interruption.

## Main results

* `Path.solo` — a path leads on to where the worker comes to when it is let
  alone.
* `solo_dispatched` — let alone, the worker of a phase runs that phase.
* `Path.congr` — a path depends only on the answers given along it.
* `Path.faithful`, `Path.exchanges` — where a worker stands tells what it did to
  its device, and whether an invocation of it is under way.
-/

namespace FlashFleet

/-- The stage of a worker at its end, after a crash or without one. -/
def Stage.over : Option String → Stage
  | none => .finished
  | some text => .crashed text

/-- A flag that tells how something ended. -/
def Flag.IsVerdict (flag : Flag) : Prop := flag = .done ∨ flag = .failed

namespace Station

/-! ## The start of a round -/

theorem enter_of_some {round : Round} {device : Device} {phase : Phase}
    (h : round.phase? device = some phase) : enter round device = ⟨device, .queued phase⟩ := by
  simp [enter, h]

theorem enter_of_none {round : Round} {device : Device} (h : round.phase? device = none) :
    enter round device = ⟨device, .idle⟩ := by
  simp [enter, h]

@[simp] theorem device_enter (round : Round) (device : Device) :
    (enter round device).device = device := by
  unfold enter
  split <;> rfl

@[simp] theorem isLive_enter (round : Round) (device : Device) :
    (enter round device).stage.isLive = false := by
  unfold enter
  split <;> rfl

theorem map_device_enter (round : Round) (devices : List Device) :
    (devices.map (enter round)).map Station.device = devices := by
  rw [List.map_map]
  apply List.map_id''
  exact device_enter round

/-! ## One step -/

/-- The invocation that the next step begins, if it begins one. -/
def next? (station : Station) : Option Invocation :=
  match station.stage with
  | .acting _ (.invoke call :: _) => some call
  | .resetting _ _ => some (.reset station.device.serial)
  | _ => none

@[simp] theorem calls_start (programmer : Programmer) (past : List Invocation)
    (station : Station) (phase : Phase) (call : Invocation) (sequel : Sequel) :
    Events.calls (station.start programmer past phase call sequel).1 = [.began call] := by
  simp [start, Response.opening]

@[simp] theorem invocations_start (programmer : Programmer) (past : List Invocation)
    (station : Station) (phase : Phase) (call : Invocation) (sequel : Sequel) :
    Events.invocations (station.start programmer past phase call sequel).1 = [call] := by
  rw [← Events.invocations_calls, calls_start]
  rfl

/-- A step begins the invocation that comes next, and no other. -/
theorem invocations_step (programmer : Programmer) (past : List Invocation) (station : Station) :
    Events.invocations (station.step programmer past).1 = station.next?.toList := by
  obtain ⟨device, stage⟩ := station
  cases stage with
  | acting phase todo =>
    cases todo with
    | nil => rfl
    | cons action todo =>
      cases action with
      | invoke call => exact invocations_start ..
      | _ => rfl
  | resetting phase flag => exact invocations_start ..
  | calling phase call outcome sequel => cases outcome <;> cases sequel <;> rfl
  | _ => rfl

/-- A step depends on the answer to the invocation that it begins alone. -/
theorem step_congr {programmer other : Programmer} {past before : List Invocation}
    {station : Station}
    (h : ∀ call, station.next? = some call →
      programmer.respond past call = other.respond before call) :
    station.step programmer past = station.step other before := by
  obtain ⟨device, stage⟩ := station
  cases stage with
  | acting phase todo =>
    cases todo with
    | nil => rfl
    | cons action todo =>
      cases action with
      | invoke call => simp only [step, start, h call rfl]
      | _ => rfl
  | resetting phase flag => simp only [step, start, h _ rfl]
  | _ => rfl

/-! ## Paths -/

/-- What a worker does from a start on, if it is asked to act after the
invocations in `past` and those that it makes itself. -/
inductive Path (programmer : Programmer) (past : List Invocation) (start : Station) :
    Events → Station → Prop where
  | here : Path programmer past start [] start
  | step {events : Events} {station : Station} (path : Path programmer past start events station)
      (live : station.stage.isLive = true) :
      Path programmer past start
        (events ++ (station.step programmer (past ++ Events.invocations events)).1)
        (station.step programmer (past ++ Events.invocations events)).2

/-- A path depends only on the answers to the invocations along it, each of which
was made after fewer invocations than there are at its end. -/
theorem Path.congr {programmer other : Programmer} {past : List Invocation} {start : Station}
    {events : Events} {station : Station} (path : Path programmer past start events station)
    (h : ∀ before call, before.length < (past ++ Events.invocations events).length →
      programmer.respond before call = other.respond before call) :
    Path other past start events station := by
  induction path with
  | here => exact .here
  | @step events station path live ih =>
    have hearlier : ∀ before call, before.length < (past ++ Events.invocations events).length →
        programmer.respond before call = other.respond before call := by
      intro before call hlt
      apply h
      simp only [Events.invocations_append, List.length_append] at hlt ⊢
      omega
    have hsame : station.step programmer (past ++ Events.invocations events) =
        station.step other (past ++ Events.invocations events) := by
      apply step_congr
      intro call hnext
      apply h
      rw [Events.invocations_append, invocations_step, hnext]
      simp
    rw [hsame]
    exact .step (ih hearlier) live

/-! ## A worker let alone -/

/-- What a worker does when nobody else moves, up to where it comes to rest. -/
def solo (programmer : Programmer) (past : List Invocation) (station : Station) :
    Events × Station :=
  if _live : station.stage.isLive = true then
    let now := station.step programmer past
    let later := solo programmer (past ++ Events.invocations now.1) now.2
    (now.1 ++ later.1, later.2)
  else ([], station)
termination_by station.remaining
decreasing_by exact station.remaining_step_lt programmer past _live

/-- The same behind earlier events. -/
def behind (events : Events) (rest : Events × Station) : Events × Station :=
  (events ++ rest.1, rest.2)

theorem behind_behind (a b : Events) (rest : Events × Station) :
    behind a (behind b rest) = behind (a ++ b) rest := by
  simp [behind]

/-- A live worker takes its step and goes on from there. -/
theorem solo_of_live {programmer : Programmer} {past : List Invocation} {station : Station}
    (live : station.stage.isLive = true) :
    station.solo programmer past =
      behind (station.step programmer past).1
        ((station.step programmer past).2.solo programmer
          (past ++ Events.invocations (station.step programmer past).1)) := by
  rw [solo]
  simp [live, behind]

/-- A worker that is not live stays where it is. -/
theorem solo_of_rest {programmer : Programmer} {past : List Invocation} {station : Station}
    (rest : station.stage.isLive = false) : station.solo programmer past = ([], station) := by
  rw [solo]
  simp [rest]

/-- A path leads on to where the worker comes to when it is let alone. -/
theorem Path.solo {programmer : Programmer} {past : List Invocation} {start station : Station}
    {events : Events} (path : Path programmer past start events station) :
    start.solo programmer past =
      behind events (station.solo programmer (past ++ Events.invocations events)) := by
  induction path with
  | here => simp [behind]
  | @step events station path live ih =>
    rw [ih, solo_of_live live, behind_behind, Events.invocations_append, List.append_assoc]

/-- An invocation, from its beginning to what follows its end. -/
theorem solo_start {programmer : Programmer} {past : List Invocation} {station : Station}
    {phase : Phase} {call : Invocation} {sequel : Sequel} (live : station.stage.isLive = true)
    (hstep : station.step programmer past = station.start programmer past phase call sequel) :
    station.solo programmer past =
      behind (programmer.call past call).events
        (solo programmer (past ++ [call])
          (station.settle phase call (programmer.respond past call).outcome sequel).2) := by
  rw [solo_of_live live, hstep, invocations_start, solo_of_live (by rfl), behind_behind]
  simp only [start, moveTo, step]
  cases houtcome : (programmer.respond past call).outcome with
  | succeeded => cases sequel <;> simp [settle, moveTo, Programmer.call, houtcome, Outcome.fault?]
  | failed fault =>
    cases sequel <;> simp [settle, moveTo, Programmer.call, houtcome, Outcome.fault?]
  | crashed text => simp [settle, moveTo, Programmer.call, houtcome]

/-- The actions of a phase are performed in order; then the flag is recorded. -/
theorem solo_acting (programmer : Programmer) (past : List Invocation) (device : Device)
    (phase : Phase) (todo : List Action) :
    solo programmer past ⟨device, .acting phase todo⟩ =
      behind (perform programmer past todo).events
        (solo programmer (past ++ Events.invocations (perform programmer past todo).events)
          ⟨device,
            match (perform programmer past todo).outcome with
            | .crashed text => .crashed text
            | .failed fault => .failing phase fault
            | .succeeded => .acting phase []⟩) := by
  induction todo generalizing past with
  | nil => simp [perform, behind]
  | cons action todo ih =>
    cases action with
    | say record =>
      rw [solo_of_live rfl, perform_say]
      simp only [step, moveTo, Events.invocations_log, Events.invocations_nil, List.append_nil]
      rw [ih, behind_behind]
      rfl
    | refuse fault =>
      rw [solo_of_live rfl]
      rfl
    | crash text =>
      rw [solo_of_live rfl]
      rfl
    | invoke call =>
      rw [solo_start rfl rfl, perform_invoke, Programmer.call_outcome]
      cases houtcome : (programmer.respond past call).outcome with
      | succeeded =>
        simp only [settle, moveTo, Events.invocations_append, Programmer.invocations_call]
        rw [ih, behind_behind, List.append_assoc]
      | failed fault => simp [settle, moveTo, houtcome]
      | crashed text => simp [settle, moveTo, houtcome]

/-- The last reset of a phase and the report of its end. -/
theorem solo_resetting (programmer : Programmer) (past : List Invocation) (device : Device)
    (phase : Phase) (flag : Flag) :
    solo programmer past ⟨device, .resetting phase flag⟩ =
      ((phase.finish programmer past flag device).events,
        ⟨(phase.finish programmer past flag device).device,
          .over (phase.finish programmer past flag device).crash⟩) := by
  rw [solo_start rfl rfl]
  simp only [Phase.finish, Programmer.call_outcome]
  cases (programmer.respond past (.reset device.serial)).outcome with
  | succeeded =>
    simp only [settle, moveTo]
    rw [solo_of_live rfl, behind_behind]
    simp only [step, moveTo]
    rw [solo_of_rest rfl]
    simp [behind, Stage.over]
  | failed fault =>
    simp only [settle, moveTo]
    rw [solo_of_live rfl, behind_behind]
    simp only [step, moveTo]
    rw [solo_of_live rfl, behind_behind]
    simp only [step, moveTo]
    rw [solo_of_rest rfl]
    simp [behind, Stage.over]
  | crashed text =>
    simp only [settle, moveTo]
    rw [solo_of_rest rfl]
    simp [behind, Stage.over]

/-- Let alone, the worker of a phase runs that phase. -/
theorem solo_dispatched (programmer : Programmer) (past : List Invocation) (device : Device)
    (phase : Phase) :
    solo programmer past ⟨device, .dispatched phase⟩ =
      ((phase.run programmer past device).events,
        ⟨(phase.run programmer past device).device,
          .over (phase.run programmer past device).crash⟩) := by
  rw [solo_of_live rfl]
  simp only [step, moveTo, Events.invocations_phaseStarted, Events.invocations_nil,
    List.append_nil]
  rw [solo_acting, behind_behind]
  cases houtcome : (perform programmer past (phase.actions device)).outcome with
  | crashed text =>
    rw [Phase.run_of_crashed houtcome, solo_of_rest rfl]
    simp [behind, Stage.over, Phase.begun]
  | failed fault =>
    rw [Phase.run_of_failed houtcome, solo_of_live rfl, behind_behind]
    simp only [step, recorded]
    rw [solo_resetting]
    simp [behind, Phase.begun]
  | succeeded =>
    rw [Phase.run_of_succeeded houtcome, solo_of_live rfl, behind_behind]
    simp only [step, recorded]
    rw [solo_resetting]
    simp [behind, Phase.begun]

/-! ## Where a worker stands -/

/-- The invocation under way after a step is the one that the step began. -/
theorem inFlight?_step (programmer : Programmer) (past : List Invocation) (station : Station) :
    (station.step programmer past).2.stage.inFlight? = station.next? := by
  obtain ⟨device, stage⟩ := station
  cases stage with
  | acting phase todo =>
    cases todo with
    | nil => rfl
    | cons action todo => cases action <;> rfl
  | calling phase call outcome sequel => cases outcome <;> cases sequel <;> rfl
  | _ => rfl

/-- While no invocation is under way, a step shows the beginning of the next. -/
theorem calls_step (programmer : Programmer) (past : List Invocation) {station : Station}
    (h : station.stage.inFlight? = none) :
    Events.calls (station.step programmer past).1 = station.next?.toList.map .began := by
  obtain ⟨device, stage⟩ := station
  cases stage with
  | acting phase todo =>
    cases todo with
    | nil => rfl
    | cons action todo =>
      cases action with
      | invoke call => exact calls_start ..
      | _ => rfl
  | resetting phase flag => exact calls_start ..
  | calling phase call outcome sequel => simp [Stage.inFlight?] at h
  | _ => rfl

/-- An invocation under way is brought to its end by the next step, unless it
crashes. -/
theorem calls_step_calling (programmer : Programmer) (past : List Invocation) (device : Device)
    (phase : Phase) (call : Invocation) (outcome : Outcome) (sequel : Sequel) :
    Events.calls (step programmer past ⟨device, .calling phase call outcome sequel⟩).1 =
      match outcome with
      | .crashed _ => []
      | outcome => [.ended call outcome.fault?] := by
  cases outcome <;> cases sequel <;> rfl

/-- Along a path every invocation comes to its end before the next begins. Only
the last may be under way, unless it crashed. -/
theorem Path.exchanges {programmer : Programmer} {past : List Invocation}
    {start station : Station} {events : Events}
    (path : Path programmer past start events station) (hstart : start.stage.inFlight? = none) :
    ∃ exchanges opened,
      Events.calls events = shown exchanges ++ opened.toList.map .began ∧
      (station.stage.crash? = none → opened = station.stage.inFlight?) := by
  induction path with
  | here => exact ⟨[], none, rfl, fun _ => hstart.symm⟩
  | @step events station path live ih =>
    obtain ⟨exchanges, opened, hcalls, hopened⟩ := ih
    have hcrash : station.stage.crash? = none := by
      cases hstage : station.stage with
      | crashed text => simp [hstage, Stage.isLive] at live
      | _ => rfl
    have hnow := hopened hcrash
    cases hflight : station.stage.inFlight? with
    | none =>
      refine ⟨exchanges, station.next?, ?_, fun _ => (inFlight?_step ..).symm⟩
      rw [Events.calls_append, calls_step _ _ hflight, hcalls, hnow, hflight]
      simp
    | some call =>
      obtain ⟨device, stage⟩ := station
      cases stage with
      | calling phase call outcome sequel =>
        simp only [Stage.inFlight?] at hnow
        subst hnow
        cases outcome with
        | crashed text =>
          refine ⟨exchanges, some call, ?_, ?_⟩
          · rw [Events.calls_append, calls_step_calling, hcalls]
            simp
          · intro h
            cases sequel <;> simp [Station.step, settle, moveTo, Stage.crash?] at h
        | succeeded =>
          have hflight' := inFlight?_step programmer (past ++ Events.invocations events)
            ⟨device, .calling phase call .succeeded sequel⟩
          refine ⟨exchanges ++ [⟨call, none⟩], none, ?_, fun _ => hflight'.symm⟩
          rw [Events.calls_append, calls_step_calling, hcalls]
          simp [Outcome.fault?]
        | failed fault =>
          have hflight' := inFlight?_step programmer (past ++ Events.invocations events)
            ⟨device, .calling phase call (.failed fault) sequel⟩
          refine ⟨exchanges ++ [⟨call, some fault⟩], none, ?_, fun _ => hflight'.symm⟩
          rw [Events.calls_append, calls_step_calling, hcalls]
          simp [Outcome.fault?]
      | _ => simp [Stage.inFlight?] at hflight

/-- Where the worker of a phase stands tells what it has done to its device, and
what of its actions is left. -/
def Faithful (phase : Phase) (origin : Device) (station : Station) : Prop :=
  match station.stage with
  | .idle => False
  | .queued _ => False
  | .dispatched now => now = phase ∧ station.device = origin
  | .acting now todo => now = phase ∧ station.device = origin ∧ todo <:+ phase.actions origin
  | .calling now call _ (.work todo) =>
    now = phase ∧ station.device = origin ∧ .invoke call :: todo <:+ phase.actions origin
  | .failing now _ => now = phase ∧ station.device = origin
  | .resetting now flag =>
    now = phase ∧ flag.IsVerdict ∧ station.device = phase.record flag origin
  | .calling now call _ (.report flag) =>
    now = phase ∧ flag.IsVerdict ∧ station.device = phase.record flag origin ∧
      call = .reset origin.serial
  | .resetFailed now flag _ =>
    now = phase ∧ flag.IsVerdict ∧ station.device = phase.record flag origin
  | .reporting now flag =>
    now = phase ∧ flag.IsVerdict ∧ station.device = phase.record flag origin
  | .finished => ∃ flag : Flag, flag.IsVerdict ∧ station.device = phase.record flag origin
  | .crashed _ =>
    station.device = origin ∨
      ∃ flag : Flag, flag.IsVerdict ∧ station.device = phase.record flag origin

theorem Faithful.step {phase : Phase} {origin : Device} {station : Station}
    (h : Faithful phase origin station) (live : station.stage.isLive = true)
    (programmer : Programmer) (past : List Invocation) :
    Faithful phase origin (station.step programmer past).2 := by
  obtain ⟨device, stage⟩ := station
  cases stage with
  | idle => simp [Stage.isLive] at live
  | queued now => simp [Stage.isLive] at live
  | finished => simp [Stage.isLive] at live
  | crashed text => simp [Stage.isLive] at live
  | dispatched now =>
    obtain ⟨rfl, rfl⟩ := h
    exact ⟨rfl, rfl, List.suffix_rfl⟩
  | acting now todo =>
    obtain ⟨rfl, rfl, hsuffix⟩ := h
    cases todo with
    | nil => exact ⟨rfl, .inl rfl, rfl⟩
    | cons action todo =>
      have hrest : todo <:+ now.actions device := (List.suffix_cons action todo).trans hsuffix
      cases action with
      | say record => exact ⟨rfl, rfl, hrest⟩
      | invoke call => exact ⟨rfl, rfl, hsuffix⟩
      | refuse fault => exact ⟨rfl, rfl⟩
      | crash text => exact .inl rfl
  | calling now call outcome sequel =>
    cases sequel with
    | work todo =>
      obtain ⟨rfl, rfl, hsuffix⟩ := h
      cases outcome with
      | succeeded => exact ⟨rfl, rfl, (List.suffix_cons _ todo).trans hsuffix⟩
      | failed fault => exact ⟨rfl, rfl⟩
      | crashed text => exact .inl rfl
    | report flag =>
      obtain ⟨rfl, hflag, hdevice, _⟩ := h
      cases outcome with
      | succeeded => exact ⟨rfl, hflag, hdevice⟩
      | failed fault => exact ⟨rfl, hflag, hdevice⟩
      | crashed text => exact .inr ⟨flag, hflag, hdevice⟩
  | failing now fault =>
    obtain ⟨rfl, rfl⟩ := h
    exact ⟨rfl, .inr rfl, rfl⟩
  | resetting now flag =>
    obtain ⟨rfl, hflag, hdevice⟩ := h
    refine ⟨rfl, hflag, hdevice, ?_⟩
    simp only at hdevice
    rw [hdevice, Phase.record_serial]
  | resetFailed now flag fault => exact h
  | reporting now flag =>
    obtain ⟨rfl, hflag, hdevice⟩ := h
    exact ⟨flag, hflag, hdevice⟩

/-- A path of a phase's worker keeps to the phase. -/
theorem Path.faithful {programmer : Programmer} {past : List Invocation} {origin : Device}
    {phase : Phase} {events : Events} {station : Station}
    (path : Path programmer past ⟨origin, .dispatched phase⟩ events station) :
    Faithful phase origin station := by
  induction path with
  | here => exact ⟨rfl, rfl⟩
  | step path live ih => exact ih.step live _ _

/-- The worker of a phase leaves its device as it is, but for the flag of the phase. -/
theorem Faithful.device_eq {phase : Phase} {origin : Device} {station : Station}
    (h : Faithful phase origin station) :
    station.device = origin ∨
      ∃ flag : Flag, flag.IsVerdict ∧ station.device = phase.record flag origin := by
  obtain ⟨device, stage⟩ := station
  cases stage with
  | idle => exact h.elim
  | queued now => exact h.elim
  | dispatched now => exact .inl h.2
  | acting now todo => exact .inl h.2.1
  | calling now call outcome sequel =>
    cases sequel with
    | work todo => exact .inl h.2.1
    | report flag => exact .inr ⟨flag, h.2.1, h.2.2.1⟩
  | failing now fault => exact .inl h.2
  | resetting now flag => exact .inr ⟨flag, h.2⟩
  | resetFailed now flag fault => exact .inr ⟨flag, h.2⟩
  | reporting now flag => exact .inr ⟨flag, h.2⟩
  | finished => exact .inr h
  | crashed text => exact h

theorem Faithful.serial {phase : Phase} {origin : Device} {station : Station}
    (h : Faithful phase origin station) : station.device.serial = origin.serial := by
  rcases h.device_eq with hdevice | ⟨flag, _, hdevice⟩
  · rw [hdevice]
  · rw [hdevice, Phase.record_serial]

/-- The invocation under way is one of the phase. -/
theorem Faithful.makes_inFlight {phase : Phase} {origin : Device} {station : Station}
    (h : Faithful phase origin station) {call : Invocation}
    (hflight : station.stage.inFlight? = some call) : phase.Makes origin call := by
  obtain ⟨device, stage⟩ := station
  cases stage with
  | calling now other outcome sequel =>
    simp only [Stage.inFlight?, Option.some.injEq] at hflight
    subst hflight
    cases sequel with
    | work todo => exact .inl (h.2.2.subset List.mem_cons_self)
    | report flag => exact .inr h.2.2.2
  | _ => cases hflight

/-- The invocation that comes next is one of the phase. -/
theorem Faithful.makes_next {phase : Phase} {origin : Device} {station : Station}
    (h : Faithful phase origin station) {call : Invocation} (hnext : station.next? = some call) :
    phase.Makes origin call := by
  obtain ⟨device, stage⟩ := station
  cases stage with
  | acting now todo =>
    cases todo with
    | nil => cases hnext
    | cons action todo =>
      cases action with
      | invoke next =>
        cases hnext
        exact .inl (h.2.2.subset List.mem_cons_self)
      | _ => cases hnext
  | resetting now flag =>
    cases hnext
    exact .inr (congrArg Invocation.reset h.serial)
  | _ => cases hnext

/-- The invocations that a step shows are among those of the phase. -/
theorem Faithful.call_of_mem_step {phase : Phase} {origin : Device} {station : Station}
    (h : Faithful phase origin station) {programmer : Programmer} {past : List Invocation}
    {event : Event} (hevent : event ∈ (station.step programmer past).1) {call : Invocation}
    (hcall : event.call? = some call) : phase.Makes origin call := by
  have hmem : event ∈ Events.calls (station.step programmer past).1 :=
    List.mem_filter.2 ⟨hevent, by rw [hcall]; rfl⟩
  cases hflight : station.stage.inFlight? with
  | none =>
    rw [calls_step _ _ hflight] at hmem
    obtain ⟨next, hnext, rfl⟩ := List.mem_map.1 hmem
    cases hcall
    exact h.makes_next (Option.mem_toList.1 hnext)
  | some now =>
    obtain ⟨device, stage⟩ := station
    cases stage with
    | calling now call' outcome sequel =>
      rw [calls_step_calling] at hmem
      have hown : event.call? = some call' := by
        cases outcome with
        | crashed text => simp at hmem
        | _ =>
          simp only [List.mem_singleton] at hmem
          rw [hmem]
          rfl
      rw [hcall, Option.some.injEq] at hown
      subst hown
      exact h.makes_inFlight rfl
    | _ => simp [Stage.inFlight?] at hflight

/-- A path of a phase's worker shows invocations of that phase only. -/
theorem Path.makes {programmer : Programmer} {past : List Invocation} {origin : Device}
    {phase : Phase} {events : Events} {station : Station}
    (path : Path programmer past ⟨origin, .dispatched phase⟩ events station) {event : Event}
    (hevent : event ∈ events) {call : Invocation} (hcall : event.call? = some call) :
    phase.Makes origin call := by
  induction path with
  | here => simp at hevent
  | step path live ih =>
    rcases List.mem_append.1 hevent with hevent | hevent
    · exact ih hevent
    · exact path.faithful.call_of_mem_step hevent hcall

end Station

end FlashFleet
