import FlashFleet.Proofs.Execution
import FlashFleet.Proofs.Ownership
/-!
# What a run does to a device

When a run has come to its end, each device has gone through both rounds, and in
each its phase was run as if nobody else had moved, with a programmer that gives
answers of the programmer of the run. In what a worker can tell them apart,
which are the invocations of its own probe, these answers were given after the
same invocations.

## Main results

* `outcome_of_neverCrashes` — with a programmer that never crashes no run does.
* `service_of_ended` — a device goes through both rounds by itself.
-/

namespace FlashFleet

/-! ## A round for one device -/

/-- What a round does to a device that is alone. -/
def Round.serve (round : Round) (programmer : Programmer) (past : List Invocation)
    (device : Device) : Events × Device :=
  match round.phase? device with
  | none => ([], device)
  | some phase =>
    ((phase.run programmer past device).events, (phase.run programmer past device).device)

/-- The invocations of a probe are those begun in what concerns it. -/
theorem Events.invocations_about (serial : Serial) (events : Events) :
    invocations (about serial events) = ofProbe serial (invocations events) := by
  induction events with
  | nil => rfl
  | cons event rest ih =>
    cases event with
    | began call =>
      by_cases hserial : call.serial = serial
      · rw [about_cons_of_eq rfl hserial, invocations_began, invocations_began, ih]
        exact (List.filter_cons_of_pos (by simpa using hserial)).symm
      · rw [about_cons_of_ne rfl hserial, invocations_began, ih]
        exact (List.filter_cons_of_neg (by simpa using hserial)).symm
    | ended call fault =>
      by_cases hserial : call.serial = serial
      · rw [about_cons_of_eq rfl hserial]
        exact ih
      · rw [about_cons_of_ne rfl hserial]
        exact ih
    | _ =>
      rw [about_cons_of_none rfl]
      exact ih

theorem ofProbe_append (serial : Serial) (a b : List Invocation) :
    ofProbe serial (a ++ b) = ofProbe serial a ++ ofProbe serial b :=
  List.filter_append ..

theorem ofProbe_ofProbe (serial : Serial) (calls : List Invocation) :
    ofProbe serial (ofProbe serial calls) = ofProbe serial calls := by
  simp [ofProbe, List.filter_filter]

namespace Course

variable {programmer : Programmer} {round : Round} {past : List Invocation} {device : Device}
  {events : Events} {station : Station}

/-- At its end a worker has done what the round does to a device that is alone. -/
theorem served (h : Course programmer round past device events station)
    (hrest : station.stage.atRest = true) :
    round.serve programmer past device = (events, station.device) := by
  rcases h.of_atRest hrest with ⟨hphase, rfl, rfl⟩ | ⟨phase, hphase, rfl, rfl⟩
  · simp [Round.serve, hphase]
  · simp [Round.serve, hphase]

/-- A worker whose programmer never crashes does not crash. -/
theorem crash?_eq_none (h : Course programmer round past device events station)
    (hsafe : programmer.NeverCrashes) : station.stage.crash? = none := by
  cases hlive : station.stage.isLive with
  | true => cases hstage : station.stage <;> first | rfl | simp [hstage, Stage.isLive] at hlive
  | false =>
    rcases h.of_dead hlive with ⟨_, rfl⟩ | ⟨phase, hphase, _, rfl⟩
    · unfold Station.enter
      split <;> rfl
    · rw [Phase.crash_of_neverCrashes hsafe (Round.possible_of_phase? hphase) past]
      rfl

end Course

namespace Threads

variable {setting : Setting} {s : State}

/-! ## A worker and its probe -/

/-- The invocations look the same to a worker that sees only those of its
probe. -/
def Alike (serial : Serial) (own past : List Invocation) : Prop :=
  ofProbe serial own = ofProbe serial past

/-- All that a device's workers did is of its probe. -/
private theorem ofProbe_workers (hnodup : (setting.devices.map Device.serial).Nodup)
    (hreach : Reachable setting s) {position : Nat} {origin : Device}
    (horigin : setting.devices[position]? = some origin) :
    ofProbe origin.serial s.trace.invocations =
      ofProbe origin.serial
        (Events.invocations (s.eventsOf (.worker .first position)) ++
          Events.invocations (s.eventsOf (.worker .second position))) := by
  have hdialogue := dialogue_eq hnodup hreach horigin
  unfold Trace.dialogue at hdialogue
  have hcalls := congrArg Events.invocations hdialogue
  rw [Events.invocations_about, Events.invocations_append, Events.invocations_calls,
    Events.invocations_calls] at hcalls
  rw [← hcalls, ofProbe_ofProbe]
  rfl

/-- A worker cannot tell the invocations of all from those that it knows. -/
theorem alike_of_live (hnodup : (setting.devices.map Device.serial).Nodup)
    (hreach : Reachable setting s) {round : Round} {position : Nat} {station : Station}
    (hget : (s.stations round)[position]? = some station) (hlive : station.stage.isLive = true) :
    Alike station.device.serial
      (s.known setting.past round position ++
        Events.invocations (s.eventsOf (.worker round position)))
      (setting.past ++ s.trace.invocations) := by
  have horderly := orderly_of_reachable hreach
  obtain ⟨origin, horigin, hserial⟩ := serial_of_station hreach hget
  have hworkers := ofProbe_workers hnodup hreach horigin
  unfold Alike
  rw [hserial, ofProbe_append, ofProbe_append _ setting.past, hworkers]
  cases round with
  | first =>
    have hround := (horderly.round_of_live hget hlive).1
    have hsilent : s.eventsOf (.worker .second position) = [] := by
      apply horderly.eventsOf_eq_nil
      rw [horderly.second_eq_nil hround.symm]
      exact Nat.zero_le position
    rw [hsilent, Events.invocations_nil, List.append_nil]
    rfl
  | second => rw [State.known, ofProbe_append, ofProbe_append, List.append_assoc]

/-- What each worker did is a path of its own, along which it is given answers
that were given after the same invocations of its probe. -/
theorem conducted_alike (hnodup : (setting.devices.map Device.serial).Nodup)
    (hreach : Reachable setting s) {round : Round} {position : Nat} {station : Station}
    (hget : (s.stations round)[position]? = some station) :
    Conducted setting Alike s round position station :=
  @conducted_of_reachable setting Alike (fun _ _ => rfl)
    (fun _ hreach _ _ _ hget hlive => alike_of_live hnodup hreach hget hlive) s hreach round
    position station hget

/-! ## The end of a run -/

/-- With a programmer that never crashes a run does not, and leaves the devices of
the second round. -/
theorem outcome_of_neverCrashes (hsafe : setting.programmer.NeverCrashes)
    (hreach : Reachable setting s) {run : FleetRun} (hrun : s.outcome? = some run) :
    s.post = .ended ∧ run = ⟨s.trace, (s.stations .second).map Station.device, none⟩ := by
  have hcrash : s.post.crash? = none := by
    cases hblame : s.post.crash? with
    | none => rfl
    | some text =>
      obtain ⟨station, hmem, hstage⟩ := (orderly_of_reachable hreach).blamed text hblame
      obtain ⟨position, hget⟩ := List.getElem?_of_mem hmem
      obtain ⟨device, _, _, hechoes, hcourse⟩ := course_of_reachable hreach hget
      have hnone := hcourse.crash?_eq_none (hechoes.neverCrashes hsafe)
      rw [hstage] at hnone
      cases hnone
  unfold State.outcome? at hrun
  cases hpost : s.post with
  | ended =>
    rw [hpost] at hrun
    exact ⟨rfl, (Option.some.inj hrun).symm⟩
  | raised round text =>
    rw [hpost] at hcrash
    cases hcrash
  | _ =>
    rw [hpost] at hrun
    cases hrun

/-- What a run does to a device: its two rounds, each by itself, with programmers
that give answers of the programmer of the run. -/
def Service (programmer : Programmer) (past : List Invocation) (device : Device)
    (dialogue : Events) (after : Device) : Prop :=
  ∃ earlier later : Programmer,
    earlier.Echoes programmer (Alike device.serial) ∧
    later.Echoes programmer (Alike device.serial) ∧
    ∃ first second : Events × Device,
      Round.first.serve earlier past device = first ∧
      Round.second.serve later (past ++ Events.invocations first.1) first.2 = second ∧
      dialogue = Events.calls first.1 ++ Events.calls second.1 ∧ after = second.2

/-- When a run has come to its end the workers of each device have done what both rounds do
to it by itself. -/
theorem rounds_of_ended (hnodup : (setting.devices.map Device.serial).Nodup)
    (hreach : Reachable setting s) (hpost : s.post = .ended) {position : Nat} {device : Device}
    (hdevice : setting.devices[position]? = some device) :
    ∃ station, (s.stations .second)[position]? = some station ∧
      ∃ earlier later : Programmer,
        earlier.Echoes setting.programmer (Alike device.serial) ∧
        later.Echoes setting.programmer (Alike device.serial) ∧
        ∃ first second : Events × Device,
          Round.first.serve earlier setting.past device = first ∧
          Round.second.serve later (setting.past ++ Events.invocations first.1) first.2 = second ∧
          s.eventsOf (.worker .first position) = first.1 ∧
          s.eventsOf (.worker .second position) = second.1 ∧ station.device = second.2 := by
  have horderly := orderly_of_reachable hreach
  have hstation : ∀ round, ∃ station, (s.stations round)[position]? = some station ∧
      station.stage.atRest = true := by
    intro round
    have hsize := horderly.size round (by rw [hpost]; exact .inr rfl)
    have hlt : position < (s.stations round).length := by
      rw [hsize]
      exact (List.getElem?_eq_some_iff.1 hdevice).1
    have hget := List.getElem?_eq_getElem hlt
    refine ⟨_, hget, (horderly.attended round position _ hget).resolve_right ?_⟩
    rw [hpost]
    exact id
  obtain ⟨early, hearly, hearlyRest⟩ := hstation .first
  obtain ⟨late, hlate, hlateRest⟩ := hstation .second
  obtain ⟨origin, horigin, earlier, hearlier, hfirst⟩ := conducted_alike hnodup hreach hearly
  obtain ⟨middle, hmiddle, later, hlater, hsecond⟩ := conducted_alike hnodup hreach hlate
  have horigin : origin = device := by
    have horigin : setting.devices[position]? = some origin := horigin
    rw [hdevice, Option.some.injEq] at horigin
    exact horigin.symm
  subst horigin
  have hmiddle : middle = early.device := by
    simp only [State.roster, List.getElem?_map, hearly, Option.map_some, Option.some.injEq]
      at hmiddle
    exact hmiddle.symm
  subst hmiddle
  rw [hfirst.serial] at hlater
  exact ⟨late, hlate, earlier, later, hearlier, hlater, _, _, hfirst.served hearlyRest,
    hsecond.served hlateRest, rfl, rfl, rfl⟩

/-- When a run has come to its end each device has gone through both rounds. -/
theorem service_of_ended (hnodup : (setting.devices.map Device.serial).Nodup)
    (hreach : Reachable setting s) (hpost : s.post = .ended) {position : Nat} {device : Device}
    (hdevice : setting.devices[position]? = some device) :
    ∃ station, (s.stations .second)[position]? = some station ∧
      Service setting.programmer setting.past device (s.trace.dialogue device.serial)
        station.device := by
  obtain ⟨station, hget, earlier, later, hearlier, hlater, first, second, hfirst, hsecond, hshown,
    hshown', hafter⟩ := rounds_of_ended hnodup hreach hpost hdevice
  refine ⟨station, hget, earlier, later, hearlier, hlater, first, second, hfirst, hsecond, ?_,
    hafter⟩
  rw [dialogue_eq hnodup hreach hdevice, hshown, hshown']

end Threads

end FlashFleet
