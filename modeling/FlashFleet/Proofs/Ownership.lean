import FlashFleet.Proofs.Courses
/-!
# Whose invocation it is

Every invocation is made by a worker, through the probe of its device, and it is
one that belongs to the worker's round. Where no probe is listed twice, all that
is said to a probe is said by the worker of its device in the first round and
then by the worker of the same device in the second, so that other devices do
not matter to it.

## Main results

* `origin_of_call` — who made an invocation, in which round, and for which device.
* `dialogue_eq` — what was said to a probe is what its two workers did.
-/

namespace FlashFleet

/-! ## The phases of a round -/

/-- What a round has a phase for. -/
def Round.Demands : Round → Phase → Device → Prop
  | .first, .reboot, device => device.rebootOnly = .pending
  | .first, .net, device => device.rebootOnly ≠ .pending ∧ device.netImage.isSome = true
  | .second, .app, device => device.rebootOnly = .notSelected ∧ device.appImage.isSome = true
  | _, _, _ => False

theorem Round.phase?_eq_some_iff {round : Round} {device : Device} {phase : Phase} :
    round.phase? device = some phase ↔ device.connected = true ∧ round.Demands phase device := by
  unfold phase?
  by_cases hconnected : device.connected = true
  · rw [if_pos hconnected]
    cases round with
    | first =>
      simp only [work?]
      by_cases hpending : device.rebootOnly = .pending
      · rw [if_pos hpending]
        cases phase <;> simp [Demands, hpending, hconnected]
      · rw [if_neg hpending]
        by_cases himage : device.netImage.isSome = true
        · rw [if_pos himage]
          cases phase <;> simp [Demands, hpending, hconnected, himage]
        · rw [if_neg himage]
          cases phase <;> simp [Demands, hpending, himage]
    | second =>
      simp only [work?]
      by_cases hdue : device.rebootOnly = .notSelected ∧ device.appImage.isSome = true
      · rw [if_pos hdue]
        cases phase <;> simp [Demands, hdue, hconnected]
      · rw [if_neg hdue]
        cases phase <;> simp [Demands, hdue]
  · rw [if_neg hconnected]
    simp [hconnected]

/-- The round that has the phase. -/
def Phase.round : Phase → Round
  | .reboot => .first
  | .net => .first
  | .app => .second

theorem Round.round_of_phase? {round : Round} {device : Device} {phase : Phase}
    (h : round.phase? device = some phase) : phase.round = round := by
  obtain ⟨_, hdemands⟩ := Round.phase?_eq_some_iff.1 h
  cases round <;> cases phase <;> first | rfl | exact hdemands.elim

/-- A phase that a round has for a device is possible. -/
theorem Round.possible_of_phase? {round : Round} {device : Device} {phase : Phase}
    (h : round.phase? device = some phase) : phase.Possible device := by
  obtain ⟨_, hdemands⟩ := Round.phase?_eq_some_iff.1 h
  cases phase with
  | reboot => trivial
  | net =>
    cases round with
    | first => exact hdemands.2
    | second => exact hdemands.elim
  | app =>
    cases round with
    | first => exact hdemands.elim
    | second => exact hdemands.2

/-- The invocation is of a kind that the round has. A reset may be made in
both. -/
def Round.allows : Round → Invocation → Bool
  | .first, .program core _ _ _ => core == .network
  | .first, .writeRegister .. => false
  | .second, .program core _ _ _ => core == .application
  | .second, .writeRegister .. => true
  | _, .reset _ => true

namespace Round

/-- What a worker asks for is of a kind that its round has. -/
theorem allows_of_makes {round : Round} {device : Device} {phase : Phase} {call : Invocation}
    (hphase : round.phase? device = some phase) (h : phase.Makes device call) :
    round.allows call = true := by
  obtain ⟨_, hdemands⟩ := phase?_eq_some_iff.1 hphase
  rcases h with h | rfl
  · have hplan := Phase.mem_plan h
    unfold Phase.plan at hplan
    cases phase with
    | reboot =>
      rw [List.mem_singleton.1 hplan]
      cases round <;> rfl
    | net =>
      cases round with
      | second => exact hdemands.elim
      | first =>
        obtain ⟨image, himage⟩ := Option.isSome_iff_exists.1 hdemands.2
        simp only [himage, List.mem_singleton] at hplan
        rw [hplan]
        rfl
    | app =>
      cases round with
      | first => exact hdemands.elim
      | second =>
        obtain ⟨image, himage⟩ := Option.isSome_iff_exists.1 hdemands.2
        simp only [himage] at hplan
        rcases List.mem_cons.1 hplan with rfl | hword
        · rfl
        · obtain ⟨address, value, rfl⟩ := Uicr.eq_writeRegister_of_mem_words hword
          rfl
  · cases round <;> rfl

end Round

/-- What the second round has for a device is not changed by the first. -/
theorem Course.phase?_second {programmer : Programmer} {past : List Invocation}
    {device : Device} {events : Events} {station : Station}
    (h : Course programmer .first past device events station) :
    Round.second.phase? station.device = Round.second.phase? device := by
  rcases h.device_eq with hdevice | ⟨phase, flag, hphase, hflag, hdevice⟩
  · rw [hdevice]
  · obtain ⟨_, hdemands⟩ := Round.phase?_eq_some_iff.1 hphase
    rw [hdevice]
    cases phase with
    | net => rfl
    | app => exact hdemands.elim
    | reboot =>
      -- A device that was rebooted was never one to be programmed.
      have hpending : device.rebootOnly = .pending := hdemands
      have hverdict : flag ≠ .notSelected := by
        rcases hflag with rfl | rfl <;> decide
      simp [Round.phase?, Round.work?, Phase.record, hpending, hverdict]

/-- What the phases plan for a device is not changed by a worker. -/
theorem Course.plan_eq {programmer : Programmer} {round : Round} {past : List Invocation}
    {device : Device} {events : Events} {station : Station}
    (h : Course programmer round past device events station) (phase : Phase) :
    phase.plan station.device = phase.plan device := by
  rcases h.device_eq with hdevice | ⟨own, flag, _, _, hdevice⟩
  · rw [hdevice]
  · rw [hdevice, Phase.plan_record]

namespace Threads

variable {setting : Setting} {s : State}

/-! ## Workers and devices -/

/-- The course of a worker, whatever the others did, with answers that the programmer
gave at some time. -/
theorem course_of_reachable (hreach : Reachable setting s) {round : Round} {position : Nat}
    {station : Station} (hget : (s.stations round)[position]? = some station) :
    ∃ device other, (s.roster setting.devices round)[position]? = some device ∧
      other.Echoes setting.programmer (fun _ _ => True) ∧
      Course other round (s.known setting.past round position) device
        (s.eventsOf (.worker round position)) station := by
  obtain ⟨device, hdevice, other, hechoes, hcourse⟩ :=
    @conducted_of_reachable setting (fun _ _ _ => True) (fun _ _ => trivial)
      (fun _ _ _ _ _ _ _ => trivial) s hreach round position station hget
  exact ⟨device, other, hdevice, hechoes, hcourse⟩

/-- A round is gone through with the devices of the run, and what it has for each of
them, and plans, is known from the start. -/
theorem origin_of_roster (hreach : Reachable setting s) {round : Round} {position : Nat}
    {device : Device} (hget : (s.roster setting.devices round)[position]? = some device) :
    ∃ origin, setting.devices[position]? = some origin ∧ device.serial = origin.serial ∧
      round.phase? device = round.phase? origin ∧
      ∀ phase : Phase, phase.plan device = phase.plan origin := by
  cases round with
  | first => exact ⟨device, hget, rfl, rfl, fun _ => rfl⟩
  | second =>
    simp only [State.roster, List.getElem?_map, Option.map_eq_some_iff] at hget
    obtain ⟨station, hstation, rfl⟩ := hget
    obtain ⟨origin, _, horigin, _, hcourse⟩ :=
      @course_of_reachable _ _ hreach .first _ _ hstation
    exact ⟨origin, horigin, hcourse.serial, hcourse.phase?_second, hcourse.plan_eq⟩

/-- A worker attends to the probe of the device at its position. -/
theorem serial_of_station (hreach : Reachable setting s) {round : Round} {position : Nat}
    {station : Station} (hget : (s.stations round)[position]? = some station) :
    ∃ origin, setting.devices[position]? = some origin ∧
      station.device.serial = origin.serial := by
  obtain ⟨device, _, hdevice, _, hcourse⟩ := course_of_reachable hreach hget
  obtain ⟨origin, horigin, hserial, _⟩ := origin_of_roster hreach hdevice
  exact ⟨origin, horigin, hcourse.serial.trans hserial⟩

/-! ## Who makes invocations -/

/-- What the orchestrator does is to announce. -/
theorem announced_of_orchestrator (hreach : Reachable setting s) :
    ∀ event ∈ s.eventsOf .orchestrator, event.Announced := by
  induction hreach with
  | refl =>
    intro event hevent
    cases hevent
  | tail _ hstep ih =>
    obtain ⟨thread, hstep⟩ := hstep
    by_cases hthread : Thread.orchestrator = thread
    · subst hthread
      obtain ⟨author, events, hdeeds, hannounced⟩ := deeds_of_step hstep
      intro event hevent
      rw [State.eventsOf_self hdeeds] at hevent
      rcases List.mem_append.1 hevent with hold | hnew
      · exact ih event hold
      · exact hannounced rfl event hnew
    · rw [eventsOf_of_step hstep hthread]
      exact ih

/-- What the orchestrator says is of no probe. -/
theorem isGeneral_of_orchestrator (hreach : Reachable setting s) :
    ∀ event ∈ s.eventsOf .orchestrator, event.isGeneral = true :=
  fun event hevent => (announced_of_orchestrator hreach event hevent).isGeneral

/-- An invocation is made by a worker, through the probe of the device at its
position, and is of a kind that its round has. -/
theorem origin_of_call (hreach : Reachable setting s) {deed : Deed} (hdeed : deed ∈ s.deeds)
    {call : Invocation} (hcall : deed.occurrence.event.call? = some call) :
    ∃ round position origin, deed.thread = .worker round position ∧
      setting.devices[position]? = some origin ∧ call.serial = origin.serial ∧
      round.allows call = true := by
  cases hthread : deed.thread with
  | orchestrator =>
    have hgeneral := isGeneral_of_orchestrator hreach _ (mem_eventsBy hdeed hthread)
    rw [Event.call?_of_isGeneral hgeneral] at hcall
    cases hcall
  | worker round position =>
    have hlt := (orderly_of_reachable hreach).staffed deed hdeed round position hthread
    obtain ⟨device, _, hdevice, _, hcourse⟩ :=
      course_of_reachable hreach (List.getElem?_eq_getElem hlt)
    obtain ⟨phase, hphase, hmakes⟩ := hcourse.makes (mem_eventsBy hdeed hthread) hcall
    obtain ⟨origin, horigin, hserial, _⟩ := origin_of_roster hreach hdevice
    exact ⟨round, position, origin, rfl, horigin, hmakes.serial.trans hserial,
      Round.allows_of_makes hphase hmakes⟩

/-! ## What is said to a probe -/

/-- Where no probe is listed twice, the serial tells the position. -/
theorem position_of_serial (hnodup : (setting.devices.map Device.serial).Nodup)
    {position place : Nat} {origin other : Device}
    (horigin : setting.devices[position]? = some origin)
    (hother : setting.devices[place]? = some other) (hserial : origin.serial = other.serial) :
    position = place := by
  have hat : (setting.devices.map Device.serial)[position]? =
      (setting.devices.map Device.serial)[place]? := by
    simp [horigin, hother, hserial]
  have hlt : position < (setting.devices.map Device.serial).length := by
    rw [List.length_map]
    exact (List.getElem?_eq_some_iff.1 horigin).1
  exact (List.getElem?_inj hlt hnodup).1 hat

/-- Where no probe is listed twice, live workers of one probe are one worker. -/
theorem alone_of_live (hnodup : (setting.devices.map Device.serial).Nodup)
    (hreach : Reachable setting s) {round now : Round} {position place : Nat}
    {station other : Station} (hget : (s.stations round)[position]? = some station)
    (hget' : (s.stations now)[place]? = some other) (hlive : station.stage.isLive = true)
    (hlive' : other.stage.isLive = true) (hserial : station.device.serial = other.device.serial) :
    round = now ∧ position = place := by
  have horderly := orderly_of_reachable hreach
  obtain ⟨origin, horigin, hsame⟩ := serial_of_station hreach hget
  obtain ⟨origin', horigin', hsame'⟩ := serial_of_station hreach hget'
  have hround := (horderly.round_of_live hget hlive).1
  have hnow := (horderly.round_of_live hget' hlive').1
  refine ⟨hround.trans hnow.symm, ?_⟩
  apply position_of_serial hnodup horigin horigin'
  rw [← hsame, ← hsame', hserial]

/-- What concerns a probe was done by a thread if all invocations of the probe,
and no others, are among what the thread did. -/
theorem about_events {serial : Serial} {thread : Thread} {deeds : List Deed}
    (h : ∀ deed ∈ deeds, ∀ call, deed.occurrence.event.call? = some call →
      (call.serial = serial ↔ deed.thread = thread)) :
    Events.about serial (deeds.map (·.occurrence.event)) =
      Events.calls (eventsBy thread deeds) := by
  induction deeds with
  | nil => rfl
  | cons deed rest ih =>
    have hrest := ih fun other hmem => h other (List.mem_cons_of_mem _ hmem)
    have hfirst := h deed List.mem_cons_self
    unfold Events.about Events.calls eventsBy at hrest ⊢
    by_cases hthread : deed.thread = thread
    · cases hcall : deed.occurrence.event.call? with
      | none => simp [hthread, hcall, hrest]
      | some call =>
        have hserial := (hfirst call hcall).2 hthread
        simp [hthread, hcall, hserial, hrest]
    · cases hcall : deed.occurrence.event.call? with
      | none => simp [hthread, hcall, hrest]
      | some call =>
        have hserial : call.serial ≠ serial := fun heq => hthread ((hfirst call hcall).1 heq)
        simp [hthread, hcall, hserial, hrest]

/-- What was said to a probe is what its worker did in the first round, and then
what its worker did in the second. -/
theorem dialogue_eq (hnodup : (setting.devices.map Device.serial).Nodup)
    (hreach : Reachable setting s) {position : Nat} {origin : Device}
    (horigin : setting.devices[position]? = some origin) :
    s.trace.dialogue origin.serial =
      Events.calls (s.eventsOf (.worker .first position)) ++
        Events.calls (s.eventsOf (.worker .second position)) := by
  have hunique : ∀ deed ∈ s.deeds, ∀ call, deed.occurrence.event.call? = some call →
      ∃ round, deed.thread.round? = some round ∧
        (call.serial = origin.serial ↔ deed.thread = .worker round position) := by
    intro deed hdeed call hcall
    obtain ⟨round, place, other, hthread, hother, hserial, _⟩ := origin_of_call hreach hdeed hcall
    refine ⟨round, by rw [hthread]; rfl, ?_⟩
    rw [hserial, hthread]
    constructor
    · intro hsame
      rw [position_of_serial hnodup hother horigin hsame]
    · intro hsame
      simp only [Thread.worker.injEq, true_and] at hsame
      rw [hsame, horigin, Option.some.injEq] at hother
      rw [hother]
  have htrace : s.trace.events = s.deeds.map (·.occurrence.event) := List.map_map
  have hsplit : ∀ (part : List Deed) (round : Round), (∀ deed ∈ part, deed ∈ s.deeds) →
      (∀ deed ∈ part, ∀ other, deed.thread.round? = some other → other = round) →
      Events.about origin.serial (part.map (·.occurrence.event)) =
        Events.calls (eventsBy (.worker round position) part) := by
    intro part round hpart hround
    apply about_events
    intro deed hdeed call hcall
    obtain ⟨other, hother, hiff⟩ := hunique deed (hpart deed hdeed) call hcall
    rw [hround deed hdeed other hother] at hiff
    exact hiff
  have hapart := (orderly_of_reachable hreach).apart
  unfold Trace.dialogue State.eventsOf
  rw [htrace]
  cases hnow : s.post.round with
  | first =>
    rw [hnow] at hapart
    rw [eventsBy_eq_nil_of_round hapart, Events.calls_nil, List.append_nil]
    apply hsplit _ _ fun _ h => h
    intro deed hdeed other hother
    cases other with
    | first => rfl
    | second => exact absurd hother (hapart deed hdeed)
  | second =>
    rw [hnow] at hapart
    obtain ⟨before, after, hdeeds, hbefore, hafter⟩ := hapart
    have hfirst : eventsBy (.worker .first position) (firstRoundOver :: after) = [] := by
      apply eventsBy_eq_nil_of_round
      exact List.forall_mem_cons.2 ⟨by decide, hafter⟩
    have hsecond : eventsBy (.worker .second position) before = [] :=
      eventsBy_eq_nil_of_round hbefore position
    have hearly := hsplit before .first (fun deed h => by rw [hdeeds]; simp [h]) <| by
      intro deed hdeed other hother
      cases other with
      | first => rfl
      | second => exact absurd hother (hbefore deed hdeed)
    have hlate := hsplit (firstRoundOver :: after) .second
      (fun deed h => by rw [hdeeds]; exact List.mem_append_right before h) <| by
      intro deed hdeed other hother
      rcases List.mem_cons.1 hdeed with rfl | hdeed
      · cases hother
      · cases other with
        | first => exact absurd hother (hafter deed hdeed)
        | second => rfl
    rw [hdeeds, List.map_append, Events.about_append, hearly, hlate, eventsBy_append,
      eventsBy_append, hfirst, hsecond, List.append_nil, List.nil_append]

/-- Nothing is said to a probe that no device has. -/
theorem dialogue_eq_nil (hreach : Reachable setting s) {serial : Serial}
    (h : ∀ origin ∈ setting.devices, origin.serial ≠ serial) : s.trace.dialogue serial = [] := by
  apply Events.about_eq_nil
  intro event hevent call hcall
  obtain ⟨occurrence, hoccurrence, rfl⟩ := List.mem_map.1 hevent
  obtain ⟨deed, hdeed, rfl⟩ := List.mem_map.1 hoccurrence
  obtain ⟨_, _, origin, _, horigin, hserial, _⟩ := origin_of_call hreach hdeed hcall
  rw [hserial]
  exact h origin (List.mem_of_getElem? horigin)

end Threads

end FlashFleet
