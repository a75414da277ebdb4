import FlashFleet.Proofs.Execution
import FlashFleet.Proofs.Ownership
/-!
# What a run can ask

The phases of a device are known before the run, and so is what they plan: its agenda. No
worker begins an invocation that is not on the agenda of its device, and no step looks at an
answer that was not asked for. So programmers that respond alike on the agenda of a fleet have
the same runs over it, however they respond to anything else.

## Main results

* `mem_agenda_of_next` — a worker keeps to the agenda.
* `Step.congr` — a step looks at no answer that is not on it.
* `comesTo_congr` — a run depends on the responses to what is on the agenda alone.
-/

namespace FlashFleet

/-- What may be asked for the device in a run: in each round what the phase plans, and the reset
behind it. -/
def Device.agenda (device : Device) : List Invocation :=
  [Round.first, .second].flatMap fun round =>
    (round.phase? device).toList.flatMap fun phase => phase.plan device ++ [.reset device.serial]

/-- What may be asked in a run over the devices. -/
def Fleet.agenda (devices : List Device) : List Invocation := devices.flatMap Device.agenda

/-- What is planned is on the agenda, if there is a round with the phase, and so is a reset. -/
theorem Device.mem_agenda {device : Device} {round : Round} {phase : Phase} {call : Invocation}
    (hphase : round.phase? device = some phase)
    (hcall : call ∈ phase.plan device ∨ call = .reset device.serial) : call ∈ device.agenda := by
  have hround : round ∈ [Round.first, .second] := by cases round <;> decide
  refine List.mem_flatMap.2 ⟨round, hround, List.mem_flatMap.2 ⟨phase, ?_, ?_⟩⟩
  · rw [hphase]
    exact List.mem_singleton_self phase
  · rcases hcall with hplanned | rfl
    · exact List.mem_append_left _ hplanned
    · exact List.mem_append_right _ (List.mem_singleton_self _)

/-- The programmers answer the invocations alike, whatever came before. -/
def Programmer.RespondsAs (programmer other : Programmer) (calls : List Invocation) : Prop :=
  ∀ past, ∀ call ∈ calls, programmer.respond past call = other.respond past call

namespace Threads

variable {setting : Setting} {s next : State} {thread : Thread}

/-- A worker keeps to the agenda of the fleet. -/
theorem mem_agenda_of_next (hreach : Reachable setting s) {round : Round} {position : Nat}
    {station : Station} (hget : (s.stations round)[position]? = some station)
    (hlive : station.stage.isLive = true) {call : Invocation}
    (hnext : station.next? = some call) : call ∈ Fleet.agenda setting.devices := by
  obtain ⟨device, _, hdevice, _, hcourse⟩ := course_of_reachable hreach hget
  obtain ⟨phase, hphase, path⟩ := hcourse.of_live hlive
  obtain ⟨origin, horigin, hserial, hsame, hplan⟩ := origin_of_roster hreach hdevice
  refine List.mem_flatMap.2 ⟨origin, List.mem_of_getElem? horigin,
    Device.mem_agenda (hsame.symm.trans hphase) ?_⟩
  rw [← hplan, ← hserial]
  exact (path.faithful.makes_next hnext).imp_left Phase.mem_plan

/-! ## Programmers that respond alike -/

variable {other : Programmer}

/-- A step is one with the other programmer too. -/
theorem Step.congr
    (halike : setting.programmer.RespondsAs other (Fleet.agenda setting.devices))
    (hreach : Reachable setting s) (hstep : Step setting s thread next) :
    Step { setting with programmer := other } s thread next := by
  cases hstep with
  | opening hpost => exact .opening hpost
  | dispatching hpost hget hstage hfirst => exact .dispatching hpost hget hstage hfirst
  | dispatched hpost hnone => exact .dispatched hpost hnone
  | join hpost hget hstage => exact .join hpost hget hstage
  | rethrow hpost hget hstage => exact .rethrow hpost hget hstage
  | joined hpost => exact .joined hpost
  | closing hpost => exact .closing hpost
  | unwound hpost hrest => exact .unwound hpost hrest
  | @working round position station hget hlive =>
    have hsame : ∀ past,
        station.step setting.programmer past = station.step other past := fun past =>
      Station.step_congr fun call hnext =>
        halike past call (mem_agenda_of_next hreach hget hlive hnext)
    have hwork : s.work setting round position station =
        s.work { setting with programmer := other } round position station := by
      simp only [State.work, hsame]
    rw [hwork]
    exact .working hget hlive

/-- What may come about with a programmer may come about with the other. -/
theorem reachable_congr
    (halike : setting.programmer.RespondsAs other (Fleet.agenda setting.devices))
    (hreach : Reachable setting s) : Reachable { setting with programmer := other } s := by
  induction hreach with
  | refl => exact .refl
  | tail hbefore hstep ih =>
    obtain ⟨thread, hstep⟩ := hstep
    exact ih.tail ⟨thread, hstep.congr halike hbefore⟩

/-- A run depends on the responses to what is on the agenda alone. -/
theorem comesTo_congr {programmer : Programmer} {mode : Mode} {past : List Invocation}
    {devices : List Device} (halike : programmer.RespondsAs other (Fleet.agenda devices))
    {run : FleetRun} (h : ComesTo (.of programmer mode past devices) run) :
    ComesTo (.of other mode past devices) run := by
  obtain ⟨s, hreach, hrun⟩ := h
  exact ⟨s, reachable_congr halike hreach, hrun⟩

end Threads

end FlashFleet
