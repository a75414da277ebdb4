import FlashFleet.Fleet.Round
/-!
# A device in a parallel round

In a parallel round every device with work has a worker of its own, and the
workers move in any order. A station is one device's place in such a round:
the device, and how far its worker has come. One step of a station makes at
most one thing happen that others could see between two others; beginning and
end of an invocation are two steps, so that invocations of different stations
may overlap.

## Main results

* `step_serial` — a station keeps its probe.
* `remaining_step_lt` — a live station comes closer to its end by each step.
-/

namespace FlashFleet

/-- What follows an invocation: the rest of the phase's work, or, after the
last reset, the report of a phase that came to a flag. -/
inductive Sequel where
  | work (todo : List Action)
  | report (flag : Flag)
  deriving DecidableEq, Repr

/-- How far the worker of a station has come. -/
inductive Stage where
  | idle
  | queued (phase : Phase)
  | dispatched (phase : Phase)
  | acting (phase : Phase) (todo : List Action)
  | calling (phase : Phase) (call : Invocation) (outcome : Outcome) (sequel : Sequel)
  | failing (phase : Phase) (fault : Fault)
  | resetting (phase : Phase) (flag : Flag)
  | resetFailed (phase : Phase) (flag : Flag) (fault : Fault)
  | reporting (phase : Phase) (flag : Flag)
  | finished
  | crashed (text : String)
  deriving DecidableEq, Repr

namespace Stage

/-- The worker was dispatched and has not come to an end. -/
def isLive : Stage → Bool
  | .idle | .queued _ | .finished | .crashed _ => false
  | _ => true

/-- The work waits for its dispatch. -/
def isQueued : Stage → Bool
  | .queued _ => true
  | _ => false

/-- The crash that ended the worker. -/
def crash? : Stage → Option String
  | .crashed text => some text
  | _ => none

/-- The invocation under way. -/
def inFlight? : Stage → Option Invocation
  | .calling _ call _ _ => some call
  | _ => none

end Stage

/-- One device's place in a parallel round. -/
structure Station where
  device : Device
  stage : Stage
  deriving DecidableEq, Repr

namespace Station

/-- A device at the start of a round. -/
def enter (round : Round) (device : Device) : Station :=
  match round.phase? device with
  | none => ⟨device, .idle⟩
  | some phase => ⟨device, .queued phase⟩

/-- The station with the flag of the phase recorded, about to reset. -/
def recorded (station : Station) (phase : Phase) (flag : Flag) : Station :=
  ⟨phase.record flag station.device, .resetting phase flag⟩

/-- The station at another stage. -/
def moveTo (station : Station) (stage : Stage) : Station := { station with stage := stage }

/-- An invocation that ended. -/
def settle (station : Station) (phase : Phase) (call : Invocation) (outcome : Outcome)
    (sequel : Sequel) : Events × Station :=
  let ended : Events := [.ended call outcome.fault?]
  match outcome, sequel with
  | .crashed text, _ => ([], station.moveTo (.crashed text))
  | .succeeded, .work todo => (ended, station.moveTo (.acting phase todo))
  | .failed fault, .work _ => (ended, station.moveTo (.failing phase fault))
  | .succeeded, .report flag => (ended, station.moveTo (.reporting phase flag))
  | .failed fault, .report flag => (ended, station.moveTo (.resetFailed phase flag fault))

/-- An invocation that begins. -/
def start (station : Station) (programmer : Programmer) (past : List Invocation) (phase : Phase)
    (call : Invocation) (sequel : Sequel) : Events × Station :=
  let response := programmer.respond past call
  (response.opening call, station.moveTo (.calling phase call response.outcome sequel))

/-- One step of the worker, after the invocations begun so far. -/
def step (programmer : Programmer) (past : List Invocation) (station : Station) :
    Events × Station :=
  let serial := station.device.serial
  match station.stage with
  | .idle | .queued _ | .finished | .crashed _ => ([], station)
  | .dispatched phase =>
    ([.phaseStarted serial phase], station.moveTo (.acting phase (phase.actions station.device)))
  | .acting phase [] => ([], station.recorded phase .done)
  | .acting phase (.say record :: todo) => ([.log record], station.moveTo (.acting phase todo))
  | .acting phase (.refuse fault :: _) => ([], station.moveTo (.failing phase fault))
  | .acting _ (.crash text :: _) => ([], station.moveTo (.crashed text))
  | .acting phase (.invoke call :: todo) => station.start programmer past phase call (.work todo)
  | .calling phase call outcome sequel => station.settle phase call outcome sequel
  | .failing phase fault =>
    ([.log (phase.failure serial fault)], station.recorded phase .failed)
  | .resetting phase flag => station.start programmer past phase (.reset serial) (.report flag)
  | .resetFailed phase flag fault =>
    ([.log (phase.resetFailure serial fault)], station.moveTo (.reporting phase flag))
  | .reporting phase flag => ([.phaseFinished serial phase flag], station.moveTo .finished)

/-- A bound on the steps from a stage to the end, the dispatch included. -/
def remaining (station : Station) : Nat :=
  match station.stage with
  | .idle | .finished | .crashed _ => 0
  | .queued phase => 2 * (phase.actions station.device).length + 7
  | .dispatched phase => 2 * (phase.actions station.device).length + 6
  | .acting _ todo => 2 * todo.length + 5
  | .calling _ _ _ (.work todo) => 2 * todo.length + 6
  | .failing .. => 5
  | .resetting .. => 4
  | .calling _ _ _ (.report _) => 3
  | .resetFailed .. => 2
  | .reporting .. => 1

/-! ## Steps -/

/-- A station keeps its probe. -/
theorem step_serial (programmer : Programmer) (past : List Invocation) (station : Station) :
    (station.step programmer past).2.device.serial = station.device.serial := by
  unfold step
  split <;> simp only [Station.moveTo, recorded, start, settle, Phase.record_serial]
  split <;> rfl

/-- A live station comes closer to its end by each step. -/
theorem remaining_step_lt (programmer : Programmer) (past : List Invocation) {station : Station}
    (h : station.stage.isLive = true) :
    (station.step programmer past).2.remaining < station.remaining := by
  obtain ⟨device, stage⟩ := station
  cases stage with
  | idle => simp [Stage.isLive] at h
  | queued phase => simp [Stage.isLive] at h
  | finished => simp [Stage.isLive] at h
  | crashed text => simp [Stage.isLive] at h
  | dispatched phase => simp [step, Station.moveTo, remaining]
  | acting phase todo =>
    cases todo with
    | nil => simp [step, recorded, remaining]
    | cons action todo =>
      cases action with
      | say record => simp [step, Station.moveTo, remaining]
      | invoke call =>
        simp [step, start, Station.moveTo, remaining]
        omega
      | refuse fault => simp [step, Station.moveTo, remaining]
      | crash text => simp [step, Station.moveTo, remaining]
  | calling phase call outcome sequel =>
    cases outcome <;> cases sequel <;> simp [step, settle, Station.moveTo, remaining]
  | failing phase fault => simp [step, recorded, remaining]
  | resetting phase flag => simp [step, start, Station.moveTo, remaining]
  | resetFailed phase flag fault => simp [step, Station.moveTo, remaining]
  | reporting phase flag => simp [step, Station.moveTo, remaining]

end Station

end FlashFleet
