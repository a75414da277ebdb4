import FlashFleet.Fleet.Station
/-!
# All devices at once

A parallel round is a row of stations, one for each device in the order of the
fleet. What may happen next is the dispatch of the first queued station or a
step of any live one; a scheduler decides between them. The round ends when
nothing can move any more. Then it is closed, or the crash of the first
station that crashed, in the order of the fleet, ends the run.

Every order of events that the workers can produce is that of some scheduler,
so what holds for all schedulers holds whatever the timing.

## Main results

* `effort_step_lt` — the round comes closer to its end as long as something
  can move.
-/

namespace FlashFleet.Parallel

/-! ## Moves -/

/-- What may happen next: a dispatch, or a step of the station at a position. -/
inductive Move where
  | dispatch
  | advance (position : Nat)
  deriving DecidableEq, Repr

/-- A choice between the possible moves, given how many moves were made and
where the stations are. The moves are counted cyclically. -/
abbrev Scheduler := Nat → List Station → Nat

/-- The positions of the live stations, the first one being at `start`. -/
def livePositions (start : Nat) : List Station → List Nat
  | [] => []
  | station :: rest =>
    if station.stage.isLive then start :: livePositions (start + 1) rest
    else livePositions (start + 1) rest

/-- The possible moves: the dispatch, if a station is queued, and then the live
stations in order. -/
def moves (stations : List Station) : List Move :=
  (if stations.any (·.stage.isQueued) then [.dispatch] else []) ++
    (livePositions 0 stations).map .advance

/-- A bound on the moves that stations may make to their ends, all together. -/
def total : List Station → Nat
  | [] => 0
  | station :: rest => station.remaining + total rest

/-! ## The round under way -/

/-- The stations of a round, and what has happened in it. -/
structure Floor where
  stations : List Station
  trace : Trace
  deriving DecidableEq, Repr

namespace Floor

/-- Dispatches the first queued station. -/
def dispatchFirst (round : Round) : List Station → Events × List Station
  | [] => ([], [])
  | station :: rest =>
    match station.stage with
    | .queued phase =>
      (round.dispatch phase station.device.serial, station.moveTo (.dispatched phase) :: rest)
    | _ =>
      let later := dispatchFirst round rest
      (later.1, station :: later.2)

/-- Makes a move. `past` holds the invocations before the round. -/
def make (programmer : Programmer) (round : Round) (past : List Invocation) (floor : Floor) :
    Move → Floor
  | .dispatch =>
    let (events, stations) := dispatchFirst round floor.stations
    ⟨stations, floor.trace ++ events.authoredBy .orchestrator⟩
  | .advance position =>
    match floor.stations[position]? with
    | none => floor
    | some station =>
      let (events, moved) := station.step programmer (past ++ floor.trace.invocations)
      ⟨floor.stations.set position moved,
        floor.trace ++ events.authoredBy (.worker station.device.serial)⟩

/-- Makes the move that the scheduler chooses, if there is one to choose. -/
def step (programmer : Programmer) (round : Round) (past : List Invocation)
    (scheduler : Scheduler) (count : Nat) (floor : Floor) : Floor :=
  let possible := moves floor.stations
  match possible[scheduler count floor.stations % possible.length]? with
  | none => floor
  | some move => floor.make programmer round past move

/-- Makes a number of moves. -/
def steps (programmer : Programmer) (round : Round) (past : List Invocation)
    (scheduler : Scheduler) : (moves : Nat) → (count : Nat) → Floor → Floor
  | 0, _, floor => floor
  | moves + 1, count, floor =>
    steps programmer round past scheduler moves (count + 1)
      (floor.step programmer round past scheduler count)

/-- A bound on the moves to the end. -/
def effort (floor : Floor) : Nat := total floor.stations

/-- The floor at the start of a round. -/
def enter (round : Round) (devices : List Device) : Floor := ⟨devices.map (.enter round), []⟩

/-- The floor at the end of the round. -/
def run (programmer : Programmer) (round : Round) (past : List Invocation)
    (scheduler : Scheduler) (floor : Floor) : Floor :=
  floor.steps programmer round past scheduler floor.effort 0

/-- What the workers of a round came to. -/
def result (floor : Floor) : FleetRun :=
  { trace := floor.trace
    devices := floor.stations.map Station.device
    crash := floor.stations.findSome? fun station => station.stage.crash? }

end Floor

/-- A parallel round. -/
def run (programmer : Programmer) (round : Round) (past : List Invocation)
    (scheduler : Scheduler) (devices : List Device) : FleetRun :=
  let floor := (Floor.enter round devices).run programmer round past scheduler
  (floor.result.closed round).after ((round.opening devices).authoredBy .orchestrator)

/-! ## Schedulers -/

/-- The least of some serials. -/
def leastSerial : List Serial → Option Serial
  | [] => none
  | serial :: rest =>
    match leastSerial rest with
    | none => some serial
    | some least => some (if serial ≤ least then serial else least)

/-- Dispatches everything first, and then lets one worker after another run to
its end, that of the least serial first. -/
def ascending : Scheduler := fun _ stations =>
  if stations.any (·.stage.isQueued) then 0
  else
    let live := stations.filter (·.stage.isLive)
    match leastSerial (live.map (·.device.serial)) with
    | none => 0
    | some least => live.findIdx fun station => station.device.serial == least

/-! ## The end of a round -/

/-- A live position is that of a live station. -/
theorem getElem?_of_mem_livePositions {start position : Nat} {stations : List Station}
    (h : position ∈ livePositions start stations) :
    start ≤ position ∧
      ∃ station, stations[position - start]? = some station ∧ station.stage.isLive = true := by
  induction stations generalizing start with
  | nil => simp [livePositions] at h
  | cons station rest ih =>
    have later : position ∈ livePositions (start + 1) rest →
        start ≤ position ∧ ∃ found, (station :: rest)[position - start]? = some found ∧
          found.stage.isLive = true := by
      intro hmem
      obtain ⟨hle, found, hget, hlive⟩ := ih hmem
      have hsub : position - start = (position - (start + 1)) + 1 := by omega
      exact ⟨by omega, found, by rw [hsub]; simpa using hget, hlive⟩
    by_cases hlive : station.stage.isLive = true
    · simp only [livePositions, hlive, if_true, List.mem_cons] at h
      rcases h with rfl | h
      · exact ⟨Nat.le_refl _, station, by simp, hlive⟩
      · exact later h
    · simp only [livePositions, hlive] at h
      exact later h

/-- A station closer to its end brings all of them closer. -/
theorem total_set_lt {stations : List Station} {position : Nat} {old new : Station}
    (hget : stations[position]? = some old) (hlt : new.remaining < old.remaining) :
    total (stations.set position new) < total stations := by
  induction stations generalizing position with
  | nil => simp at hget
  | cons head rest ih =>
    cases position with
    | zero =>
      simp only [List.getElem?_cons_zero, Option.some.injEq] at hget
      subst hget
      simp only [List.set_cons_zero, total]
      omega
    | succ position =>
      simp only [List.getElem?_cons_succ] at hget
      have := ih hget
      simp only [List.set_cons_succ, total]
      omega

/-- A dispatch brings the round closer to its end. -/
theorem effort_dispatchFirst_lt {round : Round} {stations : List Station}
    (h : stations.any (·.stage.isQueued) = true) :
    total (Floor.dispatchFirst round stations).2 < total stations := by
  induction stations with
  | nil => simp at h
  | cons station rest ih =>
    obtain ⟨device, stage⟩ := station
    by_cases hqueued : stage.isQueued = true
    · cases stage <;> simp_all [Stage.isQueued, Floor.dispatchFirst, Station.moveTo,
        Station.remaining, total]
    · have hrest : rest.any (·.stage.isQueued) = true := by simpa [hqueued] using h
      have := ih hrest
      cases stage <;> simp_all [Stage.isQueued, Floor.dispatchFirst, total]

/-- The round comes closer to its end as long as something can move. -/
theorem effort_step_lt (programmer : Programmer) (round : Round) (past : List Invocation)
    (scheduler : Scheduler) (count : Nat) {floor : Floor} (h : moves floor.stations ≠ []) :
    (floor.step programmer round past scheduler count).effort < floor.effort := by
  have hpos : 0 < (moves floor.stations).length := List.length_pos_iff.2 h
  have hlt := Nat.mod_lt (scheduler count floor.stations) hpos
  simp only [Floor.step, List.getElem?_eq_getElem hlt]
  have hmem := List.getElem_mem hlt
  revert hmem
  generalize (moves floor.stations)[scheduler count floor.stations %
    (moves floor.stations).length] = move
  intro hmem
  simp only [moves, List.mem_append, List.mem_map] at hmem
  rcases hmem with hmem | ⟨position, hposition, rfl⟩
  · split at hmem
    · next hqueued =>
      simp only [List.mem_singleton] at hmem
      subst hmem
      exact effort_dispatchFirst_lt hqueued
    · simp at hmem
  · obtain ⟨_, station, hget, hlive⟩ := getElem?_of_mem_livePositions hposition
    simp only [Nat.sub_zero] at hget
    simp only [Floor.make, hget, Floor.effort]
    exact total_set_lt hget (station.remaining_step_lt programmer _ hlive)

end FlashFleet.Parallel
