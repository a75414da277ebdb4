import FlashFleet.Proofs.Floor
import FlashFleet.Proofs.Ownership
/-!
# Schedulers for given moves

Moves that are possible where they are made are those of some scheduler. One
scheduler serves both rounds of a run, for it sees from the phases of the
stations in which round it is asked.

## Main results

* `run_of_moved` — a floor at its end is reached by every scheduler that chooses
  the moves made.
* `chooses_both` — there is one that chooses them in both rounds.
-/

namespace FlashFleet

/-! ## Phases of workers -/

/-- The phase that a worker waits for or is in. -/
def Stage.phase? : Stage → Option Phase
  | .queued phase => some phase
  | .dispatched phase => some phase
  | .acting phase _ => some phase
  | .calling phase _ _ _ => some phase
  | .failing phase _ => some phase
  | .resetting phase _ => some phase
  | .resetFailed phase _ _ => some phase
  | .reporting phase _ => some phase
  | .idle => none
  | .finished => none
  | .crashed _ => none

/-- A worker that waits for its dispatch or is live has a phase. -/
theorem Stage.exists_phase {stage : Stage} (h : stage.isQueued = true ∨ stage.isLive = true) :
    ∃ phase, stage.phase? = some phase := by
  cases stage with
  | idle => exact absurd h (by decide)
  | finished => exact absurd h (by decide)
  | crashed text => exact absurd h (by simp [isQueued, isLive])
  | _ => exact ⟨_, rfl⟩

/-- A worker keeps its phase as long as it has one. -/
theorem Station.phase?_step (programmer : Programmer) (past : List Invocation) (station : Station) :
    ∀ phase, (station.step programmer past).2.stage.phase? = some phase →
      station.stage.phase? = some phase := by
  obtain ⟨device, stage⟩ := station
  intro phase h
  cases stage with
  | acting now todo =>
    cases todo with
    | nil => exact h
    | cons action todo =>
      cases action with
      | crash text => cases h
      | _ => exact h
  | calling now call outcome sequel =>
    cases outcome with
    | crashed text => cases h
    | _ => cases sequel <;> exact h
  | reporting now flag => cases h
  | _ => exact h

namespace Parallel

/-- All phases are of the round. -/
def OfRound (round : Round) (stations : List Station) : Prop :=
  ∀ station ∈ stations, ∀ phase, station.stage.phase? = some phase → phase.round = round

theorem ofRound_enter (round : Round) (devices : List Device) :
    OfRound round (Floor.enter round devices).stations := by
  intro station hmem phase hphase
  obtain ⟨device, _, rfl⟩ := List.mem_map.1 hmem
  cases hwork : round.phase? device with
  | none =>
    rw [Station.enter_of_none hwork] at hphase
    cases hphase
  | some other =>
    rw [Station.enter_of_some hwork] at hphase
    cases hphase
    exact Round.round_of_phase? hwork

/-- A move keeps the phases in the round. -/
theorem ofRound_make (programmer : Programmer) {round : Round} (past : List Invocation)
    {floor : Floor} (h : OfRound round floor.stations) {move : Move}
    (hmove : move ∈ moves floor.stations) :
    OfRound round (floor.make programmer round past move).stations := by
  rcases mem_moves hmove with ⟨rfl, hqueued⟩ | ⟨position, station, rfl, hget, _⟩
  · obtain ⟨before, device, phase, after, hstations, _, hdispatch⟩ :=
      @dispatchFirst_split round _ hqueued
    rw [hstations] at h
    simp only [Floor.make, hdispatch]
    intro station hmem other hother
    rcases List.mem_append.1 hmem with hmem | hmem
    · exact h station (List.mem_append_left _ hmem) other hother
    · rcases List.mem_cons.1 hmem with rfl | hmem
      · exact h ⟨device, .queued phase⟩ (by simp) other hother
      · exact h station (by simp [hmem]) other hother
  · simp only [Floor.make, hget]
    intro moved hmem other hother
    rcases List.mem_or_eq_of_mem_set hmem with hmem | rfl
    · exact h moved hmem other hother
    · have hkept := Station.phase?_step _ _ _ other hother
      exact h station (List.mem_of_getElem? hget) other hkept

/-! ## Moves that were made -/

/-- Moves one after another, each of them possible where it is made. -/
inductive Moved (programmer : Programmer) (round : Round) (past : List Invocation) :
    Floor → List Move → Floor → Prop where
  | nil (floor : Floor) : Moved programmer round past floor [] floor
  | cons {floor last : Floor} {move : Move} {later : List Move}
      (hmove : move ∈ moves floor.stations)
      (hlater : Moved programmer round past (floor.make programmer round past move) later last) :
      Moved programmer round past floor (move :: later) last

variable {programmer : Programmer} {round : Round} {past : List Invocation} {floor last : Floor}
  {made : List Move}

theorem Moved.snoc (h : Moved programmer round past floor made last) {move : Move}
    (hmove : move ∈ moves last.stations) :
    Moved programmer round past floor (made ++ [move])
      (last.make programmer round past move) := by
  induction h with
  | nil floor => exact .cons hmove (.nil _)
  | cons hfirst _ ih => exact .cons hfirst (ih hmove)

/-- The scheduler chooses these moves in the round. -/
def Chooses (scheduler : Scheduler) (round : Round) (made : List Move) : Prop :=
  ∀ (count : Nat) (move : Move) (stations : List Station), made[count]? = some move →
    move ∈ moves stations → OfRound round stations →
    scheduler count stations = (moves stations).idxOf move

/-- A scheduler that chooses a move makes it. -/
theorem step_of_idxOf {scheduler : Scheduler} {count : Nat} {move : Move}
    (hmove : move ∈ moves floor.stations)
    (hchoice : scheduler count floor.stations = (moves floor.stations).idxOf move) :
    floor.step programmer round past scheduler count = floor.make programmer round past move := by
  have hlt : (moves floor.stations).idxOf move < (moves floor.stations).length :=
    List.idxOf_lt_length_iff.2 hmove
  have hfound : (moves floor.stations)[(moves floor.stations).idxOf move]? = some move := by
    rw [List.getElem?_eq_getElem hlt, List.getElem_idxOf]
  simp only [Floor.step, hchoice, Nat.mod_eq_of_lt hlt, hfound]

/-- Every move that is made brings the round closer to its end. -/
theorem Moved.length_le (h : Moved programmer round past floor made last) :
    made.length ≤ floor.effort := by
  induction h with
  | nil floor => exact Nat.zero_le _
  | @cons floor last move later hmove hlater ih =>
    have hstep := @step_of_idxOf programmer round past floor
      (fun _ stations => (moves stations).idxOf move) 0 move hmove rfl
    have hlt := effort_step_lt programmer round past
      (fun _ stations => (moves stations).idxOf move) 0 (List.ne_nil_of_mem hmove)
    rw [hstep] at hlt
    show later.length + 1 ≤ floor.effort
    omega

/-- The floor after the moves is reached by a scheduler that chooses them, and is
not left when it is the end. -/
theorem steps_of_moved {scheduler : Scheduler} (h : Moved programmer round past floor made last)
    (hround : OfRound round floor.stations) (hend : moves last.stations = []) {size : Nat}
    (hsize : made.length ≤ size) (before : List Move)
    (hchooses : Chooses scheduler round (before ++ made)) :
    floor.steps programmer round past scheduler size before.length = last := by
  induction h generalizing size before with
  | nil floor => exact steps_of_moves_eq_nil hend size _
  | @cons floor last move later hmove hlater ih =>
    cases size with
    | zero => cases hsize
    | succ size =>
      have hchoice : scheduler before.length floor.stations =
          (moves floor.stations).idxOf move :=
        hchooses before.length move floor.stations (by simp) hmove hround
      rw [Floor.steps, step_of_idxOf hmove hchoice]
      have hrest := @ih (ofRound_make programmer past hround hmove) hend size
        (Nat.le_of_succ_le_succ hsize) (before ++ [move]) (by simpa using hchooses)
      rw [List.length_append] at hrest
      exact hrest

/-- A floor at its end is reached by every scheduler that chooses the moves made. -/
theorem run_of_moved {scheduler : Scheduler} {devices : List Device}
    (h : Moved programmer round past (.enter round devices) made last)
    (hend : moves last.stations = []) (hchooses : Chooses scheduler round made) :
    (Floor.enter round devices).run programmer round past scheduler = last :=
  steps_of_moved h (ofRound_enter round devices) hend h.length_le [] hchooses

/-! ## One scheduler for both rounds -/

/-- The scheduler that chooses given moves in the first round and others in the
second. -/
def both (first second : List Move) : Scheduler := fun count stations =>
  let made := if stations.any (·.stage.phase? == some .app) then second else first
  (moves stations).idxOf (made[count]?.getD .dispatch)

/-- In either round the moves given for it are chosen. -/
theorem chooses_both (first second : List Move) :
    Chooses (both first second) .first first ∧ Chooses (both first second) .second second := by
  constructor
  · intro count move stations hmove _ hround
    have hnone : stations.any (·.stage.phase? == some .app) = false := by
      rw [List.any_eq_false]
      intro station hmem hphase
      have happ := hround station hmem .app (by simpa using hphase)
      cases happ
    simp only [both, hnone, Bool.false_eq_true, if_false, hmove, Option.getD_some]
  · intro count move stations hmove hmem hround
    have hworking : ∃ station ∈ stations,
        station.stage.isQueued = true ∨ station.stage.isLive = true := by
      rcases mem_moves hmem with ⟨_, hqueued⟩ | ⟨_, station, _, hget, hlive⟩
      · obtain ⟨station, hstation, hqueued⟩ := List.any_eq_true.1 hqueued
        exact ⟨station, hstation, .inl hqueued⟩
      · exact ⟨station, List.mem_of_getElem? hget, .inr hlive⟩
    obtain ⟨station, hstation, hstage⟩ := hworking
    obtain ⟨phase, hphase⟩ := Stage.exists_phase hstage
    have happ : phase = .app := by
      have hsecond := hround station hstation phase hphase
      cases phase with
      | app => rfl
      | net => cases hsecond
      | reboot => cases hsecond
    have hany : stations.any (·.stage.phase? == some .app) = true := by
      rw [List.any_eq_true]
      exact ⟨station, hstation, by rw [hphase, happ]; rfl⟩
    simp only [both, hany, if_true, hmove, Option.getD_some]

end Parallel

end FlashFleet
