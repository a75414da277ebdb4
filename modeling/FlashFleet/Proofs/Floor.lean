import FlashFleet.Fleet.Parallel
import FlashFleet.Proofs.Worker
/-!
# The floor of a parallel round

Work is dispatched in the order of the fleet, so that the workers that were
dispatched stand before those that wait. A move is possible where work waits or a
worker is live, and after as many moves as there may be none is possible any
more.

## Main results

* `dispatchFirst_split` — who is dispatched next.
* `moves_eq_nil_iff` — where nothing can move, no work waits and no worker is live.
* `moves_steps_eq_nil` — the moves of a round come to an end.
-/

namespace FlashFleet

namespace Stage

/-- The worker was dispatched. -/
def wasDispatched : Stage → Bool
  | .idle | .queued _ => false
  | _ => true

theorem wasDispatched_of_isLive {stage : Stage} (hlive : stage.isLive = true) :
    stage.wasDispatched = true := by
  cases stage <;> first | rfl | cases hlive

end Stage

namespace Station

/-- No worker was dispatched at the start of a round. -/
theorem wasDispatched_enter (round : Round) (device : Device) :
    (Station.enter round device).stage.wasDispatched = false := by
  unfold Station.enter
  split <;> rfl

/-- A live worker is still one that was dispatched after its step. -/
theorem wasDispatched_step (programmer : Programmer) (past : List Invocation) {station : Station}
    (hlive : station.stage.isLive = true) :
    (station.step programmer past).2.stage.wasDispatched = true ∧
      (station.step programmer past).2.stage.isQueued = false := by
  obtain ⟨device, stage⟩ := station
  cases stage with
  | idle => cases hlive
  | queued phase => cases hlive
  | finished => cases hlive
  | crashed text => cases hlive
  | acting phase todo =>
    cases todo with
    | nil => exact ⟨rfl, rfl⟩
    | cons action todo => cases action <;> exact ⟨rfl, rfl⟩
  | calling phase call outcome sequel => cases outcome <;> cases sequel <;> exact ⟨rfl, rfl⟩
  | _ => exact ⟨rfl, rfl⟩

end Station

namespace Parallel

/-! ## Who was dispatched -/

/-- The positions of the stations whose workers were dispatched, behind `start`. -/
def dispatchedFrom (start : Nat) : List Station → List Nat
  | [] => []
  | station :: rest =>
    if station.stage.wasDispatched then start :: dispatchedFrom (start + 1) rest
    else dispatchedFrom (start + 1) rest

/-- Behind a station whose work waits for its dispatch no worker was
dispatched. -/
def InOrder (stations : List Station) : Prop :=
  stations.Pairwise fun a b => a.stage.isQueued = true → b.stage.wasDispatched = false

theorem le_of_mem_dispatchedFrom {start position : Nat} {stations : List Station}
    (h : position ∈ dispatchedFrom start stations) : start ≤ position := by
  induction stations generalizing start with
  | nil => cases h
  | cons station rest ih =>
    unfold dispatchedFrom at h
    split at h
    · rcases List.mem_cons.1 h with rfl | h
      · exact Nat.le_refl _
      · have hlater := ih h
        omega
    · have hlater := ih h
      omega

/-- The positions stand in their order. -/
theorem pairwise_dispatchedFrom (start : Nat) (stations : List Station) :
    (dispatchedFrom start stations).Pairwise (· < ·) := by
  induction stations generalizing start with
  | nil => exact .nil
  | cons station rest ih =>
    unfold dispatchedFrom
    split
    · refine List.pairwise_cons.2 ⟨?_, ih (start + 1)⟩
      intro position hposition
      exact le_of_mem_dispatchedFrom hposition
    · exact ih (start + 1)

theorem mem_dispatchedFrom {position : Nat} {stations : List Station} {station : Station}
    (hget : stations[position]? = some station) (hdispatched : station.stage.wasDispatched = true)
    (start : Nat) : start + position ∈ dispatchedFrom start stations := by
  induction stations generalizing start position with
  | nil => cases hget
  | cons head rest ih =>
    unfold dispatchedFrom
    cases position with
    | zero =>
      have hhead : head = station := by simpa using hget
      rw [hhead, if_pos hdispatched]
      exact List.mem_cons_self
    | succ position =>
      have hlater : start + (position + 1) ∈ dispatchedFrom (start + 1) rest := by
        have hin := ih (by simpa using hget) (start + 1)
        rwa [Nat.add_assoc, Nat.add_comm 1 position] at hin
      by_cases hhead : head.stage.wasDispatched = true
      · rw [if_pos hhead]
        exact List.mem_cons_of_mem _ hlater
      · rw [if_neg hhead]
        exact hlater

theorem dispatchedFrom_append (start : Nat) (a b : List Station) :
    dispatchedFrom start (a ++ b) =
      dispatchedFrom start a ++ dispatchedFrom (start + a.length) b := by
  induction a generalizing start with
  | nil => rfl
  | cons station rest ih =>
    have hsize : start + (station :: rest).length = start + 1 + rest.length := by
      rw [List.length_cons]
      omega
    rw [hsize]
    by_cases h : station.stage.wasDispatched = true
    · simp only [List.cons_append, dispatchedFrom, h, if_true, ih]
    · simp only [List.cons_append, dispatchedFrom, if_neg h, ih]

theorem dispatchedFrom_eq_nil {stations : List Station}
    (h : ∀ station ∈ stations, station.stage.wasDispatched = false) (start : Nat) :
    dispatchedFrom start stations = [] := by
  induction stations generalizing start with
  | nil => rfl
  | cons station rest ih =>
    have hfirst := h station List.mem_cons_self
    simp only [dispatchedFrom, hfirst, Bool.false_eq_true, if_false]
    exact ih (fun other hmem => h other (List.mem_cons_of_mem _ hmem)) (start + 1)

/-- A worker that goes on is still one that was dispatched. -/
theorem dispatchedFrom_moved {before after : List Station} {station moved : Station}
    (h : moved.stage.wasDispatched = station.stage.wasDispatched) (start : Nat) :
    dispatchedFrom start (before ++ moved :: after) =
      dispatchedFrom start (before ++ station :: after) := by
  rw [dispatchedFrom_append, dispatchedFrom_append]
  simp only [dispatchedFrom, h]

theorem InOrder.moved {before after : List Station} {station moved : Station}
    (h : InOrder (before ++ station :: after))
    (hqueued : moved.stage.isQueued = true → station.stage.isQueued = true)
    (hdispatched : moved.stage.wasDispatched = station.stage.wasDispatched) :
    InOrder (before ++ moved :: after) := by
  unfold InOrder at h ⊢
  rw [List.pairwise_append, List.pairwise_cons] at h ⊢
  obtain ⟨hbefore, ⟨hafter, hrest⟩, hcross⟩ := h
  refine ⟨hbefore, ⟨fun other hmem hm => hafter other hmem (hqueued hm), hrest⟩, ?_⟩
  intro earlier hearlier other hmem hm
  rcases List.mem_cons.1 hmem with rfl | hmem
  · rw [hdispatched]
    exact hcross earlier hearlier station List.mem_cons_self hm
  · exact hcross earlier hearlier other (List.mem_cons_of_mem _ hmem) hm

/-- At the start of a round nobody was dispatched. -/
theorem dispatchedFrom_enter (round : Round) (devices : List Device) :
    dispatchedFrom 0 (Floor.enter round devices).stations = [] := by
  apply dispatchedFrom_eq_nil
  intro station hmem
  obtain ⟨device, _, rfl⟩ := List.mem_map.1 hmem
  exact Station.wasDispatched_enter round device

theorem inOrder_enter (round : Round) (devices : List Device) :
    InOrder (Floor.enter round devices).stations := by
  apply List.pairwise_of_forall_mem_list
  intro _ _ station hmem _
  obtain ⟨device, _, rfl⟩ := List.mem_map.1 hmem
  exact Station.wasDispatched_enter round device

/-- The first station that waits for its dispatch is dispatched. -/
theorem dispatchFirst_split {round : Round} {stations : List Station}
    (h : stations.any (·.stage.isQueued) = true) :
    ∃ before device phase after,
      stations = before ++ ⟨device, .queued phase⟩ :: after ∧
      (∀ station ∈ before, station.stage.isQueued = false) ∧
      Floor.dispatchFirst round stations =
        (round.dispatch phase device.serial, before ++ ⟨device, .dispatched phase⟩ :: after) := by
  induction stations with
  | nil => cases h
  | cons station rest ih =>
    obtain ⟨device, stage⟩ := station
    by_cases hqueued : stage.isQueued = true
    · cases stage with
      | queued phase =>
        refine ⟨[], device, phase, rest, rfl, List.forall_mem_nil _, ?_⟩
        simp only [Floor.dispatchFirst, Station.moveTo, List.nil_append]
      | _ => cases hqueued
    · have hrest : rest.any (·.stage.isQueued) = true := by simpa [hqueued] using h
      obtain ⟨before, first, phase, after, rfl, hbefore, hdispatch⟩ := ih hrest
      refine ⟨⟨device, stage⟩ :: before, first, phase, after, rfl, ?_, ?_⟩
      · exact List.forall_mem_cons.2 ⟨by simpa using hqueued, hbefore⟩
      · unfold Floor.dispatchFirst
        rw [hdispatch]
        cases stage with
        | queued other => exact absurd rfl hqueued
        | _ => rfl

/-! ## The moves to the end -/

/-- A live station has a live position. -/
theorem mem_livePositions {stations : List Station} {position : Nat} {station : Station}
    (hget : stations[position]? = some station) (hlive : station.stage.isLive = true)
    (start : Nat) : start + position ∈ livePositions start stations := by
  induction stations generalizing start position with
  | nil => cases hget
  | cons head rest ih =>
    unfold livePositions
    cases position with
    | zero =>
      have hhead : head = station := by simpa using hget
      rw [hhead, if_pos hlive]
      exact List.mem_cons_self
    | succ position =>
      have hlater : start + (position + 1) ∈ livePositions (start + 1) rest := by
        have hin := ih (by simpa using hget) (start + 1)
        rwa [Nat.add_assoc, Nat.add_comm 1 position] at hin
      by_cases hhead : head.stage.isLive = true
      · rw [if_pos hhead]
        exact List.mem_cons_of_mem _ hlater
      · rw [if_neg hhead]
        exact hlater

theorem dispatch_mem_moves {stations : List Station}
    (hqueued : stations.any (·.stage.isQueued) = true) : .dispatch ∈ moves stations := by
  unfold moves
  rw [if_pos hqueued]
  exact List.mem_cons_self

theorem advance_mem_moves {stations : List Station} {position : Nat} {station : Station}
    (hget : stations[position]? = some station) (hlive : station.stage.isLive = true) :
    .advance position ∈ moves stations := by
  have hposition := mem_livePositions hget hlive 0
  rw [Nat.zero_add] at hposition
  exact List.mem_append_right _ (List.mem_map_of_mem hposition)

/-- What is possible is the dispatch of work that waits, or a step of a live
worker. -/
theorem mem_moves {stations : List Station} {move : Move} (h : move ∈ moves stations) :
    (move = .dispatch ∧ stations.any (·.stage.isQueued) = true) ∨
      ∃ position station, move = .advance position ∧ stations[position]? = some station ∧
        station.stage.isLive = true := by
  unfold moves at h
  rcases List.mem_append.1 h with h | h
  · by_cases hqueued : stations.any (·.stage.isQueued) = true
    · rw [if_pos hqueued, List.mem_singleton] at h
      exact .inl ⟨h, hqueued⟩
    · rw [if_neg hqueued] at h
      cases h
  · obtain ⟨position, hposition, rfl⟩ := List.mem_map.1 h
    obtain ⟨_, station, hget, hlive⟩ := getElem?_of_mem_livePositions hposition
    exact .inr ⟨position, station, rfl, hget, hlive⟩

/-- Where nothing can move, no work waits and no worker is live. -/
theorem moves_eq_nil_iff {stations : List Station} :
    moves stations = [] ↔
      ∀ station ∈ stations, station.stage.isQueued = false ∧ station.stage.isLive = false := by
  constructor
  · intro h station hmem
    constructor
    · rw [← Bool.not_eq_true]
      intro hqueued
      have hmove := dispatch_mem_moves (List.any_eq_true.2 ⟨station, hmem, hqueued⟩)
      rw [h] at hmove
      cases hmove
    · rw [← Bool.not_eq_true]
      intro hlive
      obtain ⟨position, hget⟩ := List.getElem?_of_mem hmem
      have hmove := advance_mem_moves hget hlive
      rw [h] at hmove
      cases hmove
  · intro h
    apply List.eq_nil_iff_forall_not_mem.2
    intro move hmove
    rcases mem_moves hmove with ⟨_, hqueued⟩ | ⟨_, station, _, hget, hlive⟩
    · obtain ⟨station, hmem, hqueued⟩ := List.any_eq_true.1 hqueued
      rw [(h station hmem).1] at hqueued
      cases hqueued
    · rw [(h station (List.mem_of_getElem? hget)).2] at hlive
      cases hlive

/-- Where nothing can move, nothing moves. -/
theorem steps_of_moves_eq_nil {programmer : Programmer} {round : Round} {past : List Invocation}
    {scheduler : Scheduler} {floor : Floor} (h : moves floor.stations = []) (size count : Nat) :
    floor.steps programmer round past scheduler size count = floor := by
  induction size generalizing count with
  | zero => rfl
  | succ size ih =>
    have hstep : floor.step programmer round past scheduler count = floor := by
      simp [Floor.step, h]
    rw [Floor.steps, hstep]
    exact ih (count + 1)

/-- After as many moves as there may be, nothing can move any more. -/
theorem moves_steps_eq_nil (programmer : Programmer) (round : Round) (past : List Invocation)
    (scheduler : Scheduler) {floor : Floor} {size : Nat} (count : Nat) (h : floor.effort ≤ size) :
    moves (floor.steps programmer round past scheduler size count).stations = [] := by
  induction size generalizing floor count with
  | zero =>
    by_cases hmoves : moves floor.stations = []
    · exact hmoves
    · have hlt := effort_step_lt programmer round past scheduler 0 hmoves
      omega
  | succ size ih =>
    by_cases hmoves : moves floor.stations = []
    · rw [steps_of_moves_eq_nil hmoves]
      exact hmoves
    · have hlt := effort_step_lt programmer round past scheduler count hmoves
      exact ih (count + 1) (by omega)

end Parallel

end FlashFleet
