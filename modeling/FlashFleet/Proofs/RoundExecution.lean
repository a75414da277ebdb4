import FlashFleet.Proofs.Progress
/-!
# A round is one of its threads

A sequential round is what the threads come to when each worker is let alone
until the next is dispatched. A parallel round is what they come to when the
scheduler decides who moves, up to where nobody can move any more, and then the
orchestrator joins all workers.

## Main results

* `performs_sequential`, `performs_parallel` — a round is one that the threads may
  go through.
-/

namespace FlashFleet

namespace Threads

open Parallel (dispatchedFrom dispatchedFrom_append dispatchedFrom_eq_nil dispatchedFrom_moved
  dispatchedFrom_enter dispatchFirst_split InOrder inOrder_enter moves_eq_nil_iff
  moves_steps_eq_nil)

variable {setting : Setting}

/-! ## Rounds -/

/-- From a state on the orchestrator and the stations of a round, those behind the
first, come to where the round came to. -/
def Performs (setting : Setting) (s : State) (round : Round) (before : List Station)
    (run : FleetRun) : Prop :=
  ∃ stations, stations.map Station.device = run.devices ∧
    Yields setting s round (.atEnd round run.crash) (before ++ stations) run.trace

namespace Performs

variable {s : State} {round : Round} {before : List Station} {later : Trace}
  {devices : List Device} {crash : Option String}

theorem of_yields {post : Post} {stations : List Station} {trace : Trace}
    (h : Yields setting s round post stations trace)
    (hlater : ∀ next, next.post = post → next.stations round = stations →
      next.trace = s.trace ++ trace →
      Performs setting next round before ⟨later, devices, crash⟩) :
    Performs setting s round before ⟨trace ++ later, devices, crash⟩ := by
  obtain ⟨next, hleads, hpost, hstations, hother, htrace⟩ := h
  obtain ⟨behind, hdevices, hyields⟩ := hlater next hpost hstations htrace
  exact ⟨behind, hdevices, .of_leads hleads hother htrace hyields⟩

/-- One more station belongs to the round. -/
theorem cons {station : Station}
    (h : Performs setting s round (before ++ [station]) ⟨later, devices, crash⟩) :
    Performs setting s round before ⟨later, station.device :: devices, crash⟩ := by
  obtain ⟨behind, hdevices, hyields⟩ := h
  refine ⟨station :: behind, congrArg (station.device :: ·) hdevices, ?_⟩
  rw [List.append_assoc] at hyields
  exact hyields

theorem after_moveTo {post : Post} {run : FleetRun}
    (hstep : Step setting s .orchestrator (s.moveTo post))
    (h : Performs setting (s.moveTo post) round before run) :
    Performs setting s round before run := by
  obtain ⟨behind, hdevices, hyields⟩ := h
  exact ⟨behind, hdevices, .after_moveTo hstep hyields⟩

end Performs

/-! ## A sequential round -/

/-- The orchestrator dispatches a phase and waits for it while nobody else
moves. -/
theorem yields_phase (hmode : setting.sequential = true) {s : State} {round : Round}
    {before rest : List Station} {device : Device} {phase : Phase}
    (hpost : s.post = .dispatching round [])
    (hstations : s.stations round = before ++ ⟨device, .queued phase⟩ :: rest)
    (hbefore : ∀ station ∈ before, station.stage.isQueued = false) {run : Phase.Run}
    (hrun : phase.run setting.programmer (setting.past ++ s.trace.invocations) device = run) :
    Yields setting s round (.awaiting round before.length [])
      (before ++ ⟨run.device, .over run.crash⟩ :: rest)
      ((round.dispatch phase device.serial).authoredBy .orchestrator ++
        run.events.authoredBy (.worker device.serial)) := by
  have hget : (s.stations round)[before.length]? = some ⟨device, .queued phase⟩ := by
    rw [hstations]
    simp
  have hfirst : ∀ earlier ∈ (s.stations round).take before.length,
      earlier.stage.isQueued = false := by
    rw [hstations]
    simpa using hbefore
  have hset : ∀ now moved : Station,
      (before ++ now :: rest).set before.length moved = before ++ moved :: rest := by
    intro now moved
    simp
  have hdispatch := @Yields.of_dispatch setting _ _ _ _ _ _ hpost hget rfl hfirst
  rw [hstations, hset, hmode] at hdispatch
  apply hdispatch.trans
  intro next hnext hsame htrace
  have hnow : (next.stations round)[before.length]? = some ⟨device, .dispatched phase⟩ := by
    rw [hsame]
    simp [Station.moveTo]
  have hpast : next.trace.invocations = s.trace.invocations := by
    rw [htrace, Trace.invocations_append, Trace.invocations_authoredBy]
    exact List.append_nil _
  have hsolo := @yields_solo setting next _ _ _ hnow
  rw [hsame, hset, hnext, hpast, Station.solo_dispatched, hrun] at hsolo
  exact hsolo

/-- A sequential round is one that the threads go through. -/
theorem performs_sequential (hmode : setting.sequential = true) {round : Round}
    (devices : List Device) (s : State) (before : List Station)
    (hpost : s.post = .dispatching round [])
    (hstations : s.stations round = before ++ devices.map (.enter round))
    (hbefore : ∀ station ∈ before,
      station.stage.isQueued = false ∧ station.stage.isLive = false) :
    Performs setting s round before
      (Sequential.work setting.programmer round (setting.past ++ s.trace.invocations)
        devices) := by
  induction devices generalizing s before with
  | nil =>
    have hnone : ∀ station ∈ s.stations round, station.stage.isQueued = false := by
      rw [hstations]
      simpa using fun station hmem => (hbefore station hmem).1
    refine .after_moveTo (.dispatched hpost hnone) ⟨[], rfl, ?_⟩
    have hjoined : Yields setting (s.moveTo (.joining round [])) round (.closing round)
        ((s.moveTo (.joining round [])).stations round) [] :=
      .of_moveTo (.joined rfl) round
    rw [State.stations_moveTo, hstations] at hjoined
    exact hjoined
  | cons device rest ih =>
    cases hphase : round.phase? device with
    | none =>
      rw [Sequential.work_cons_idle hphase]
      rw [List.map_cons, Station.enter_of_none hphase] at hstations
      have hlater := ih s (before ++ [⟨device, .idle⟩]) hpost
        (by rw [hstations, List.append_assoc]; rfl)
        (List.forall_mem_append.2 ⟨hbefore, List.forall_mem_singleton.2 ⟨rfl, rfl⟩⟩)
      exact hlater.cons
    | some phase =>
      rw [List.map_cons, Station.enter_of_some hphase] at hstations
      have hqueued : ∀ station ∈ before, station.stage.isQueued = false :=
        fun station hmem => (hbefore station hmem).1
      cases hrun : phase.run setting.programmer (setting.past ++ s.trace.invocations) device with
      | mk events after crash =>
        have hyields := yields_phase hmode hpost hstations hqueued hrun
        have hget : ∀ next : State, next.stations round =
            before ++ ⟨after, .over crash⟩ :: rest.map (.enter round) →
            (next.stations round)[before.length]? = some ⟨after, .over crash⟩ := by
          intro next hsame
          rw [hsame]
          simp
        cases crash with
        | none =>
          simp only [Sequential.work, hphase, hrun]
          apply Performs.of_yields hyields
          intro next hnext hsame htrace
          have hpast : setting.past ++ next.trace.invocations =
              setting.past ++ s.trace.invocations ++ Events.invocations events := by
            have hsilent : Events.invocations (round.dispatch phase device.serial) = [] := rfl
            simp only [htrace, Trace.invocations_append, Trace.invocations_authoredBy, hsilent,
              List.nil_append, List.append_assoc]
          have hlater := ih (next.moveTo (.dispatching round [])) (before ++ [⟨after, .finished⟩])
            rfl (by rw [State.stations_moveTo, hsame, List.append_assoc]; rfl)
            (List.forall_mem_append.2 ⟨hbefore, List.forall_mem_singleton.2 ⟨rfl, rfl⟩⟩)
          rw [State.trace_moveTo, hpast] at hlater
          exact .after_moveTo (.join (by rw [hnext]; rfl) (hget next hsame) rfl) hlater.cons
        | some text =>
          simp only [Sequential.work, hphase, hrun]
          have hdevices : (⟨after, .crashed text⟩ :: rest.map (.enter round) : List Station).map
              Station.device = after :: rest := by
            rw [List.map_cons, Station.map_device_enter]
          refine ⟨_, hdevices, ?_⟩
          rw [← List.append_nil (_ ++ Events.authoredBy _ events)]
          apply hyields.trans
          intro next hnext hsame _
          have hrethrow : Step setting next .orchestrator (next.moveTo (.unwinding round text)) :=
            .rethrow (by rw [hnext]; rfl) (hget next hsame) rfl
          have hunwound : Yields setting (next.moveTo (.unwinding round text)) round
              (.raised round text) ((next.moveTo (.unwinding round text)).stations round) [] := by
            apply yields_unwound rfl
            rw [State.stations_moveTo, hsame]
            intro station hmem
            rcases List.mem_append.1 hmem with hmem | hmem
            · exact (hbefore station hmem).2
            · rcases List.mem_cons.1 hmem with rfl | hmem
              · rfl
              · obtain ⟨other, _, rfl⟩ := List.mem_map.1 hmem
                exact Station.isLive_enter round other
          rw [State.stations_moveTo, hsame] at hunwound
          exact .after_moveTo hrethrow hunwound

/-! ## The floor of a parallel round -/

/-- The orchestrator dispatches, and the stations stand as on the floor. -/
structure OnFloor (round : Round) (base : Trace) (s : State) (floor : Parallel.Floor) : Prop where
  post : s.post = .dispatching round (dispatchedFrom 0 floor.stations)
  stations : s.stations round = floor.stations
  inOrder : InOrder floor.stations
  trace : s.trace = base ++ floor.trace

/-- Steps lead to where the stations stand as on a floor. -/
def Follows (setting : Setting) (s : State) (round : Round) (base : Trace)
    (floor : Parallel.Floor) : Prop :=
  ∃ next, Leads setting s next ∧ (∀ other, other ≠ round → next.stations other = s.stations other) ∧
    OnFloor round base next floor

variable {round : Round} {base : Trace} {s : State} {floor : Parallel.Floor}

/-- The dispatch on the floor is one of the orchestrator. -/
theorem OnFloor.dispatch (hparallel : setting.sequential = false) (h : OnFloor round base s floor)
    (hqueued : floor.stations.any (·.stage.isQueued) = true) (past : List Invocation) :
    ∃ next, Step setting s .orchestrator next ∧
      (∀ other, other ≠ round → next.stations other = s.stations other) ∧
      OnFloor round base next (floor.make setting.programmer round past .dispatch) := by
  obtain ⟨before, device, phase, after, hstations, hbefore, hdispatch⟩ :=
    @dispatchFirst_split round _ hqueued
  have hsame := h.stations
  rw [hstations] at hsame
  have hget : (s.stations round)[before.length]? = some ⟨device, .queued phase⟩ := by
    rw [hsame]
    simp
  have hfirst : ∀ earlier ∈ (s.stations round).take before.length,
      earlier.stage.isQueued = false := by
    rw [hsame]
    simpa using hbefore
  have hinOrder := h.inOrder
  rw [hstations] at hinOrder
  have hafter : ∀ station ∈ after, station.stage.wasDispatched = false := by
    have hpairs := (List.pairwise_append.1 hinOrder).2.1
    exact fun station hmem => (List.pairwise_cons.1 hpairs).1 station hmem rfl
  have hstep := @Step.dispatching setting _ _ _ _ _ _ h.post hget rfl hfirst
  refine ⟨_, hstep, fun _ hne => State.stations_dispatch_of_ne _ _ _ _ _ _ hne, ?_⟩
  simp only [Parallel.Floor.make, hdispatch]
  refine { post := ?_, stations := ?_, inOrder := ?_, trace := ?_ }
  · rw [State.post_dispatch, hparallel, hstations, dispatchedFrom_append, dispatchedFrom_append]
    simp only [dispatchedFrom, Stage.wasDispatched, Bool.false_eq_true, if_false, if_true,
      dispatchedFrom_eq_nil hafter, List.append_nil, Nat.zero_add, Post.afterDispatch]
  · rw [State.stations_dispatch_self, hsame]
    simp [Station.moveTo]
  · unfold InOrder at hinOrder ⊢
    rw [List.pairwise_append, List.pairwise_cons] at hinOrder ⊢
    obtain ⟨hearly, ⟨_, hrest⟩, hcross⟩ := hinOrder
    refine ⟨hearly, ⟨fun _ _ hm => Bool.noConfusion hm, hrest⟩, ?_⟩
    intro earlier hearlier other _ hm
    rw [hbefore earlier hearlier] at hm
    cases hm
  · rw [State.trace_dispatch, h.trace, List.append_assoc]

/-- A worker that takes a step does so on the floor. -/
theorem stands_work (hstations : s.stations round = floor.stations)
    (htrace : s.trace = base ++ floor.trace) {position : Nat} {station : Station}
    (hget : floor.stations[position]? = some station) :
    (s.work setting round position station).stations round =
        (floor.make setting.programmer round (setting.past ++ base.invocations)
          (.advance position)).stations ∧
      (s.work setting round position station).trace =
        base ++ (floor.make setting.programmer round (setting.past ++ base.invocations)
          (.advance position)).trace := by
  have hpast : setting.past ++ s.trace.invocations =
      setting.past ++ base.invocations ++ floor.trace.invocations := by
    rw [htrace, Trace.invocations_append, List.append_assoc]
  simp only [Parallel.Floor.make, hget]
  constructor
  · rw [State.stations_work_self, hstations, hpast]
  · rw [State.trace_work, hpast, htrace, List.append_assoc]

/-- The step of a worker keeps the order of the floor. -/
theorem OnFloor.advance (h : OnFloor round base s floor) {position : Nat} {station : Station}
    (hget : floor.stations[position]? = some station) (hlive : station.stage.isLive = true) :
    OnFloor round base (s.work setting round position station)
      (floor.make setting.programmer round (setting.past ++ base.invocations)
        (.advance position)) := by
  obtain ⟨hstations, htrace⟩ := @stands_work setting _ _ _ _ h.stations h.trace _ _ hget
  simp only [Parallel.Floor.make, hget] at hstations htrace ⊢
  obtain ⟨hdispatched, hqueued⟩ := Station.wasDispatched_step setting.programmer
    (setting.past ++ base.invocations ++ floor.trace.invocations) hlive
  have hkept := hdispatched.trans (Stage.wasDispatched_of_isLive hlive).symm
  obtain ⟨hlt, hat⟩ := List.getElem?_eq_some_iff.1 hget
  have hsplit : floor.stations =
      floor.stations.take position ++ station :: floor.stations.drop (position + 1) := by
    rw [← hat, List.getElem_cons_drop, List.take_append_drop]
  have hset : ∀ moved, floor.stations.set position moved =
      floor.stations.take position ++ moved :: floor.stations.drop (position + 1) :=
    fun moved => List.set_eq_take_append_cons_drop .. |>.trans (if_pos hlt)
  refine { post := ?_, stations := hstations, inOrder := ?_, trace := htrace }
  · rw [State.post_work, h.post, hset, dispatchedFrom_moved hkept, ← hsplit]
  · have hinOrder := h.inOrder
    rw [hsplit] at hinOrder
    rw [hset]
    apply hinOrder.moved _ hkept
    intro hm
    rw [hqueued] at hm
    cases hm

/-- What the scheduler lets happen on the floor is done by the threads. -/
theorem OnFloor.step (hparallel : setting.sequential = false) (h : OnFloor round base s floor)
    (scheduler : Parallel.Scheduler) (count : Nat) :
    Follows setting s round base
      (floor.step setting.programmer round (setting.past ++ base.invocations) scheduler count) := by
  cases hmove : (Parallel.moves floor.stations)[scheduler count floor.stations %
      (Parallel.moves floor.stations).length]? with
  | none =>
    simp only [Parallel.Floor.step, hmove]
    exact ⟨s, .refl, fun _ _ => rfl, h⟩
  | some move =>
    simp only [Parallel.Floor.step, hmove]
    rcases Parallel.mem_moves (List.mem_of_getElem? hmove) with
      ⟨rfl, hqueued⟩ | ⟨position, station, rfl, hget, hlive⟩
    · obtain ⟨next, hstep, hother, hnext⟩ :=
        h.dispatch hparallel hqueued (setting.past ++ base.invocations)
      exact ⟨next, .single ⟨_, hstep⟩, hother, hnext⟩
    · have hfound : (s.stations round)[position]? = some station := by
        rw [h.stations]
        exact hget
      exact ⟨_, .single ⟨_, .working hfound hlive⟩,
        fun _ hne => State.stations_work_of_ne _ _ _ _ hne, h.advance hget hlive⟩

theorem OnFloor.steps (hparallel : setting.sequential = false) (scheduler : Parallel.Scheduler)
    (size count : Nat) (h : OnFloor round base s floor) :
    Follows setting s round base
      (floor.steps setting.programmer round (setting.past ++ base.invocations) scheduler size
        count) := by
  induction size generalizing s floor count with
  | zero => exact ⟨s, .refl, fun _ _ => rfl, h⟩
  | succ size ih =>
    obtain ⟨next, hleads, hother, hnext⟩ := h.step hparallel scheduler count
    obtain ⟨last, hleads', hother', hlast⟩ := ih (count + 1) hnext
    refine ⟨last, hleads.trans hleads', ?_, hlast⟩
    intro other hne
    rw [hother' other hne, hother other hne]

/-! ## A parallel round -/

/-- A parallel round is one that the threads go through. -/
theorem performs_parallel (hparallel : setting.sequential = false)
    (scheduler : Parallel.Scheduler) (devices : List Device)
    (hpost : s.post = .dispatching round [])
    (hstations : s.stations round = devices.map (.enter round)) :
    Performs setting s round []
      ((Parallel.Floor.enter round devices).run setting.programmer round
        (setting.past ++ s.trace.invocations) scheduler).result := by
  have henter : OnFloor round s.trace s (Parallel.Floor.enter round devices) := by
    refine { post := ?_, stations := hstations, inOrder := ?_, trace := ?_ }
    · rw [hpost, dispatchedFrom_enter]
    · exact inOrder_enter round devices
    · rw [Parallel.Floor.enter, List.append_nil]
  generalize hfloor : (Parallel.Floor.enter round devices).run setting.programmer round
    (setting.past ++ s.trace.invocations) scheduler = last
  obtain ⟨next, hleads, hother, hnext⟩ :
      Follows setting s round s.trace last := by
    rw [← hfloor]
    exact henter.steps hparallel scheduler _ 0
  have hrest : ∀ station ∈ last.stations,
      station.stage.isQueued = false ∧ station.stage.isLive = false := by
    rw [← moves_eq_nil_iff, ← hfloor]
    exact moves_steps_eq_nil setting.programmer _ _ scheduler 0 (Nat.le_refl _)
  have hdispatched : Step setting next .orchestrator
      (next.moveTo (.joining round (dispatchedFrom 0 last.stations))) := by
    apply Step.dispatched hnext.post
    rw [hnext.stations]
    exact fun station hmem => (hrest station hmem).1
  have hjoins : Yields setting (next.moveTo (.joining round (dispatchedFrom 0 last.stations))) round
      (.atEnd round last.result.crash) last.stations [] := by
    have hsame := State.stations_moveTo next (.joining round (dispatchedFrom 0 last.stations))
    have hyields := @yields_joins setting
      (next.moveTo (.joining round (dispatchedFrom 0 last.stations))) round [] last.stations rfl
      (by rw [hsame, hnext.stations]; rfl)
      (by rw [hsame, hnext.stations]; exact fun station hmem => (hrest station hmem).2)
    rw [hsame, hnext.stations] at hyields
    exact hyields
  refine ⟨last.stations, rfl, ?_⟩
  have hyields := Yields.of_leads hleads hother hnext.trace (.after_moveTo hdispatched hjoins)
  rw [List.append_nil] at hyields
  exact hyields

end Threads

end FlashFleet
