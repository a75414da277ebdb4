import FlashFleet.Proofs.Attendance
import FlashFleet.Proofs.Execution
import Mathlib.Order.WellFounded
/-!
# Every run comes to its end

Whatever the order in which the threads move, they do not move forever, and they
do not stop before the orchestrator has come to its end. A step opens a round,
takes a worker closer to its end, or takes the orchestrator along its way
between two of these. And the orchestrator waits only for workers that were
dispatched, which can move until they finish or crash.

## Main results

* `ahead_of_step` — every step leaves less to be done.
* `exists_step` — a run that has not come to its end can go on.
* `ends` — both together.
-/

namespace FlashFleet

/-- The work of a dispatch lies behind it. -/
theorem Station.remaining_dispatched_lt {station : Station} {phase : Phase}
    (hstage : station.stage = .queued phase) :
    (station.moveTo (.dispatched phase)).remaining < station.remaining := by
  obtain ⟨device, stage⟩ := station
  subst hstage
  show 2 * (phase.actions device).length + 6 < 2 * (phase.actions device).length + 7
  omega

namespace Stage

/-- A worker that was dispatched moves on, has finished, or has crashed. -/
theorem isLive_or_over {stage : Stage} (h : stage.wasDispatched = true) :
    stage.isLive = true ∨ stage = .finished ∨ ∃ text, stage = .crashed text := by
  cases stage with
  | idle => cases h
  | queued phase => cases h
  | finished => exact .inr (.inl rfl)
  | crashed text => exact .inr (.inr ⟨text, rfl⟩)
  | _ => exact .inl rfl

end Stage

namespace Threads

variable {setting : Setting} {s next : State} {thread : Thread}

/-! ## What is still to be done -/

namespace Post

/-- The rounds that are still to be opened. -/
def unopened : Post → Nat
  | .opening .first => 2
  | .opening .second => 1
  | post =>
    match post.round with
    | .first => 1
    | .second => 0

/-- The way of the orchestrator to the next round, past the handles it holds. -/
def way : Post → Nat
  | .opening _ => 0
  | .dispatching _ handles => handles.length + 3
  | .awaiting _ _ handles => handles.length + 4
  | .joining _ handles => handles.length + 2
  | .closing _ => 1
  | .unwinding _ _ => 1
  | .ended => 0
  | .raised _ _ => 0

theorem unopened_afterDispatch (sequential : Bool) (round : Round) (handles : List Nat)
    (position : Nat) :
    (afterDispatch sequential round handles position).unopened =
      (dispatching round handles).unopened := by
  unfold afterDispatch
  split <;> rfl

/-- A worker that is joined shortens the way, and so does a crash that is met. -/
theorem way_of_awaited {post after : Post} {round : Round} {handle : Nat}
    (h : post.awaited? = some (round, handle, after)) (text : String) :
    after.unopened = post.unopened ∧ after.way < post.way ∧
      (unwinding round text).unopened = post.unopened ∧ (unwinding round text).way < post.way := by
  rcases awaited?_eq_some h with ⟨handles, rfl, rfl⟩ | ⟨handles, rfl, rfl⟩
  · refine ⟨rfl, ?_, rfl, ?_⟩
    · show handles.length + 3 < handles.length + 4
      omega
    · show 1 < handles.length + 4
      omega
  · refine ⟨rfl, ?_, rfl, ?_⟩
    · show handles.length + 2 < (handle :: handles).length + 2
      simp
    · show 1 < (handle :: handles).length + 2
      omega

end Post

/-- The work of the stations that is still to be done. -/
def State.effort (s : State) : Nat :=
  Parallel.total (s.stations .first) + Parallel.total (s.stations .second)

/-- What is still to be done: the rounds to open, the work of the stations, and the
way of the orchestrator. -/
def State.ahead (s : State) : Nat × Nat × Nat := (s.post.unopened, s.effort, s.post.way)

/-- Less is to be done: fewer rounds, or in as many rounds less work, or with as
much work a shorter way. -/
def Less : Nat × Nat × Nat → Nat × Nat × Nat → Prop :=
  Prod.Lex (· < ·) (Prod.Lex (· < ·) (· < ·))

theorem Less.wellFounded : WellFounded Less :=
  WellFounded.prod_lex Nat.lt_wfRel.wf (WellFounded.prod_lex Nat.lt_wfRel.wf Nat.lt_wfRel.wf)

theorem Less.of_effort (hrounds : next.post.unopened = s.post.unopened)
    (h : next.effort < s.effort) : Less next.ahead s.ahead := by
  unfold Less State.ahead
  rw [hrounds]
  exact .right _ (.left _ _ h)

theorem Less.of_way (hrounds : next.post.unopened = s.post.unopened)
    (heffort : next.effort = s.effort) (h : next.post.way < s.post.way) :
    Less next.ahead s.ahead := by
  unfold Less State.ahead
  rw [hrounds, heffort]
  exact .right _ (.right _ h)

/-- One station that comes closer to its end lessens the work of all. -/
theorem effort_lt {round : Round} {position : Nat} {station moved : Station}
    (hget : (s.stations round)[position]? = some station)
    (hset : next.stations round = (s.stations round).set position moved)
    (hother : ∀ other, other ≠ round → next.stations other = s.stations other)
    (hlt : moved.remaining < station.remaining) : next.effort < s.effort := by
  have hsum := Parallel.total_set_lt hget hlt
  unfold State.effort
  cases round with
  | first =>
    have hkept := hother .second (by decide)
    rw [hset, hkept]
    omega
  | second =>
    have hkept := hother .first (by decide)
    rw [hset, hkept]
    omega

/-- Every step leaves less to be done. -/
theorem ahead_of_step (hstep : Step setting s thread next) : Less next.ahead s.ahead := by
  have hmoved : ∀ post, (s.moveTo post).effort = s.effort := fun _ => by
    simp only [State.effort, State.stations_moveTo]
  cases hstep with
  | @opening round hpost =>
    have hrounds : (s.openRound setting.devices round).post.unopened < s.post.unopened := by
      rw [State.post_openRound, hpost]
      cases round <;> decide
    exact .left _ _ hrounds
  | dispatching hpost hget hstage =>
    refine Less.of_effort ?_ (effort_lt hget (State.stations_dispatch_self ..) ?_
      (Station.remaining_dispatched_lt hstage))
    · rw [State.post_dispatch, Post.unopened_afterDispatch, hpost]
    · exact fun other hne => State.stations_dispatch_of_ne _ _ _ _ _ _ hne
  | @dispatched round handles hpost =>
    refine Less.of_way (by rw [hpost]; rfl) (hmoved _) ?_
    rw [State.post_moveTo, hpost]
    show handles.length + 2 < handles.length + 3
    omega
  | join hawaited =>
    obtain ⟨hrounds, hway, _⟩ := Post.way_of_awaited hawaited ""
    exact Less.of_way hrounds (hmoved _) hway
  | @rethrow _ _ _ _ text hawaited =>
    obtain ⟨_, _, hrounds, hway⟩ := Post.way_of_awaited hawaited text
    exact Less.of_way hrounds (hmoved _) hway
  | joined hpost =>
    refine Less.of_way (by rw [hpost]; rfl) (hmoved _) ?_
    rw [State.post_moveTo, hpost]
    show 1 < 2
    decide
  | @closing round hpost =>
    refine Less.of_way ?_ ?_ ?_
    · rw [State.post_close, hpost]
      cases round <;> rfl
    · simp only [State.effort, State.stations_close]
    · rw [State.post_close, hpost]
      cases round <;> decide
  | unwound hpost =>
    refine Less.of_way (by rw [hpost]; rfl) (hmoved _) ?_
    rw [State.post_moveTo, hpost]
    show 0 < 1
    decide
  | working hget hlive =>
    refine Less.of_effort ?_ (effort_lt hget (State.stations_work_self ..) ?_
      (Station.remaining_step_lt _ _ hlive))
    · rw [State.post_work]
    · exact fun other hne => State.stations_work_of_ne _ _ _ _ hne

/-! ## Who is waited for -/

/-- The handles that the orchestrator holds. -/
def Post.handles : Post → List Nat
  | .dispatching _ handles => handles
  | .awaiting _ handle handles => handle :: handles
  | .joining _ handles => handles
  | _ => []

/-- Handles are of workers that were dispatched. -/
def Held (s : State) : Prop :=
  ∀ handle ∈ s.post.handles, ∃ station, (s.stations s.post.round)[handle]? = some station ∧
    station.stage.wasDispatched = true

/-- A station that changes without going back behind its dispatch keeps its
handle good. -/
theorem Held.set {stations : List Station} {handle position : Nat} {moved : Station}
    (h : ∃ station, stations[handle]? = some station ∧ station.stage.wasDispatched = true)
    (hmoved : moved.stage.wasDispatched = true) :
    ∃ station, (stations.set position moved)[handle]? = some station ∧
      station.stage.wasDispatched = true := by
  obtain ⟨station, hget, hdispatched⟩ := h
  have hlt : handle < stations.length := (List.getElem?_eq_some_iff.1 hget).1
  by_cases heq : position = handle
  · subst heq
    exact ⟨moved, List.getElem?_set_self hlt, hmoved⟩
  · exact ⟨station, by rw [List.getElem?_set_ne heq, hget], hdispatched⟩

theorem Held.moveTo (h : Held s) {post : Post} (hround : post.round = s.post.round)
    (hhandles : ∀ handle ∈ post.handles, handle ∈ s.post.handles) : Held (s.moveTo post) := by
  intro handle hmem
  rw [State.post_moveTo] at hmem ⊢
  rw [State.stations_moveTo, hround]
  exact h handle (hhandles handle hmem)

/-- A dispatch gives a handle. -/
private theorem Held.dispatch (h : Held s) {round : Round} {handles : List Nat} {position : Nat}
    {station : Station} {phase : Phase} (hpost : s.post = .dispatching round handles)
    (hget : (s.stations round)[position]? = some station) :
    Held (s.dispatch setting.sequential round handles position station phase) := by
  intro handle hmem
  rw [State.post_dispatch] at hmem
  rw [State.post_dispatch, Post.round_afterDispatch]
  by_cases heq : handle = position
  · subst heq
    exact ⟨_, State.getElem?_dispatch_self hget .., rfl⟩
  · have hold : handle ∈ s.post.handles := by
      rw [hpost]
      show handle ∈ handles
      unfold Post.afterDispatch at hmem
      split at hmem
      · exact (List.mem_cons.1 hmem).resolve_left heq
      · exact (List.mem_append.1 hmem).resolve_right fun hin => heq (List.mem_singleton.1 hin)
    have hheld := h handle hold
    rw [hpost] at hheld
    rw [State.stations_dispatch_self]
    exact Held.set hheld rfl

/-- A worker stays dispatched. -/
private theorem Held.work (h : Held s) {round : Round} {position : Nat} {station : Station}
    (hlive : station.stage.isLive = true) : Held (s.work setting round position station) := by
  intro handle hmem
  rw [State.post_work] at hmem ⊢
  have hheld := h handle hmem
  by_cases hround : s.post.round = round
  · rw [hround] at hheld ⊢
    rw [State.stations_work_self]
    refine Held.set hheld ?_
    obtain ⟨hdispatched, _⟩ := Station.wasDispatched_step setting.programmer
      (setting.past ++ s.trace.invocations) hlive
    exact hdispatched
  · rw [State.stations_work_of_ne _ _ _ _ hround]
    exact hheld

/-- Handles stay good whatever happens. -/
theorem Held.of_step (h : Held s) (hstep : Step setting s thread next) : Held next := by
  cases hstep with
  | opening hpost =>
    intro handle hmem
    cases hmem
  | dispatching hpost hget => exact h.dispatch hpost hget
  | dispatched hpost =>
    refine h.moveTo (by rw [hpost]; rfl) ?_
    rw [hpost]
    exact fun _ hmem => hmem
  | join hawaited =>
    rcases Post.awaited?_eq_some hawaited with ⟨handles, hpost, rfl⟩ | ⟨handles, hpost, rfl⟩
    all_goals
      refine h.moveTo (by rw [hpost]; rfl) ?_
      rw [hpost]
      exact fun _ hmem => List.mem_cons_of_mem _ hmem
  | rethrow hawaited =>
    rcases Post.awaited?_eq_some hawaited with ⟨handles, hpost, _⟩ | ⟨handles, hpost, _⟩
    all_goals
      refine h.moveTo (by rw [hpost]; rfl) ?_
      exact fun _ hmem => nomatch hmem
  | joined hpost =>
    refine h.moveTo (by rw [hpost]; rfl) ?_
    exact fun _ hmem => nomatch hmem
  | @closing round hpost =>
    intro handle hmem
    cases round <;> cases hmem
  | unwound hpost =>
    refine h.moveTo (by rw [hpost]; rfl) ?_
    exact fun _ hmem => nomatch hmem
  | working hget hlive => exact h.work hlive

theorem held_of_reachable (hreach : Reachable setting s) : Held s := by
  induction hreach with
  | refl =>
    intro handle hmem
    cases hmem
  | tail _ hstep ih =>
    obtain ⟨thread, hstep⟩ := hstep
    exact ih.of_step hstep

/-! ## Going on -/

/-- Who waits for a worker can go on, or the worker can. -/
theorem exists_step_of_awaited (hheld : Held s) {round : Round} {handle : Nat} {after : Post}
    (hawaited : s.post.awaited? = some (round, handle, after)) :
    ∃ thread next, Step setting s thread next := by
  have hhandle : round = s.post.round ∧ handle ∈ s.post.handles := by
    rcases Post.awaited?_eq_some hawaited with ⟨handles, hpost, _⟩ | ⟨handles, hpost, _⟩
    all_goals
      rw [hpost]
      exact ⟨rfl, List.mem_cons_self⟩
  obtain ⟨rfl, hmem⟩ := hhandle
  obtain ⟨station, hget, hdispatched⟩ := hheld handle hmem
  rcases Stage.isLive_or_over hdispatched with hlive | hfinished | ⟨text, hcrashed⟩
  · exact ⟨_, _, .working hget hlive⟩
  · exact ⟨_, _, .join hawaited hget hfinished⟩
  · exact ⟨_, _, .rethrow hawaited hget hcrashed⟩

/-- A run that has not come to its end can go on. -/
theorem exists_step (hheld : Held s) (hgoing : s.outcome? = none) :
    ∃ thread next, Step setting s thread next := by
  cases hpost : s.post with
  | opening round => exact ⟨_, _, .opening hpost⟩
  | dispatching round handles =>
    cases hqueued : firstQueued? 0 (s.stations round) with
    | none => exact ⟨_, _, .dispatched hpost (firstQueued?_eq_none hqueued)⟩
    | some found =>
      obtain ⟨_, hget, hstage, hfirst⟩ := firstQueued?_eq_some hqueued
      exact ⟨_, _, .dispatching hpost hget hstage hfirst⟩
  | awaiting round handle handles =>
    have hawaited : s.post.awaited? = some (round, handle, .dispatching round handles) := by
      rw [hpost]
      rfl
    exact exists_step_of_awaited hheld hawaited
  | joining round handles =>
    cases handles with
    | nil => exact ⟨_, _, .joined hpost⟩
    | cons handle handles =>
      have hawaited : s.post.awaited? = some (round, handle, .joining round handles) := by
        rw [hpost]
        rfl
      exact exists_step_of_awaited hheld hawaited
  | closing round => exact ⟨_, _, .closing hpost⟩
  | unwinding round text =>
    by_cases hlive : ∃ station ∈ s.stations round, station.stage.isLive = true
    · obtain ⟨station, hmem, hlive⟩ := hlive
      obtain ⟨position, hget⟩ := List.getElem?_of_mem hmem
      exact ⟨_, _, .working hget hlive⟩
    · have hrest : ∀ station ∈ s.stations round, station.stage.isLive = false := by
        intro station hmem
        rw [← Bool.not_eq_true]
        exact fun h => hlive ⟨station, hmem, h⟩
      exact ⟨_, _, .unwound hpost hrest⟩
  | ended =>
    rw [State.outcome?, hpost] at hgoing
    cases hgoing
  | raised round text =>
    rw [State.outcome?, hpost] at hgoing
    cases hgoing

/-- A run that has come to its end does not go on. -/
theorem not_step_of_outcome (hreach : Reachable setting s) {run : FleetRun}
    (hrun : s.outcome? = some run) : ¬ Step setting s thread next := by
  intro hstep
  have horderly := orderly_of_reachable hreach
  have hpost : s.post = .ended ∨ ∃ round text, s.post = .raised round text := by
    unfold State.outcome? at hrun
    split at hrun
    · next hended => exact .inl hended
    · next round text hraised => exact .inr ⟨round, text, hraised⟩
    · cases hrun
  cases thread with
  | orchestrator =>
    have hadvance := step_iff_advance?.1 hstep
    rcases hpost with hpost | ⟨round, text, hpost⟩
    · simp [advance?, hpost, Post.awaited?] at hadvance
    · simp [advance?, hpost, Post.awaited?] at hadvance
  | worker round position =>
    cases hstep with
    | working hget hlive =>
      have hattends := (horderly.round_of_live hget hlive).2
      rcases hpost with hpost | ⟨other, text, hpost⟩
      · rw [hpost] at hattends
        exact hattends.elim
      · rw [hpost] at hattends
        rw [hattends.2] at hlive
        cases hlive

theorem eq_of_leads_of_outcome (hreach : Reachable setting s) {run : FleetRun}
    (hrun : s.outcome? = some run) (hleads : Leads setting s next) : next = s := by
  rcases Relation.ReflTransGen.cases_head hleads with heq | ⟨later, ⟨thread, hstep⟩, _⟩
  · exact heq.symm
  · exact absurd hstep (not_step_of_outcome hreach hrun)

/-- Whatever the order in which the threads move, the run comes to its end. -/
structure Ends (setting : Setting) : Prop where
  /-- The threads do not move forever. -/
  finite : ∀ states : Nat → State,
    ∃ count, ∀ thread, ¬ Step setting (states count) thread (states (count + 1))
  /-- They do not stop before the run has come to its end. -/
  onward : ∀ s, Reachable setting s → (∀ thread next, ¬ Step setting s thread next) →
    ∃ run, s.outcome? = some run

/-- Every run comes to its end. -/
theorem ends (setting : Setting) : Ends setting where
  finite := by
    intro states
    by_contra hforever
    have hchain := wellFounded_iff_isEmpty_descending_chain.1 Less.wellFounded
    refine hchain.false ⟨fun count => (states count).ahead, fun count => ?_⟩
    have hmoves : ∃ thread, Step setting (states count) thread (states (count + 1)) := by
      by_contra hstuck
      exact hforever ⟨count, fun thread hstep => hstuck ⟨thread, hstep⟩⟩
    obtain ⟨thread, hstep⟩ := hmoves
    exact ahead_of_step hstep
  onward := by
    intro s hreach hstuck
    cases hrun : s.outcome? with
    | some run => exact ⟨run, rfl⟩
    | none =>
      obtain ⟨thread, next, hstep⟩ := exists_step (held_of_reachable hreach) hrun
      exact absurd hstep (hstuck thread next)

end Threads

end FlashFleet
