import FlashFleet.Proofs.Lockstep
import FlashFleet.Proofs.Schedule
/-!
# The threads are scheduled

Whatever the order in which the threads of a parallel run move, the stations of a
round stand as on a floor after the same moves, and the crash that is raised at
the end is that of the first station that crashed. So what the threads come to
is a run over a fleet under some scheduler, and the runs over a fleet are all
that there is.

## Main results

* `Replayed.step` — the threads and the floor go together.
* `exists_scheduler` — some scheduler comes to what the threads come to.
* `comesTo_iff` — the threads come to the runs over a fleet and to nothing else.
-/

namespace FlashFleet.Threads

open Parallel (dispatchedFrom InOrder)

variable {setting : Setting} {round : Round} {base : Trace} {roster : List Device}
  {s next : State} {thread : Thread} {stations : List Station}

/-! ## The orchestrator of a parallel round -/

/-- The crash is that of the first station that crashed. -/
def FirstCrash (stations : List Station) (text : String) : Prop :=
  ∃ (position : Nat) (station : Station), stations[position]? = some station ∧
    station.stage = .crashed text ∧
    ∀ (place : Nat) (earlier : Station), place < position → stations[place]? = some earlier →
      earlier.stage.atRest = true

/-- Where the orchestrator stands in a parallel round, and how the stations do. -/
inductive Tended (round : Round) (stations : List Station) : Post → Prop where
  | dispatching (hinOrder : InOrder stations) :
      Tended round stations (.dispatching round (dispatchedFrom 0 stations))
  | joining {handles : List Nat} (hdone : ∀ station ∈ stations, station.stage.isQueued = false)
      (hsorted : handles.Pairwise (· < ·))
      (hjoined : ∀ (position : Nat) (station : Station), stations[position]? = some station →
        station.stage.wasDispatched = true → position ∈ handles ∨ station.stage = .finished) :
      Tended round stations (.joining round handles)
  | closing (hrest : ∀ station ∈ stations, station.stage.atRest = true) :
      Tended round stations (.closing round)
  | unwinding {text : String} (hdone : ∀ station ∈ stations, station.stage.isQueued = false)
      (hcrash : FirstCrash stations text) : Tended round stations (.unwinding round text)
  | raised {text : String} (hdone : ∀ station ∈ stations, station.stage.isQueued = false)
      (hdead : ∀ station ∈ stations, station.stage.isLive = false)
      (hcrash : FirstCrash stations text) : Tended round stations (.raised round text)

theorem Tended.round_eq {post : Post} (h : Tended round stations post) : post.round = round := by
  cases h <;> rfl

/-- A station whose work does not wait is at rest, if it is when its worker was
dispatched. -/
theorem atRest_of_not_queued {stage : Stage} (hqueued : stage.isQueued = false)
    (hrest : stage.wasDispatched = true → stage.atRest = true) : stage.atRest = true := by
  cases stage <;> first | rfl | exact hrest rfl | cases hqueued

/-- The orchestrator begins to join when all is dispatched. -/
theorem Tended.join_all (hdone : ∀ station ∈ stations, station.stage.isQueued = false) :
    Tended round stations (.joining round (dispatchedFrom 0 stations)) := by
  refine .joining hdone (Parallel.pairwise_dispatchedFrom 0 stations) ?_
  intro position station hget hdispatched
  have hmem := Parallel.mem_dispatchedFrom hget hdispatched 0
  rw [Nat.zero_add] at hmem
  exact .inl hmem

/-- A worker that finished is joined. -/
theorem Tended.join {handle : Nat} {handles : List Nat} {station : Station}
    (h : Tended round stations (.joining round (handle :: handles)))
    (hget : stations[handle]? = some station) (hstage : station.stage = .finished) :
    Tended round stations (.joining round handles) := by
  cases h with
  | joining hdone hsorted hjoined =>
    refine .joining hdone (List.pairwise_cons.1 hsorted).2 ?_
    intro position other hother hdispatched
    rcases hjoined position other hother hdispatched with hmem | hfinished
    · rcases List.mem_cons.1 hmem with rfl | hmem
      · rw [hget, Option.some.injEq] at hother
        rw [← hother]
        exact .inr hstage
      · exact .inl hmem
    · exact .inr hfinished

/-- The first crash that is met is the first in the order of the fleet. -/
theorem Tended.rethrow {handle : Nat} {handles : List Nat} {station : Station} {text : String}
    (h : Tended round stations (.joining round (handle :: handles)))
    (hget : stations[handle]? = some station) (hstage : station.stage = .crashed text) :
    Tended round stations (.unwinding round text) := by
  cases h with
  | joining hdone hsorted hjoined =>
    refine .unwinding hdone ⟨handle, station, hget, hstage, ?_⟩
    intro place earlier hplace hearlier
    apply atRest_of_not_queued (hdone earlier (List.mem_of_getElem? hearlier))
    intro hdispatched
    rcases hjoined place earlier hearlier hdispatched with hmem | hfinished
    · rcases List.mem_cons.1 hmem with heq | hmem
      · omega
      · have hlt := (List.pairwise_cons.1 hsorted).1 place hmem
        omega
    · rw [hfinished]
      rfl

/-- When all are joined all are at rest. -/
theorem Tended.joined (h : Tended round stations (.joining round [])) :
    Tended round stations (.closing round) := by
  cases h with
  | joining hdone hsorted hjoined =>
    refine .closing fun station hmem => ?_
    obtain ⟨position, hget⟩ := List.getElem?_of_mem hmem
    apply atRest_of_not_queued (hdone station hmem)
    intro hdispatched
    rw [(hjoined position station hget hdispatched).resolve_left List.not_mem_nil]
    rfl

/-- The step of a worker does not change whom the orchestrator waits for. -/
theorem Tended.work {post : Post} (h : Tended round stations post) {position : Nat}
    {station moved : Station} (hget : stations[position]? = some station)
    (hlive : station.stage.isLive = true) (hdispatched : moved.stage.wasDispatched = true)
    (hqueued : moved.stage.isQueued = false)
    (hnot : ∀ now handles, post ≠ .dispatching now handles) :
    Tended round (stations.set position moved) post := by
  have hdone : (∀ other ∈ stations, other.stage.isQueued = false) →
      ∀ other ∈ stations.set position moved, other.stage.isQueued = false := by
    intro hold other hmem
    rcases List.mem_or_eq_of_mem_set hmem with hmem | rfl
    · exact hold other hmem
    · exact hqueued
  cases h with
  | dispatching hinOrder => exact absurd rfl (hnot _ _)
  | joining hwas hsorted hjoined =>
    refine .joining (hdone hwas) hsorted ?_
    intro place other hother hold
    by_cases heq : position = place
    · subst heq
      left
      apply (hjoined position station hget (Stage.wasDispatched_of_isLive hlive)).resolve_right
      intro hfinished
      rw [hfinished] at hlive
      cases hlive
    · rw [List.getElem?_set_ne heq] at hother
      exact hjoined place other hother hold
  | closing hrest =>
    rw [Stage.isLive_of_atRest (hrest station (List.mem_of_getElem? hget))] at hlive
    cases hlive
  | @unwinding text hwas hcrash =>
    refine .unwinding (hdone hwas) ?_
    obtain ⟨first, crashed, hfirst, hstage, hearlier⟩ := hcrash
    have hne : position ≠ first := by
      rintro rfl
      rw [hget, Option.some.injEq] at hfirst
      rw [hfirst, hstage] at hlive
      cases hlive
    refine ⟨first, crashed, by rw [List.getElem?_set_ne hne, hfirst], hstage, ?_⟩
    intro place earlier hplace hat
    by_cases heq : position = place
    · subst heq
      rw [Stage.isLive_of_atRest (hearlier position station hplace hget)] at hlive
      cases hlive
    · rw [List.getElem?_set_ne heq] at hat
      exact hearlier place earlier hplace hat
  | raised hwas hdead hcrash =>
    rw [hdead station (List.mem_of_getElem? hget)] at hlive
    cases hlive

/-- It is the crash that a floor at its end is found to have. -/
theorem FirstCrash.findSome?_crash? {text : String} (h : FirstCrash stations text) :
    stations.findSome? (fun station => station.stage.crash?) = some text := by
  obtain ⟨position, station, hget, hstage, hearlier⟩ := h
  obtain ⟨hlt, hat⟩ := List.getElem?_eq_some_iff.1 hget
  rw [List.findSome?_eq_some_iff]
  refine ⟨stations.take position, station, stations.drop (position + 1), ?_, ?_, ?_⟩
  · rw [← hat, List.getElem_cons_drop, List.take_append_drop]
  · rw [hstage]
    rfl
  · intro earlier hmem
    obtain ⟨place, hplace⟩ := List.getElem?_of_mem hmem
    rw [List.getElem?_take] at hplace
    split at hplace
    · next hbefore => exact Stage.crash?_of_atRest (hearlier place earlier hbefore hplace)
    · cases hplace

/-- At the end of a round nothing can move, and the orchestrator has met with the
first crash, if there is one. -/
theorem Tended.ended {post : Post} (h : Tended round stations post)
    (hend : post = .closing round ∨ ∃ text, post = .raised round text) :
    (∀ station ∈ stations, station.stage.isQueued = false ∧ station.stage.isLive = false) ∧
      stations.findSome? (fun station => station.stage.crash?) = post.crash? := by
  rcases hend with rfl | ⟨text, rfl⟩
  · cases h with
    | closing hrest =>
      constructor
      · intro station hmem
        have hatRest := hrest station hmem
        exact ⟨Stage.isQueued_of_atRest hatRest, Stage.isLive_of_atRest hatRest⟩
      · show stations.findSome? (fun station => station.stage.crash?) = none
        rw [List.findSome?_eq_none_iff]
        exact fun station hmem => Stage.crash?_of_atRest (hrest station hmem)
  · cases h with
    | raised hdone hdead hcrash =>
      exact ⟨fun station hmem => ⟨hdone station hmem, hdead station hmem⟩,
        hcrash.findSome?_crash?⟩

/-! ## The threads and the floor -/

/-- The stations of a round stand as on a floor after moves that were possible, and
the orchestrator tends them. -/
structure Replayed (setting : Setting) (round : Round) (base : Trace) (roster : List Device)
    (s : State) : Prop where
  moved : ∃ made floor, Parallel.Moved setting.programmer round
    (setting.past ++ base.invocations) (.enter round roster) made floor ∧
    s.stations round = floor.stations ∧ s.trace = base ++ floor.trace
  tended : Tended round (s.stations round) s.post

/-- The orchestrator goes somewhere else. -/
theorem Replayed.moveTo (h : Replayed setting round base roster s) {post : Post}
    (htended : Tended round (s.stations round) post) :
    Replayed setting round base roster (s.moveTo post) where
  moved := by
    rw [State.stations_moveTo, State.trace_moveTo]
    exact h.moved
  tended := by
    rw [State.stations_moveTo, State.post_moveTo]
    exact htended

/-- A dispatch is a move on the floor. -/
private theorem Replayed.dispatch (hparallel : setting.sequential = false)
    (h : Replayed setting round base roster s) (hstep : Step setting s .orchestrator next)
    {now : Round} {handles : List Nat} (hpost : s.post = .dispatching now handles)
    (hqueued : ∃ station ∈ s.stations now, station.stage.isQueued = true) :
    Replayed setting round base roster next := by
  obtain ⟨made, floor, hmoved, hstations, htrace⟩ := h.moved
  have htended := h.tended
  rw [hpost] at htended
  cases htended with
  | dispatching hinOrder =>
    rw [hstations] at hpost hqueued hinOrder
    have hany := List.any_eq_true.2 hqueued
    have honFloor : OnFloor round base s floor := ⟨hpost, hstations, hinOrder, htrace⟩
    obtain ⟨other, hother, _, hfloor⟩ :=
      honFloor.dispatch hparallel hany (setting.past ++ base.invocations)
    have hsame := hstep.unique hother
    subst hsame
    refine ⟨⟨_, _, hmoved.snoc (Parallel.dispatch_mem_moves hany), hfloor.stations,
      hfloor.trace⟩, ?_⟩
    rw [hfloor.post, hfloor.stations]
    exact .dispatching hfloor.inOrder

/-- A step of a worker is a move on the floor. -/
private theorem Replayed.work (h : Replayed setting round base roster s) {position : Nat}
    {station : Station} (hget : (s.stations round)[position]? = some station)
    (hlive : station.stage.isLive = true) :
    Replayed setting round base roster (s.work setting round position station) := by
  obtain ⟨made, floor, hmoved, hstations, htrace⟩ := h.moved
  have hfound : floor.stations[position]? = some station := by
    rw [← hstations]
    exact hget
  obtain ⟨hstations', htrace'⟩ := @stands_work setting _ _ _ _ hstations htrace _ _ hfound
  refine ⟨⟨_, _, hmoved.snoc (Parallel.advance_mem_moves hfound hlive), hstations', htrace'⟩, ?_⟩
  rw [State.post_work]
  by_cases hdispatching : ∃ now handles, s.post = .dispatching now handles
  · obtain ⟨now, handles, hpost⟩ := hdispatching
    have htended := h.tended
    rw [hpost] at htended
    cases htended with
    | dispatching hinOrder =>
      rw [hstations] at hpost hinOrder
      have honFloor : OnFloor round base s floor := ⟨hpost, hstations, hinOrder, htrace⟩
      have hfloor := @OnFloor.advance setting _ _ _ _ honFloor _ _ hfound hlive
      have hafter := hfloor.post
      rw [State.post_work] at hafter
      rw [hafter, hfloor.stations]
      exact .dispatching hfloor.inOrder
  · obtain ⟨hdispatched, hqueued⟩ := Station.wasDispatched_step setting.programmer
      (setting.past ++ s.trace.invocations) hlive
    rw [State.stations_work_self]
    exact h.tended.work hget hlive hdispatched hqueued
      fun now handles hpost => hdispatching ⟨now, handles, hpost⟩

/-- The threads and the floor go together until the round is closed. -/
theorem Replayed.step (hparallel : setting.sequential = false) (horderly : Orderly setting s)
    (h : Replayed setting round base roster s) (hstep : Step setting s thread next) :
    Replayed setting round base roster next ∨
      (s.post = .closing round ∧ next = s.close round) := by
  have htended := h.tended
  cases hstep with
  | opening hpost =>
    rw [hpost] at htended
    cases htended
  | dispatching hpost hget hstage hfirst =>
    left
    refine h.dispatch hparallel (.dispatching hpost hget hstage hfirst) hpost ?_
    exact ⟨_, List.mem_of_getElem? hget, by rw [hstage]; rfl⟩
  | dispatched hpost hnone =>
    rw [hpost] at htended
    cases htended with
    | dispatching hinOrder => exact .inl (h.moveTo (.join_all hnone))
  | join hawaited hget hstage =>
    rcases Post.awaited?_eq_some hawaited with ⟨handles, hpost, rfl⟩ | ⟨handles, hpost, rfl⟩
    · rw [hpost] at htended
      cases htended
    · rw [hpost] at htended
      obtain rfl := htended.round_eq
      exact .inl (h.moveTo (htended.join hget hstage))
  | rethrow hawaited hget hstage =>
    rcases Post.awaited?_eq_some hawaited with ⟨handles, hpost, rfl⟩ | ⟨handles, hpost, rfl⟩
    · rw [hpost] at htended
      cases htended
    · rw [hpost] at htended
      obtain rfl := htended.round_eq
      exact .inl (h.moveTo (htended.rethrow hget hstage))
  | joined hpost =>
    rw [hpost] at htended
    obtain rfl := htended.round_eq
    exact .inl (h.moveTo htended.joined)
  | closing hpost =>
    rw [hpost] at htended
    obtain rfl := htended.round_eq
    exact .inr ⟨hpost, rfl⟩
  | unwound hpost hrest =>
    rw [hpost] at htended
    cases htended with
    | unwinding hdone hcrash => exact .inl (h.moveTo (.raised hdone hrest hcrash))
  | working hget hlive =>
    have hround := (horderly.round_of_live hget hlive).1
    rw [htended.round_eq] at hround
    subst hround
    exact .inl (h.work hget hlive)

/-! ## From the opening of a round on -/

/-- At its opening the round stands as the floor does. -/
theorem replayed_openRound (setting : Setting) (s : State) (round : Round) :
    Replayed setting round (s.openRound setting.devices round).trace
      (s.roster setting.devices round) (s.openRound setting.devices round) := by
  have hstations := State.stations_openRound_self s setting.devices round
  refine ⟨⟨[], _, .nil _, hstations, (List.append_nil _).symm⟩, ?_⟩
  rw [hstations, State.post_openRound,
    ← Parallel.dispatchedFrom_enter round (s.roster setting.devices round)]
  exact .dispatching (Parallel.inOrder_enter round _)

/-- From the opening of a round on the threads and the floor go together, until the
round is closed. -/
theorem replayed_of_leads (hparallel : setting.sequential = false) (hreach : Reachable setting s)
    (hpost : s.post = .opening round) (hleads : Leads setting s next) :
    next = s ∨
      Replayed setting round (s.openRound setting.devices round).trace
        (s.roster setting.devices round) next ∨
      ∃ last, Replayed setting round (s.openRound setting.devices round).trace
        (s.roster setting.devices round) last ∧ Leads setting s last ∧
        last.post = .closing round ∧ Leads setting (last.close round) next := by
  induction hleads with
  | refl => exact .inl rfl
  | @tail now next hbefore hstep ih =>
    obtain ⟨thread, hstep⟩ := hstep
    right
    rcases ih with rfl | hreplayed | ⟨last, hlast, hleads, hclosing, hlater⟩
    · left
      have horderly := orderly_of_reachable hreach
      cases thread with
      | orchestrator =>
        have hopening := hstep.unique (.opening hpost)
        subst hopening
        exact replayed_openRound setting now round
      | worker other position =>
        cases hstep with
        | working hget hlive =>
          have hattends := (horderly.round_of_live hget hlive).2
          rw [hpost] at hattends
          exact hattends.elim
    · have horderly := orderly_of_reachable (hreach.trans hbefore)
      rcases hreplayed.step hparallel horderly hstep with hnext | ⟨hclosing, rfl⟩
      · exact .inl hnext
      · exact .inr ⟨now, hreplayed, hbefore, hclosing, .refl⟩
    · exact .inr ⟨last, hlast, hleads, hclosing, hlater.tail ⟨_, hstep⟩⟩

/-- A round at its end is what every scheduler comes to that chooses its moves. -/
theorem Replayed.scheduled (h : Replayed setting round base roster s)
    (hend : s.post = .closing round ∨ ∃ text, s.post = .raised round text) :
    ∃ made work, s.trace = base ++ work ∧ ∀ scheduler, Parallel.Chooses scheduler round made →
      round.run setting.programmer (.parallel scheduler) (setting.past ++ base.invocations)
          roster =
        (FleetRun.closed round
          ⟨work, (s.stations round).map Station.device, s.post.crash?⟩).after
            ((round.opening roster).authoredBy .orchestrator) := by
  obtain ⟨made, floor, hmoved, hstations, htrace⟩ := h.moved
  obtain ⟨hrest, hcrash⟩ := h.tended.ended hend
  refine ⟨made, floor.trace, htrace, fun scheduler hchooses => ?_⟩
  have hrun := Parallel.run_of_moved hmoved
    (Parallel.moves_eq_nil_iff.2 (by rw [← hstations]; exact hrest)) hchooses
  simp only [Round.run, Parallel.run, hrun, Parallel.Floor.result]
  rw [← hstations, hcrash]

/-! ## Both rounds -/

/-- The threads come through a round as every scheduler does that chooses its
moves. -/
theorem scheduled_of_leads (hparallel : setting.sequential = false) (hreach : Reachable setting s)
    (hpost : s.post = .opening round) {run : FleetRun} (hrun : next.outcome? = some run)
    (hleads : Leads setting s next) :
    ∃ made result middle,
      Leads setting s middle ∧ Leads setting middle next ∧
      middle.post = .afterwards round result.crash ∧
      (middle.stations round).map Station.device = result.devices ∧
      middle.trace = s.trace ++
        (State.foreword (s.roster setting.devices round) round).authoredBy .orchestrator ++
          result.trace ∧
      ∀ scheduler, Parallel.Chooses scheduler round made →
        round.run setting.programmer (.parallel scheduler) (setting.past ++ s.trace.invocations)
          (s.roster setting.devices round) = result := by
  have hbase : (s.openRound setting.devices round).trace = s.trace ++
      (State.foreword (s.roster setting.devices round) round).authoredBy .orchestrator ++
        (round.opening (s.roster setting.devices round)).authoredBy .orchestrator := by
    rw [State.trace_openRound, State.announcement, Events.authoredBy_append, List.append_assoc]
  rcases replayed_of_leads hparallel hreach hpost hleads with rfl | hreplayed | hclosed
  · rw [State.outcome?, hpost] at hrun
    cases hrun
  · have hraised : ∃ text, next.post = .raised round text := by
      have htended := hreplayed.tended
      unfold State.outcome? at hrun
      split at hrun
      · next hended =>
        rw [hended] at htended
        cases htended
      · next other text hraised =>
        rw [hraised] at htended
        obtain rfl := htended.round_eq
        exact ⟨text, hraised⟩
      · cases hrun
    obtain ⟨made, work, htrace, hscheduled⟩ := hreplayed.scheduled (.inr hraised)
    obtain ⟨text, hraised⟩ := hraised
    rw [invocations_openRound, hraised] at hscheduled
    refine ⟨made, _, next, hleads, .refl, ?_, ?_, ?_, hscheduled⟩
    · rw [hraised]
      rfl
    · rfl
    · rw [htrace, hbase]
      simp [FleetRun.after, FleetRun.closed, Post.crash?]
  · obtain ⟨last, hlast, hbefore, hclosing, hlater⟩ := hclosed
    obtain ⟨made, work, htrace, hscheduled⟩ := hlast.scheduled (.inl hclosing)
    rw [invocations_openRound, hclosing] at hscheduled
    refine ⟨made, _, last.close round, hbefore.tail ⟨_, .closing hclosing⟩, hlater, ?_, ?_, ?_,
      hscheduled⟩
    · rfl
    · rw [State.stations_close]
      rfl
    · rw [State.trace_close, htrace, hbase]
      simp [FleetRun.after, FleetRun.closed, Post.crash?]

/-- Some scheduler comes to what the threads come to. -/
theorem exists_scheduler {programmer : Programmer} {past : List Invocation}
    {devices : List Device} {run : FleetRun} {scheduler : Parallel.Scheduler}
    (h : ComesTo (.of programmer (.parallel scheduler) past devices) run) :
    ∃ scheduler, Fleet.run programmer (.parallel scheduler) past devices = run := by
  obtain ⟨s, hreach, hrun⟩ := h
  obtain ⟨made, first, middle, hleads, hlater, hpost, hdevices, htrace, hfirst⟩ :=
    scheduled_of_leads rfl .refl rfl hrun hreach
  have htrace : middle.trace =
      (Fleet.skipped devices).authoredBy .orchestrator ++ first.trace := htrace
  have hfirst : ∀ scheduler, Parallel.Chooses scheduler .first made →
      Round.first.run programmer (.parallel scheduler) past devices = first := by
    intro scheduler hchooses
    have hchosen := hfirst scheduler hchooses
    have hnothing : past ++ State.start.trace.invocations = past := List.append_nil past
    change Round.first.run programmer (.parallel scheduler)
      (past ++ State.start.trace.invocations) devices = first at hchosen
    rwa [hnothing] at hchosen
  cases hcrash : first.crash with
  | some text =>
    have hchosen := hfirst (Parallel.both made []) (Parallel.chooses_both made []).1
    have houtcome := outcome_of_first hchosen hcrash hpost hdevices htrace
    obtain rfl := eq_of_leads_of_outcome hleads houtcome hlater
    refine ⟨Parallel.both made [], ?_⟩
    rw [houtcome, Option.some.injEq] at hrun
    exact hrun
  | none =>
    rw [hcrash] at hpost
    obtain ⟨others, second, last, hleads', hlater', hpost', hdevices', htrace', hsecond⟩ :=
      scheduled_of_leads rfl hleads hpost hrun hlater
    obtain ⟨hchooses, hchooses'⟩ := Parallel.chooses_both made others
    have hchosen := hsecond (Parallel.both made others) hchooses'
    simp only [State.roster, hdevices] at hchosen
    have htrace' : last.trace = middle.trace ++ second.trace := by
      rw [htrace']
      simp [State.foreword, Events.authoredBy]
    have houtcome := outcome_of_second (hfirst (Parallel.both made others) hchooses) hcrash htrace
      hchosen hpost' hdevices' htrace'
    obtain rfl := eq_of_leads_of_outcome (hleads.trans hleads') houtcome hlater'
    refine ⟨Parallel.both made others, ?_⟩
    rw [houtcome, Option.some.injEq] at hrun
    exact hrun

/-- The threads come to the runs over a fleet and to nothing else. -/
theorem comesTo_iff {programmer : Programmer} {mode : Mode} {past : List Invocation}
    {devices : List Device} {run : FleetRun} :
    ComesTo (.of programmer mode past devices) run ↔
      ∃ other : Mode, other.isSequential = mode.isSequential ∧
        Fleet.run programmer other past devices = run := by
  constructor
  · intro h
    cases mode with
    | sequential => exact ⟨.sequential, rfl, eq_of_comesTo_sequential h⟩
    | parallel scheduler =>
      obtain ⟨other, hrun⟩ := exists_scheduler h
      exact ⟨.parallel other, rfl, hrun⟩
  · rintro ⟨other, hsame, rfl⟩
    have hcomes := comesTo_run programmer other past devices
    unfold Setting.of at hcomes ⊢
    rwa [hsame] at hcomes

end FlashFleet.Threads
