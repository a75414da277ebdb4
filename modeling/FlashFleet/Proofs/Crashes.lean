import FlashFleet.Proofs.Answers
import FlashFleet.Proofs.Replay
/-!
# Workers that crash

A worker crashes where the programmer does, at an invocation through its own probe,
and it stays where it is. The orchestrator meets with the crash when it joins the
worker. In a parallel run it joins them in the order of the fleet, when all are
dispatched, and in a sequential run before the next is dispatched. Either way the
workers before the one whose crash is raised are at rest.

## Main results

* `crashed_of_leads` — a worker that crashed stays as it is.
* `crashedAt_of_reachable` — the programmer crashed at an invocation of the worker.
* `blamed_of_raised` — whose crash is raised, and how the others stand.
-/

namespace FlashFleet

/-- The programmer crashed at an invocation of the probe. -/
def CrashedAt (programmer : Programmer) (past : List Invocation) (events : Events)
    (serial : Serial) (text : String) : Prop :=
  ∃ earlier call later, events = earlier ++ .began call :: later ∧ call.serial = serial ∧
    (programmer.respond (past ++ Events.invocations earlier) call).outcome = .crashed text

/-- What comes later changes nothing. -/
theorem CrashedAt.append {programmer : Programmer} {past : List Invocation} {events : Events}
    {serial : Serial} {text : String} (h : CrashedAt programmer past events serial text)
    (more : Events) : CrashedAt programmer past (events ++ more) serial text := by
  obtain ⟨earlier, call, later, rfl, hserial, hcrashed⟩ := h
  exact ⟨earlier, call, later ++ more, by simp, hserial, hcrashed⟩

namespace Station

variable {programmer : Programmer} {past : List Invocation} {station : Station}

/-- A worker crashes at an invocation that crashed, or by itself. -/
theorem of_crashed_step (hlive : station.stage.isLive = true) {text : String}
    (h : (station.step programmer past).2.stage = .crashed text) :
    (∃ phase call sequel, station.stage = .calling phase call (.crashed text) sequel) ∨
      ∃ phase todo, station.stage = .acting phase (.crash text :: todo) := by
  obtain ⟨device, stage⟩ := station
  cases stage with
  | idle => cases hlive
  | queued phase => cases hlive
  | finished => cases hlive
  | crashed text => cases hlive
  | acting phase todo =>
    cases todo with
    | nil => cases h
    | cons action todo =>
      cases action with
      | crash other =>
        cases h
        exact .inr ⟨phase, todo, rfl⟩
      | _ => cases h
  | calling phase call outcome sequel =>
    cases outcome with
    | crashed other =>
      have hsame : Stage.crashed other = .crashed text := by cases sequel <;> exact h
      cases hsame
      exact .inl ⟨phase, call, sequel, rfl⟩
    | succeeded => cases sequel <;> cases h
    | failed fault => cases sequel <;> cases h
  | _ => cases h

/-- A phase that is possible does not crash by itself. -/
theorem Faithful.not_crash {phase : Phase} {origin : Device} (h : Faithful phase origin station)
    (hpossible : phase.Possible origin) {now : Phase} {text : String} {todo : List Action} :
    station.stage ≠ .acting now (.crash text :: todo) := by
  intro hstage
  unfold Faithful at h
  rw [hstage] at h
  exact Phase.sound_actions hpossible text (h.2.2.subset List.mem_cons_self)

end Station

namespace Threads

variable {setting : Setting} {s next : State} {round : Round} {text : String}

/-! ## A worker that crashed -/

/-- A worker that crashed stays as it is. -/
theorem crashed_of_step (horderly : Orderly setting s) {thread : Thread}
    (hstep : Step setting s thread next) {position : Nat} {station : Station}
    (hget : (s.stations round)[position]? = some station) (hstage : station.stage = .crashed text) :
    (next.stations round)[position]? = some station := by
  cases hstep with
  | @opening now hpost =>
    by_cases heq : round = now
    · have hnil : s.stations round = [] := by
        apply horderly.unopened
        rw [hpost, heq]
        rintro ⟨hsecond, hfirst⟩
        rw [hfirst] at hsecond
        cases hsecond
      rw [hnil] at hget
      cases hget
    · rwa [State.stations_openRound_of_ne _ _ heq]
  | @dispatching now handles place found phase hpost hfound hqueued hfirst =>
    rwa [State.getElem?_dispatch_of_ne]
    rintro ⟨rfl, rfl⟩
    rw [hget, Option.some.injEq] at hfound
    rw [← hfound, hstage] at hqueued
    cases hqueued
  | @working now place found hfound hlive =>
    rwa [State.getElem?_work_of_ne]
    rintro ⟨rfl, rfl⟩
    rw [hget, Option.some.injEq] at hfound
    rw [← hfound, hstage] at hlive
    cases hlive
  | closing hpost => rwa [State.stations_close]
  | _ => rwa [State.stations_moveTo]

theorem crashed_of_leads (hreach : Reachable setting s) (hleads : Leads setting s next)
    {position : Nat} {station : Station} (hget : (s.stations round)[position]? = some station)
    (hstage : station.stage = .crashed text) :
    (next.stations round)[position]? = some station := by
  induction hleads with
  | refl => exact hget
  | tail hbefore hstep ih =>
    obtain ⟨thread, hstep⟩ := hstep
    exact crashed_of_step (orderly_of_reachable (hreach.trans hbefore)) hstep ih hstage

/-- The programmer crashed at an invocation of the worker. -/
theorem crashedAt_of_reachable (hnodup : (setting.devices.map Device.serial).Nodup)
    (hreach : Reachable setting s) {position : Nat} {station : Station}
    (hget : (s.stations round)[position]? = some station) (hstage : station.stage = .crashed text) :
    CrashedAt setting.programmer setting.past s.trace.events station.device.serial text := by
  induction hreach with
  | refl => cases round <;> simp [State.start, State.stations] at hget
  | @tail s next hbefore hstep ih =>
    obtain ⟨thread, hstep⟩ := hstep
    obtain ⟨author, events, hdeeds, _⟩ := deeds_of_step hstep
    rw [State.trace_of_deeds hdeeds, Trace.events_append, Trace.events_authoredBy]
    cases thread with
    | orchestrator =>
      exact (ih (station_of_orchestrator hstep hget (by rw [hstage]; rfl))).append events
    | worker now place =>
      cases hstep with
      | @working _ _ found hfound hlive =>
        by_cases heq : round = now ∧ position = place
        · obtain ⟨rfl, rfl⟩ := heq
          rw [State.getElem?_work_self hfound, Option.some.injEq] at hget
          subst hget
          obtain ⟨_, _, _, _, hcourse⟩ := course_of_reachable hbefore hfound
          rw [Station.step_serial]
          rcases Station.of_crashed_step hlive hstage with
            ⟨phase, call, sequel, hcalling⟩ | ⟨phase, todo, hacting⟩
          · obtain ⟨earlier, between, hsplit, _, hanswer⟩ :=
              (candid_of_reachable hnodup hbefore).underWay _ _ _ _ _ _ _ hfound hcalling
            have hflight : found.stage.inFlight? = some call := by
              rw [hcalling]
              rfl
            have hown : CrashedAt setting.programmer setting.past s.trace.events
                found.device.serial text :=
              ⟨earlier, call, between, hsplit, (hcourse.serial_inFlight hflight).2, hanswer⟩
            exact hown.append events
          · obtain ⟨_, hphase, path⟩ := hcourse.of_live hlive
            exact absurd hacting (path.faithful.not_crash (Round.possible_of_phase? hphase))
        · rw [State.getElem?_work_of_ne _ _ _ heq] at hget
          exact (ih hget).append events

/-! ## Who is joined before the next is dispatched -/

/-- The workers before a place are at rest, and those behind it wait for their
dispatch. -/
structure Turn (stations : List Station) (place : Nat) : Prop where
  before : ∀ (position : Nat) (station : Station), position < place →
    stations[position]? = some station → station.stage.atRest = true
  behind : ∀ (position : Nat) (station : Station), place < position →
    stations[position]? = some station → station.stage.wasDispatched = false

/-- Where the orchestrator stands in a sequential run, and how the stations of its
round do. -/
inductive Paced (stations : List Station) : Post → Prop where
  | opening (round : Round) : Paced stations (.opening round)
  | dispatching {round : Round} (hinOrder : Parallel.InOrder stations)
      (hrest : ∀ station ∈ stations, station.stage.wasDispatched = true →
        station.stage.atRest = true) : Paced stations (.dispatching round [])
  | awaiting {round : Round} {place : Nat} (hturn : Turn stations place) :
      Paced stations (.awaiting round place [])
  | joining (round : Round) : Paced stations (.joining round [])
  | closing (round : Round) : Paced stations (.closing round)
  | unwinding {round : Round} {place : Nat} {station : Station} {text : String}
      (hturn : Turn stations place) (hget : stations[place]? = some station)
      (hstage : station.stage = .crashed text) : Paced stations (.unwinding round text)
  | ended : Paced stations .ended
  | raised {round : Round} {place : Nat} {station : Station} {text : String}
      (hturn : Turn stations place) (hget : stations[place]? = some station)
      (hstage : station.stage = .crashed text) : Paced stations (.raised round text)

/-- The first station whose work waits has its turn. -/
theorem turn_of_dispatching {stations : List Station} (hinOrder : Parallel.InOrder stations)
    (hrest : ∀ station ∈ stations, station.stage.wasDispatched = true →
      station.stage.atRest = true) {place : Nat} {found : Station}
    (hget : stations[place]? = some found) (hqueued : found.stage.isQueued = true)
    (hfirst : ∀ earlier ∈ stations.take place, earlier.stage.isQueued = false) :
    Turn stations place where
  before := by
    intro position station hlt hstation
    have hmem := List.mem_of_getElem? hstation
    refine atRest_of_not_queued (hfirst station ?_) (hrest station hmem)
    exact List.mem_of_getElem? ((List.getElem?_take_of_lt hlt).trans hstation)
  behind := by
    intro position station hlt hstation
    obtain ⟨hplace, rfl⟩ := List.getElem?_eq_some_iff.1 hget
    obtain ⟨hposition, rfl⟩ := List.getElem?_eq_some_iff.1 hstation
    exact List.pairwise_iff_getElem.1 hinOrder place position hplace hposition hlt hqueued

/-- What has its turn may change. -/
theorem Turn.set {stations : List Station} {place : Nat} (h : Turn stations place)
    (moved : Station) : Turn (stations.set place moved) place where
  before := by
    intro position station hlt hstation
    rw [List.getElem?_set_ne (by omega)] at hstation
    exact h.before position station hlt hstation
  behind := by
    intro position station hlt hstation
    rw [List.getElem?_set_ne (by omega)] at hstation
    exact h.behind position station hlt hstation

/-- When the worker that has its turn has finished the next may be dispatched. -/
theorem Turn.done {stations : List Station} {place : Nat} (h : Turn stations place)
    {found : Station} (hget : stations[place]? = some found)
    (hstage : found.stage = .finished) (round : Round) :
    Paced stations (.dispatching round []) := by
  have hupTo : ∀ (position : Nat) (station : Station), position ≤ place →
      stations[position]? = some station → station.stage.atRest = true := by
    intro position station hle hstation
    rcases Nat.lt_or_eq_of_le hle with hlt | rfl
    · exact h.before position station hlt hstation
    · rw [hget, Option.some.injEq] at hstation
      rw [← hstation, hstage]
      rfl
  refine .dispatching (List.pairwise_iff_getElem.2 ?_) ?_
  · intro position other hposition hother hlt hqueued
    apply h.behind other _ ?_ (List.getElem?_eq_getElem hother)
    by_contra hnot
    have hrest := hupTo position _ (by omega) (List.getElem?_eq_getElem hposition)
    rw [Stage.isQueued_of_atRest hrest] at hqueued
    cases hqueued
  · intro station hmem hdispatched
    obtain ⟨position, hstation⟩ := List.getElem?_of_mem hmem
    by_cases hle : position ≤ place
    · exact hupTo position station hle hstation
    · rw [h.behind position station (by omega) hstation] at hdispatched
      cases hdispatched

/-- In a sequential run each worker is joined before the next is dispatched. -/
theorem Paced.step (hsequential : setting.sequential = true) (hreach : Reachable setting s)
    (h : Paced (s.stations s.post.round) s.post) {thread : Thread}
    (hstep : Step setting s thread next) : Paced (next.stations next.post.round) next.post := by
  cases hstep with
  | @opening now hpost =>
    rw [State.post_openRound]
    show Paced ((s.openRound setting.devices now).stations now) (.dispatching now [])
    rw [State.stations_openRound_self]
    refine .dispatching (Parallel.inOrder_enter now _) ?_
    intro station hmem hdispatched
    obtain ⟨device, _, rfl⟩ := List.mem_map.1 hmem
    rw [Station.wasDispatched_enter] at hdispatched
    cases hdispatched
  | @dispatching now handles place found phase hpost hfound hstage hfirst =>
    rw [hpost] at h
    cases h with
    | dispatching hinOrder hrest =>
      have hqueued : found.stage.isQueued = true := by
        rw [hstage]
        rfl
      have hturn := turn_of_dispatching hinOrder hrest hfound hqueued hfirst
      rw [State.post_dispatch, hsequential]
      show Paced (State.stations _ now) (.awaiting now place [])
      rw [State.stations_dispatch_self]
      exact .awaiting (hturn.set _)
  | @dispatched now handles hpost hnone =>
    rw [hpost] at h
    cases h with
    | dispatching hinOrder hrest => exact .joining now
  | join hawaited hget hstage =>
    rcases Post.awaited?_eq_some hawaited with ⟨handles, hpost, rfl⟩ | ⟨handles, hpost, rfl⟩
    · rw [hpost] at h
      cases h with
      | awaiting hturn => exact hturn.done hget hstage _
    · rw [hpost] at h
      cases h
  | rethrow hawaited hget hstage =>
    rcases Post.awaited?_eq_some hawaited with ⟨handles, hpost, rfl⟩ | ⟨handles, hpost, rfl⟩
    · rw [hpost] at h
      cases h with
      | awaiting hturn => exact .unwinding hturn hget hstage
    · rw [hpost] at h
      cases h
  | joined hpost => exact .closing _
  | @closing now hpost =>
    cases now with
    | first => exact .opening .second
    | second => exact .ended
  | unwound hpost hrest =>
    rw [hpost] at h
    cases h with
    | unwinding hturn hget hstage => exact .raised hturn hget hstage
  | @working now place found hfound hlive =>
    obtain ⟨handles, hpost⟩ := alone_of_reachable hsequential hreach now place found hfound hlive
    rw [hpost] at h
    rw [State.post_work, hpost]
    cases h with
    | awaiting hturn =>
      show Paced (State.stations _ now) (.awaiting now place [])
      rw [State.stations_work_self]
      exact .awaiting (hturn.set _)

theorem paced_of_reachable (hsequential : setting.sequential = true)
    (hreach : Reachable setting s) : Paced (s.stations s.post.round) s.post := by
  induction hreach with
  | refl => exact .opening .first
  | tail hbefore hstep ih =>
    obtain ⟨thread, hstep⟩ := hstep
    exact Paced.step hsequential hbefore ih hstep

/-! ## Whose crash is raised -/

/-- In a parallel run the orchestrator tends the round whose crash it raises. -/
theorem tended_of_raised (hparallel : setting.sequential = false) (hreach : Reachable setting s)
    (hpost : s.post = .raised round text) :
    Tended round (s.stations round) (.raised round text) := by
  have hof : ∀ {now : Round} {base : Trace} {roster : List Device},
      Replayed setting now base roster s →
      Tended round (s.stations round) (.raised round text) := by
    intro now base roster hreplayed
    have htended := hreplayed.tended
    rw [hpost] at htended
    obtain rfl : round = now := htended.round_eq
    exact htended
  have hover : s.outcome? = some ⟨s.trace, (s.stations round).map Station.device, some text⟩ := by
    rw [State.outcome?, hpost]
  rcases replayed_of_leads hparallel .refl rfl hreach with
    rfl | hfirst | ⟨last, _, hlast, hclosing, hlater⟩
  · cases hpost
  · exact hof hfirst
  · have hclosed : Reachable setting (last.close .first) := hlast.tail ⟨_, .closing hclosing⟩
    rcases replayed_of_leads hparallel hclosed rfl hlater with
      rfl | hsecond | ⟨final, _, hfinal, hfinalClosing, hend⟩
    · cases hpost
    · exact hof hsecond
    · have hreached : Reachable setting (final.close .second) :=
        (hclosed.trans hfinal).tail ⟨_, .closing hfinalClosing⟩
      obtain rfl := eq_of_leads_of_outcome hreached rfl hend
      cases hpost

/-- The crash that is raised is that of a worker before which all are at rest. In a
parallel run all were dispatched, in a sequential run none behind that worker. -/
theorem blamed_of_raised (hreach : Reachable setting s) (hpost : s.post = .raised round text) :
    ∃ first station, (s.stations round)[first]? = some station ∧
      station.stage = .crashed text ∧
      (∀ (place : Nat) (earlier : Station), place < first →
        (s.stations round)[place]? = some earlier → earlier.stage.atRest = true) ∧
      (setting.sequential = true → ∀ (place : Nat) (later : Station), first < place →
        (s.stations round)[place]? = some later → later.stage.wasDispatched = false) ∧
      (setting.sequential = false → ∀ station ∈ s.stations round,
        station.stage.isQueued = false) := by
  cases hmode : setting.sequential with
  | true =>
    have hpaced := paced_of_reachable hmode hreach
    rw [hpost] at hpaced
    cases hpaced with
    | raised hturn hget hstage =>
      exact ⟨_, _, hget, hstage, hturn.before, fun _ => hturn.behind, nofun⟩
  | false =>
    cases tended_of_raised hmode hreach hpost with
    | raised hdone hdead hcrash =>
      obtain ⟨first, station, hget, hstage, hearlier⟩ := hcrash
      exact ⟨first, station, hget, hstage, hearlier, nofun, fun _ => hdone⟩

end Threads

end FlashFleet
