import FlashFleet.Proofs.Account
import FlashFleet.Proofs.Reports
/-!
# The stretches of a run

The reports of the rounds cut what happened in a run into stretches. A worker has a stretch of
its own in which it moves, that between the two reports of its round: the orchestrator does not
report a round before it dispatches its work, nor the end of one before it has joined its
workers. In front of the first round, between both and behind the second nobody moves but the
orchestrator.

## Main results

* `timely_of_reachable` — no worker moves outside of the stretch of its round.
* `stretches_of_ended` — a run that has come to its end in its stretches.
* `counts_of_ended` — the rounds are reported with the devices that had work from the start.
-/

namespace FlashFleet

/-- How many reports of rounds are made before the workers of a round move. -/
def Round.heralds : Round → Nat
  | .first => 1
  | .second => 3

theorem Round.heralds_injective {round other : Round} (h : round.heralds = other.heralds) :
    round = other := by
  cases round <;> cases other <;> first | rfl | cases h

namespace Threads

/-! ## Behind reports -/

/-- The report of a round. -/
def Deed.isHerald (deed : Deed) : Bool := deed.occurrence.event.round?.isSome

/-- Behind so many reports of rounds no worker moves but those that belong there, and none of
them reports a round. -/
def Timely : Nat → List Deed → Prop
  | _, [] => True
  | count, deed :: rest =>
    (∀ round, deed.thread.round? = some round →
      count = round.heralds ∧ deed.isHerald = false) ∧
      Timely (count + if deed.isHerald then 1 else 0) rest

/-- A stretch behind so many reports: there is no other in it, and no worker moves but those
that belong there. -/
structure Stretch (count : Nat) (deeds : List Deed) : Prop where
  silent : ∀ deed ∈ deeds, deed.isHerald = false
  timely : ∀ deed ∈ deeds, ∀ round, deed.thread.round? = some round → count = round.heralds

theorem timely_append (count : Nat) (a b : List Deed) :
    Timely count (a ++ b) ↔ Timely count a ∧ Timely (count + a.countP Deed.isHerald) b := by
  induction a generalizing count with
  | nil => simp [Timely]
  | cons deed rest ih =>
    have hcount : count + (deed :: rest).countP Deed.isHerald =
        count + (if deed.isHerald then 1 else 0) + rest.countP Deed.isHerald := by
      rw [List.countP_cons]
      omega
    rw [hcount, List.cons_append, Timely, Timely, ih, and_assoc]

/-- The orchestrator may move at any time. -/
theorem timely_of_orchestrator {deeds : List Deed}
    (h : ∀ deed ∈ deeds, deed.thread = .orchestrator) (count : Nat) : Timely count deeds := by
  induction deeds generalizing count with
  | nil => trivial
  | cons deed rest ih =>
    obtain ⟨hthread, hrest⟩ := List.forall_mem_cons.1 h
    refine ⟨fun round hround => ?_, ih hrest _⟩
    rw [hthread] at hround
    cases hround

theorem Stretch.all_timely {count : Nat} {deeds : List Deed} (h : Stretch count deeds) :
    Timely count deeds := by
  induction deeds with
  | nil => trivial
  | cons deed rest ih =>
    obtain ⟨hsilent, hsilent'⟩ := List.forall_mem_cons.1 h.silent
    obtain ⟨htimely, htimely'⟩ := List.forall_mem_cons.1 h.timely
    refine ⟨fun round hround => ⟨htimely round hround, hsilent⟩, ?_⟩
    rw [hsilent]
    exact ih ⟨hsilent', htimely'⟩

/-- Where no round is reported there is one stretch. -/
theorem Timely.stretch {count : Nat} {deeds : List Deed} (h : Timely count deeds)
    (hsilent : ∀ deed ∈ deeds, deed.isHerald = false) : Stretch count deeds := by
  refine ⟨hsilent, ?_⟩
  induction deeds with
  | nil => exact List.forall_mem_nil _
  | cons deed rest ih =>
    obtain ⟨hfirst, hrest⟩ := h
    obtain ⟨hnone, hlater⟩ := List.forall_mem_cons.1 hsilent
    rw [hnone] at hrest
    exact List.forall_mem_cons.2 ⟨fun round hround => (hfirst round hround).1, ih hrest hlater⟩

/-- Outside of the stretch of a round none of its workers moves. -/
theorem Stretch.round?_ne {count : Nat} {deeds : List Deed} (h : Stretch count deeds)
    {round : Round} (hcount : count ≠ round.heralds) :
    ∀ deed ∈ deeds, deed.thread.round? ≠ some round :=
  fun deed hdeed hround => hcount (h.timely deed hdeed round hround)

/-- Outside of both rounds there is nobody but the orchestrator. -/
theorem Stretch.orchestrator {count : Nat} {deeds : List Deed} (h : Stretch count deeds)
    (hcount : ∀ round : Round, count ≠ round.heralds) :
    ∀ deed ∈ deeds, deed.thread = .orchestrator := by
  intro deed hdeed
  cases hthread : deed.thread with
  | orchestrator => rfl
  | worker round position =>
    refine absurd ?_ (h.round?_ne (hcount round) deed hdeed)
    rw [hthread]
    rfl

/-- In the stretch of a round no worker of another moves. -/
theorem Stretch.round {round : Round} {deeds : List Deed} (h : Stretch round.heralds deeds) :
    ∀ deed ∈ deeds, ∀ other, deed.thread.round? = some other → other = round :=
  fun deed hdeed other hother => (Round.heralds_injective (h.timely deed hdeed other hother)).symm

/-! ## Every run -/

variable {setting : Setting} {s next : State} {thread : Thread}

/-- While the orchestrator attends to a worker, as many reports were made as stand before its
round. -/
theorem Post.length_reports {post : Post} {round : Round} {position : Nat} {stage : Stage}
    (h : post.Attends round position stage) (counts : Round → Nat) :
    (post.reports counts).length = round.heralds := by
  rw [h.round_eq]
  cases post with
  | opening now => exact h.elim
  | closing now => exact h.elim
  | ended => exact h.elim
  | dispatching now handles => cases now <;> rfl
  | awaiting now handle handles => cases now <;> rfl
  | joining now handles => cases now <;> rfl
  | unwinding now text => cases now <;> rfl
  | raised now text => cases now <;> rfl

theorem roundReports_trace (s : State) :
    s.trace.events.roundReports =
      (s.deeds.filter Deed.isHerald).map (·.occurrence.event) := by
  have htrace : s.trace.events = s.deeds.map (·.occurrence.event) := List.map_map
  rw [htrace, Events.roundReports, List.filter_map]
  rfl

/-- A worker moves behind the reports that stand before its round. -/
theorem timely_of_step (hreach : Reachable setting s) (hstep : Step setting s thread next)
    (h : Timely 0 s.deeds) : Timely 0 next.deeds := by
  cases hthread : thread with
  | orchestrator =>
    obtain ⟨author, events, hdeeds, _⟩ := deeds_of_step hstep
    rw [hdeeds, timely_append]
    refine ⟨h, timely_of_orchestrator (fun deed hdeed => ?_) _⟩
    obtain ⟨event, _, rfl⟩ := List.mem_map.1 hdeed
    exact hthread
  | worker round position =>
    subst hthread
    cases hstep with
    | @working _ _ station hget hlive =>
      obtain ⟨_, hattends⟩ := (orderly_of_reachable hreach).round_of_live hget hlive
      have hcount : s.deeds.countP Deed.isHerald = round.heralds := by
        rw [← Post.length_reports hattends, ← roundReports_of_reachable hreach,
          roundReports_trace, List.length_map, List.countP_eq_length_filter]
      rw [State.deeds_work, timely_append, hcount, Nat.zero_add]
      refine ⟨h, Stretch.all_timely ⟨fun deed hdeed => ?_, fun deed hdeed other hother => ?_⟩⟩
      · obtain ⟨event, hevent, rfl⟩ := List.mem_map.1 hdeed
        simp only [Deed.isHerald, (Station.shows_of_mem_step hevent).round?, Option.isSome_none]
      · obtain ⟨event, _, rfl⟩ := List.mem_map.1 hdeed
        rw [Option.some.inj hother]

/-- No worker moves outside of the stretch of its round. -/
theorem timely_of_reachable (hreach : Reachable setting s) : Timely 0 s.deeds := by
  induction hreach with
  | refl => trivial
  | tail hbefore hstep ih =>
    obtain ⟨thread, hstep⟩ := hstep
    exact timely_of_step hbefore hstep ih

/-! ## The end of a run -/

/-- The report of a round by the orchestrator. -/
def herald (event : Event) : Deed := ⟨.orchestrator, ⟨.orchestrator, event⟩⟩

theorem round?_herald_ne (event : Event) (round : Round) :
    (herald event).thread.round? ≠ some round := nofun

/-- The first report of a round cuts off a stretch. -/
private theorem Timely.cut {count : Nat} {deeds : List Deed} {event : Event} {events : Events}
    (h : Timely count deeds)
    (hsigned : ∀ deed ∈ deeds, deed.thread = .orchestrator →
      deed.occurrence.author = .orchestrator)
    (hheralds : (deeds.filter Deed.isHerald).map (·.occurrence.event) = event :: events) :
    ∃ part rest, deeds = part ++ herald event :: rest ∧ Stretch count part ∧
      Timely (count + 1) rest ∧
      (rest.filter Deed.isHerald).map (·.occurrence.event) = events := by
  obtain ⟨deed, later, hfilter, hevent, hlater⟩ := List.map_eq_cons_iff.1 hheralds
  obtain ⟨part, rest, rfl, hpart, hherald, rfl⟩ := List.filter_eq_cons_iff.1 hfilter
  have hsilent : ∀ deed ∈ part, deed.isHerald = false :=
    fun deed hdeed => Bool.eq_false_iff.2 (hpart deed hdeed)
  obtain ⟨hbefore, hbehind⟩ := (timely_append ..).1 h
  rw [List.countP_eq_zero.2 hpart, Nat.add_zero] at hbehind
  obtain ⟨hworker, hrest⟩ := hbehind
  rw [if_pos hherald] at hrest
  have hthread : deed.thread = .orchestrator := by
    cases hthread : deed.thread with
    | orchestrator => rfl
    | worker round position =>
      have hsilent := (hworker round (by rw [hthread]; rfl)).2
      rw [hherald] at hsilent
      cases hsilent
  have hauthor := hsigned deed (by simp) hthread
  refine ⟨part, rest, ?_, hbefore.stretch hsilent, hrest, hlater⟩
  obtain ⟨_, _, _⟩ := deed
  cases hthread
  cases hauthor
  cases hevent
  rfl

/-- The rounds are reported with the devices that had work from the start. -/
theorem counts_of_ended (hreach : Reachable setting s) (hpost : s.post = .ended) (round : Round) :
    s.counts setting.devices round = round.count setting.devices := by
  have hroster : (s.roster setting.devices round).map round.phase? =
      setting.devices.map round.phase? := by
    apply List.ext_getElem?
    intro position
    rw [List.getElem?_map, List.getElem?_map]
    cases hget : (s.roster setting.devices round)[position]? with
    | some device =>
      obtain ⟨origin, horigin, _, hsame, _⟩ := origin_of_roster hreach hget
      rw [horigin, Option.map_some, Option.map_some, hsame]
    | none =>
      have hsize : (s.roster setting.devices round).length = setting.devices.length := by
        cases round with
        | first => rfl
        | second =>
          have hfirst := (orderly_of_reachable hreach).size .first (by rw [hpost]; exact .inl rfl)
          simp only [State.roster, List.length_map]
          exact hfirst
      rw [List.getElem?_eq_none_iff, hsize, ← List.getElem?_eq_none_iff] at hget
      rw [hget]
  have hcount : ∀ devices : List Device,
      round.count devices = (devices.map round.phase?).countP Option.isSome := by
    intro devices
    rw [List.countP_map]
    rfl
  rw [State.counts, hcount, hroster, ← hcount]

/-- A run that has come to its end in its stretches. -/
theorem stretches_of_ended (hreach : Reachable setting s) (hpost : s.post = .ended) :
    ∃ before first between second behind : List Deed,
      s.deeds =
        before ++ herald (.roundStarted 1 (Round.first.count setting.devices)) ::
          (first ++ herald (.roundFinished 1) ::
            (between ++ herald (.roundStarted 2 (Round.second.count setting.devices)) ::
              (second ++ herald (.roundFinished 2) :: behind))) ∧
      Stretch 0 before ∧ Stretch 1 first ∧ Stretch 2 between ∧ Stretch 3 second ∧
      Stretch 4 behind := by
  have hsigned : ∀ deed ∈ s.deeds, deed.thread = .orchestrator →
      deed.occurrence.author = .orchestrator :=
    fun _ hdeed => (author_eq_orchestrator_iff hreach hdeed).2
  have hreports := roundReports_of_reachable hreach
  rw [roundReports_trace, hpost, Post.reports, openingReports, earlierReports,
    counts_of_ended hreach hpost, counts_of_ended hreach hpost] at hreports
  have htimely := timely_of_reachable hreach
  obtain ⟨before, rest, hdeeds, hbefore, htimely, hreports⟩ := htimely.cut hsigned hreports
  rw [hdeeds] at hsigned
  obtain ⟨first, rest, rfl, hfirst, htimely, hreports⟩ := htimely.cut
    (fun deed hdeed => hsigned deed (by simp [hdeed])) hreports
  obtain ⟨between, rest, rfl, hbetween, htimely, hreports⟩ := htimely.cut
    (fun deed hdeed => hsigned deed (by simp [hdeed])) hreports
  obtain ⟨second, rest, rfl, hsecond, htimely, hreports⟩ := htimely.cut
    (fun deed hdeed => hsigned deed (by simp [hdeed])) hreports
  have hsilent : ∀ deed ∈ rest, deed.isHerald = false := by
    rw [List.map_eq_nil_iff, List.filter_eq_nil_iff] at hreports
    exact fun deed hdeed => Bool.eq_false_iff.2 (hreports deed hdeed)
  exact ⟨before, first, between, second, rest, hdeeds, hbefore, hfirst, hbetween, hsecond,
    htimely.stretch hsilent⟩

end Threads

end FlashFleet
