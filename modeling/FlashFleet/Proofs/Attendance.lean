import FlashFleet.Proofs.Threads
/-!
# The orchestrator and its workers

Whatever the order in which the threads move, a worker that is not at rest is
one that the orchestrator still attends to: it waits for its dispatch in the
round that is dispatched, or there is a handle of it that was not joined. This
ties the workers to the place where the orchestrator stands, in a parallel run
as well as in a sequential one, and it is what keeps the rounds apart.

## Main results

* `orderly_of_reachable` — the invariant holds in every state of every run.
* `Orderly.atRest_of_ne` — outside of the round in which the orchestrator stands
  all workers are at rest.
-/

namespace FlashFleet

/-- There is nothing left to do for the worker, or there never was. -/
def Stage.atRest : Stage → Bool
  | .idle => true
  | .finished => true
  | _ => false

namespace Stage

variable {stage : Stage}

theorem isLive_of_atRest (hrest : stage.atRest = true) : stage.isLive = false := by
  cases stage <;> first | rfl | cases hrest

theorem isQueued_of_atRest (hrest : stage.atRest = true) : stage.isQueued = false := by
  cases stage <;> first | rfl | cases hrest

theorem crash?_of_atRest (hrest : stage.atRest = true) : stage.crash? = none := by
  cases stage <;> first | rfl | cases hrest

end Stage

theorem Station.atRest_or_queued (round : Round) (device : Device) :
    (Station.enter round device).stage.atRest = true ∨
      (Station.enter round device).stage.isQueued = true := by
  cases hphase : round.phase? device with
  | none =>
    rw [enter_of_none hphase]
    exact .inl rfl
  | some phase =>
    rw [enter_of_some hphase]
    exact .inr rfl

namespace Threads

namespace Post

/-- The round was opened. -/
def Opened : Post → Round → Prop
  | .opening now, round => now = .second ∧ round = .first
  | post, round => round = .first ∨ post.round = .second

/-- The orchestrator has still to do with a worker: it will dispatch it or join
it, or has caught the crash of one and waits for all. -/
def Attends (post : Post) (round : Round) (position : Nat) (stage : Stage) : Prop :=
  match post with
  | .dispatching now handles => round = now ∧ (stage.isQueued = true ∨ position ∈ handles)
  | .awaiting now handle handles =>
    round = now ∧ (stage.isQueued = true ∨ position ∈ handle :: handles)
  | .joining now handles => round = now ∧ position ∈ handles
  | .unwinding now _ => round = now
  | .raised now _ => round = now ∧ stage.isLive = false
  | .opening _ => False
  | .closing _ => False
  | .ended => False

/-- The crash of a worker that the orchestrator has met with. -/
def crash? : Post → Option String
  | .unwinding _ text => some text
  | .raised _ text => some text
  | _ => none

theorem Attends.round_eq {post : Post} {round : Round} {position : Nat} {stage : Stage}
    (h : post.Attends round position stage) : round = post.round := by
  cases post with
  | dispatching now handles => exact h.1
  | awaiting now handle handles => exact h.1
  | joining now handles => exact h.1
  | unwinding now text => exact h
  | raised now text => exact h.1
  | opening now => exact h.elim
  | closing now => exact h.elim
  | ended => exact h.elim

/-- A worker that is waited for is attended to at every stage, and so is it when
it was live. -/
theorem Attends.of_live {post : Post} {round : Round} {position : Nat} {stage : Stage}
    (h : post.Attends round position stage) (hlive : stage.isLive = true) (other : Stage) :
    post.Attends round position other := by
  have hqueued : stage.isQueued = false := by
    cases stage <;> first | rfl | simp [Stage.isLive] at hlive
  cases post with
  | dispatching now handles =>
    obtain ⟨hround, h⟩ := h
    rw [hqueued] at h
    exact ⟨hround, .inr (h.resolve_left (by simp))⟩
  | awaiting now handle handles =>
    obtain ⟨hround, h⟩ := h
    rw [hqueued] at h
    exact ⟨hround, .inr (h.resolve_left (by simp))⟩
  | joining now handles => exact h
  | unwinding now text => exact h
  | raised now text =>
    rw [h.2] at hlive
    cases hlive
  | opening now => exact h.elim
  | closing now => exact h.elim
  | ended => exact h.elim

theorem attends_afterDispatch (sequential : Bool) (round : Round) (handles : List Nat)
    (dispatched position : Nat) (stage : Stage) :
    (afterDispatch sequential round handles dispatched).Attends round position stage ↔
      stage.isQueued = true ∨ position = dispatched ∨ position ∈ handles := by
  unfold afterDispatch
  cases sequential with
  | true => simp [Attends]
  | false => simp [Attends, or_comm]

@[simp] theorem round_afterDispatch (sequential : Bool) (round : Round) (handles : List Nat)
    (position : Nat) : (afterDispatch sequential round handles position).round = round := by
  unfold afterDispatch
  split <;> rfl

theorem opened_afterDispatch (sequential : Bool) (now : Round) (handles : List Nat)
    (position : Nat) (round : Round) :
    (afterDispatch sequential now handles position).Opened round ↔
      round = .first ∨ now = .second := by
  unfold afterDispatch
  split <;> rfl

@[simp] theorem crash?_afterDispatch (sequential : Bool) (round : Round) (handles : List Nat)
    (position : Nat) : (afterDispatch sequential round handles position).crash? = none := by
  unfold afterDispatch
  split <;> rfl

theorem awaited?_eq_some {post next : Post} {round : Round} {handle : Nat}
    (h : post.awaited? = some (round, handle, next)) :
    (∃ handles, post = .awaiting round handle handles ∧ next = .dispatching round handles) ∨
      (∃ handles, post = .joining round (handle :: handles) ∧ next = .joining round handles) := by
  cases post with
  | awaiting now handle' handles =>
    simp only [awaited?, Option.some.injEq, Prod.mk.injEq] at h
    obtain ⟨rfl, rfl, rfl⟩ := h
    exact .inl ⟨handles, rfl, rfl⟩
  | joining now handles =>
    cases handles with
    | nil => simp [awaited?] at h
    | cons handle' handles =>
      simp only [awaited?, Option.some.injEq, Prod.mk.injEq] at h
      obtain ⟨rfl, rfl, rfl⟩ := h
      exact .inr ⟨handles, rfl, rfl⟩
  | _ => simp [awaited?] at h

end Post

/-! ## Deeds of the rounds -/

/-- The report that the first round is over. -/
def firstRoundOver : Deed := ⟨.orchestrator, ⟨.orchestrator, .roundFinished 1⟩⟩

/-- In the first round no worker of the second did anything. In the second, what
workers of the first did lies before the report that the first round is over, and
what workers of the second did lies behind it. -/
def Apart (round : Round) (deeds : List Deed) : Prop :=
  match round with
  | .first => ∀ deed ∈ deeds, deed.thread.round? ≠ some .second
  | .second =>
    ∃ before after, deeds = before ++ firstRoundOver :: after ∧
      (∀ deed ∈ before, deed.thread.round? ≠ some .second) ∧
      ∀ deed ∈ after, deed.thread.round? ≠ some .first

/-- Deeds of the orchestrator and of workers of the round keep the rounds apart. -/
theorem Apart.append {round : Round} {deeds more : List Deed} (h : Apart round deeds)
    (hmore : ∀ deed ∈ more, ∀ other, deed.thread.round? = some other → other = round) :
    Apart round (deeds ++ more) := by
  cases round with
  | first =>
    intro deed hdeed hround
    rcases List.mem_append.1 hdeed with hold | hnew
    · exact h deed hold hround
    · cases hmore deed hnew _ hround
  | second =>
    obtain ⟨before, after, rfl, hbefore, hafter⟩ := h
    refine ⟨before, after ++ more, by simp, hbefore, ?_⟩
    intro deed hdeed hround
    rcases List.mem_append.1 hdeed with hold | hnew
    · exact hafter deed hold hround
    · cases hmore deed hnew _ hround

/-! ## The invariant -/

/-- What holds in every state of a run. -/
structure Orderly (setting : Setting) (s : State) : Prop where
  /-- Before a round is opened it has no stations. -/
  unopened : ∀ round, ¬ s.post.Opened round → s.stations round = []
  /-- Afterwards it has one for every device. -/
  size : ∀ round, s.post.Opened round → (s.stations round).length = setting.devices.length
  /-- A worker that is not at rest is attended to. -/
  attended : ∀ round position station, (s.stations round)[position]? = some station →
    station.stage.atRest = true ∨ s.post.Attends round position station.stage
  /-- Only workers that have a station do something. -/
  staffed : ∀ deed ∈ s.deeds, ∀ round position, deed.thread = .worker round position →
    position < (s.stations round).length
  /-- The orchestrator does not make up a crash. -/
  blamed : ∀ text, s.post.crash? = some text →
    ∃ station ∈ s.stations s.post.round, station.stage = .crashed text
  /-- The deeds of the rounds are apart. -/
  apart : Apart s.post.round s.deeds

theorem orderly_start (setting : Setting) : Orderly setting .start where
  unopened := fun round _ => by cases round <;> rfl
  size := by
    intro round h
    obtain ⟨hsecond, _⟩ := h
    cases hsecond
  attended := by
    intro round position station hget
    cases round <;> simp [State.start, State.stations] at hget
  staffed := by
    intro deed hdeed
    simp [State.start] at hdeed
  blamed := by
    intro text h
    cases h
  apart := by
    intro deed hdeed
    simp [State.start] at hdeed

/-- Outside of the round in which the orchestrator stands all workers are at
rest. -/
theorem Orderly.atRest_of_ne {setting : Setting} {s : State} (h : Orderly setting s)
    {round : Round} (hne : round ≠ s.post.round) {position : Nat} {station : Station}
    (hget : (s.stations round)[position]? = some station) : station.stage.atRest = true :=
  (h.attended round position station hget).resolve_right fun hattends => hne hattends.round_eq

/-- A live worker is one of the round in which the orchestrator stands. -/
theorem Orderly.round_of_live {setting : Setting} {s : State} (h : Orderly setting s)
    {round : Round} {position : Nat} {station : Station}
    (hget : (s.stations round)[position]? = some station) (hlive : station.stage.isLive = true) :
    round = s.post.round ∧ s.post.Attends round position station.stage := by
  have hrest : station.stage.atRest ≠ true := by
    intro hrest
    rw [Stage.isLive_of_atRest hrest] at hlive
    cases hlive
  have hattends := (h.attended round position station hget).resolve_left hrest
  exact ⟨hattends.round_eq, hattends⟩

/-- During the first round there are no stations of the second. -/
theorem Orderly.second_eq_nil {setting : Setting} {s : State} (h : Orderly setting s)
    (hround : s.post.round = .first) : s.stations .second = [] := by
  apply h.unopened
  intro hopened
  cases hpost : s.post with
  | opening now =>
    rw [hpost] at hopened
    cases hopened.2
  | ended =>
    rw [hpost] at hround
    cases hround
  | _ =>
    rw [hpost] at hopened hround
    rcases hopened with hfirst | hsecond
    · cases hfirst
    · rw [hround] at hsecond
      cases hsecond

/-- The orchestrator may move on if it does not leave a worker behind. -/
theorem Orderly.moveTo {setting : Setting} {s : State} (h : Orderly setting s) {next : Post}
    (hround : next.round = s.post.round)
    (hopened : ∀ round, next.Opened round ↔ s.post.Opened round)
    (hattends : ∀ position station, (s.stations s.post.round)[position]? = some station →
      s.post.Attends s.post.round position station.stage →
      station.stage.atRest = true ∨ next.Attends s.post.round position station.stage)
    (hblamed : ∀ text, next.crash? = some text →
      ∃ station ∈ s.stations s.post.round, station.stage = .crashed text) :
    Orderly setting (s.moveTo next) where
  unopened := by
    intro round hnot
    rw [State.stations_moveTo]
    exact h.unopened round fun hold => hnot ((hopened round).2 hold)
  size := by
    intro round hopen
    rw [State.stations_moveTo]
    exact h.size round ((hopened round).1 hopen)
  attended := by
    intro round position station hget
    rw [State.stations_moveTo] at hget
    rcases h.attended round position station hget with hrest | hold
    · exact .inl hrest
    · have heq := hold.round_eq
      subst heq
      exact hattends position station hget hold
  staffed := by
    rw [State.stations_moveTo, State.deeds_moveTo]
    exact h.staffed
  blamed := by
    rw [State.stations_moveTo, State.post_moveTo, hround]
    exact hblamed
  apart := by
    rw [State.post_moveTo, State.deeds_moveTo, hround]
    exact h.apart

/-- A round is opened when the one before it is over. -/
private theorem Orderly.openRound {setting : Setting} {s : State} (h : Orderly setting s)
    {round : Round} (hpost : s.post = .opening round) :
    Orderly setting (s.openRound setting.devices round) where
  unopened := by
    intro other hnot
    rw [State.post_openRound] at hnot
    cases round with
    | second => exact absurd (.inr rfl) hnot
    | first =>
      have hne : other ≠ .first := fun heq => hnot (.inl heq)
      rw [State.stations_openRound_of_ne s setting.devices hne]
      apply h.unopened
      rw [hpost]
      intro hopened
      exact hne hopened.2
  size := by
    intro other hopened
    have hroster : (s.roster setting.devices round).length = setting.devices.length := by
      cases round with
      | first => rfl
      | second =>
        have hfirst := h.size .first (by rw [hpost]; exact ⟨rfl, rfl⟩)
        simp only [State.roster, List.length_map]
        exact hfirst
    by_cases heq : other = round
    · subst heq
      rw [State.stations_openRound_self, List.length_map, hroster]
    · rw [State.stations_openRound_of_ne s setting.devices heq]
      apply h.size
      rw [hpost]
      cases round with
      | first => cases other <;> simp [Post.Opened, Post.round] at hopened heq
      | second => cases other <;> simp [Post.Opened] at heq ⊢
  attended := by
    intro other position station hget
    by_cases heq : other = round
    · subst heq
      rw [State.stations_openRound_self, List.getElem?_map, Option.map_eq_some_iff] at hget
      obtain ⟨device, _, rfl⟩ := hget
      rcases Station.atRest_or_queued other device with hrest | hqueued
      · exact .inl hrest
      · exact .inr ⟨rfl, .inl hqueued⟩
    · rw [State.stations_openRound_of_ne s setting.devices heq] at hget
      rcases h.attended other position station hget with hrest | hattends
      · exact .inl hrest
      · rw [hpost] at hattends
        exact hattends.elim
  staffed := by
    intro deed hdeed other position hthread
    rw [State.deeds_openRound] at hdeed
    rcases List.mem_append.1 hdeed with hold | hnew
    · have hlt := h.staffed deed hold other position hthread
      have hne : other ≠ round := by
        rintro rfl
        have hnil : s.stations other = [] := by
          apply h.unopened
          rw [hpost]
          rintro ⟨hsecond, hfirst⟩
          rw [hfirst] at hsecond
          cases hsecond
        rw [hnil] at hlt
        exact absurd hlt (Nat.not_lt_zero position)
      rw [State.stations_openRound_of_ne s setting.devices hne]
      exact hlt
    · obtain ⟨event, _, rfl⟩ := List.mem_map.1 hnew
      cases hthread
  blamed := by
    intro text hcrash
    cases hcrash
  apart := by
    have hround : s.post.round = round := by rw [hpost]; rfl
    rw [State.post_openRound, State.deeds_openRound]
    have hold := h.apart
    rw [hround] at hold
    apply hold.append
    intro deed hdeed other hother
    obtain ⟨event, _, rfl⟩ := List.mem_map.1 hdeed
    cases hother

/-- Work that was dispatched is from then on attended to through its handle. -/
private theorem Orderly.dispatch {setting : Setting} {s : State} (h : Orderly setting s)
    {round : Round} {handles : List Nat} {position : Nat} {station : Station} {phase : Phase}
    (hpost : s.post = .dispatching round handles) :
    Orderly setting (s.dispatch setting.sequential round handles position station phase) where
  unopened := by
    intro other hnot
    rw [State.post_dispatch, Post.opened_afterDispatch] at hnot
    have hne : other ≠ round := by
      rintro rfl
      cases other <;> simp at hnot
    rw [State.stations_dispatch_of_ne _ _ _ _ _ _ hne]
    apply h.unopened
    rw [hpost]
    exact hnot
  size := by
    intro other hopened
    rw [State.post_dispatch, Post.opened_afterDispatch] at hopened
    have hold : (s.stations other).length = setting.devices.length :=
      h.size other (by rw [hpost]; exact hopened)
    by_cases heq : other = round
    · subst heq
      rw [State.stations_dispatch_self, List.length_set, hold]
    · rw [State.stations_dispatch_of_ne _ _ _ _ _ _ heq, hold]
  attended := by
    intro other place found hget
    rw [State.post_dispatch]
    by_cases heq : other = round
    · subst heq
      rw [State.stations_dispatch_self, List.getElem?_set] at hget
      by_cases hplace : position = place
      · right
        rw [Post.attends_afterDispatch]
        exact .inr (.inl hplace.symm)
      · rw [if_neg hplace] at hget
        rcases h.attended other place found hget with hrest | hattends
        · exact .inl hrest
        · right
          rw [hpost] at hattends
          rw [Post.attends_afterDispatch]
          exact hattends.2.imp_right .inr
    · rw [State.stations_dispatch_of_ne _ _ _ _ _ _ heq] at hget
      apply Or.inl
      apply h.atRest_of_ne _ hget
      rw [hpost]
      exact heq
  staffed := by
    intro deed hdeed other place hthread
    rw [State.deeds_dispatch] at hdeed
    rcases List.mem_append.1 hdeed with hold | hnew
    · have hlt := h.staffed deed hold other place hthread
      by_cases heq : other = round
      · subst heq
        rw [State.stations_dispatch_self, List.length_set]
        exact hlt
      · rw [State.stations_dispatch_of_ne _ _ _ _ _ _ heq]
        exact hlt
    · obtain ⟨event, _, rfl⟩ := List.mem_map.1 hnew
      cases hthread
  blamed := by
    intro text hcrash
    rw [State.post_dispatch, Post.crash?_afterDispatch] at hcrash
    cases hcrash
  apart := by
    have hround : s.post.round = round := by rw [hpost]; rfl
    rw [State.post_dispatch, State.deeds_dispatch, Post.round_afterDispatch]
    have hold := h.apart
    rw [hround] at hold
    apply hold.append
    intro deed hdeed other hother
    obtain ⟨event, _, rfl⟩ := List.mem_map.1 hdeed
    cases hother

/-- A round is closed when all its workers are at rest. -/
private theorem Orderly.close {setting : Setting} {s : State} (h : Orderly setting s)
    {round : Round} (hpost : s.post = .closing round) : Orderly setting (s.close round) where
  unopened := by
    intro other hnot
    rw [State.post_close] at hnot
    rw [State.stations_close]
    apply h.unopened
    rw [hpost]
    intro hopened
    apply hnot
    cases round with
    | first => exact ⟨rfl, hopened.resolve_right (fun heq => by cases heq)⟩
    | second => exact .inr rfl
  size := by
    intro other hopened
    rw [State.post_close] at hopened
    rw [State.stations_close]
    apply h.size
    rw [hpost]
    cases round with
    | first => exact .inl hopened.2
    | second => exact .inr rfl
  attended := by
    intro other position station hget
    rw [State.stations_close] at hget
    rcases h.attended other position station hget with hrest | hattends
    · exact .inl hrest
    · rw [hpost] at hattends
      exact hattends.elim
  staffed := by
    intro deed hdeed other position hthread
    rw [State.deeds_close] at hdeed
    rw [State.stations_close]
    rcases List.mem_append.1 hdeed with hold | hnew
    · exact h.staffed deed hold other position hthread
    · obtain ⟨event, _, rfl⟩ := List.mem_map.1 hnew
      cases hthread
  blamed := by
    intro text hcrash
    cases round <;> cases hcrash
  apart := by
    have hold := h.apart
    rw [hpost] at hold
    rw [State.post_close, State.deeds_close]
    cases round with
    | first =>
      refine ⟨s.deeds, [], rfl, hold, ?_⟩
      intro deed hdeed
      cases hdeed
    | second =>
      apply Apart.append hold
      intro deed hdeed other hother
      obtain ⟨event, _, rfl⟩ := List.mem_map.1 hdeed
      cases hother

/-- A live worker is attended to wherever its step leads it. -/
private theorem Orderly.work {setting : Setting} {s : State} (h : Orderly setting s)
    {round : Round} {position : Nat} {station : Station}
    (hget : (s.stations round)[position]? = some station) (hlive : station.stage.isLive = true) :
    Orderly setting (s.work setting round position station) := by
  obtain ⟨hround, hattends⟩ := h.round_of_live hget hlive
  refine
    { unopened := ?_, size := ?_, attended := ?_, staffed := ?_, blamed := ?_, apart := ?_ }
  · intro other hnot
    rw [State.post_work] at hnot
    have hnil := h.unopened other hnot
    have hne : other ≠ round := by
      rintro rfl
      simp [hnil] at hget
    rw [State.stations_work_of_ne _ _ _ _ hne, hnil]
  · intro other hopened
    rw [State.post_work] at hopened
    by_cases heq : other = round
    · subst heq
      rw [State.stations_work_self, List.length_set, h.size other hopened]
    · rw [State.stations_work_of_ne _ _ _ _ heq, h.size other hopened]
  · intro other place found hfound
    rw [State.post_work]
    by_cases heq : other = round ∧ place = position
    · obtain ⟨rfl, rfl⟩ := heq
      exact .inr (hattends.of_live hlive found.stage)
    · rw [State.getElem?_work_of_ne _ _ _ heq] at hfound
      exact h.attended other place found hfound
  · have hlength : ∀ other, ((s.work setting round position station).stations other).length =
        (s.stations other).length := by
      intro other
      by_cases heq : other = round
      · subst heq
        rw [State.stations_work_self, List.length_set]
      · rw [State.stations_work_of_ne _ _ _ _ heq]
    intro deed hdeed other place hthread
    rw [hlength]
    rw [State.deeds_work] at hdeed
    rcases List.mem_append.1 hdeed with hold | hnew
    · exact h.staffed deed hold other place hthread
    · obtain ⟨event, _, rfl⟩ := List.mem_map.1 hnew
      simp only [Thread.worker.injEq] at hthread
      obtain ⟨rfl, rfl⟩ := hthread
      exact (List.getElem?_eq_some_iff.1 hget).1
  · intro text hcrash
    rw [State.post_work] at hcrash ⊢
    obtain ⟨blamed, hmem, hstage⟩ := h.blamed text hcrash
    rw [← hround] at hmem ⊢
    rw [State.stations_work_self]
    obtain ⟨place, hplace⟩ := List.getElem?_of_mem hmem
    have hne : position ≠ place := by
      rintro rfl
      rw [hget, Option.some.injEq] at hplace
      rw [hplace, hstage] at hlive
      cases hlive
    refine ⟨blamed, List.mem_of_getElem? (i := place) ?_, hstage⟩
    rw [List.getElem?_set_ne hne]
    exact hplace
  · rw [State.post_work, State.deeds_work]
    apply h.apart.append
    intro deed hdeed other hother
    obtain ⟨event, _, rfl⟩ := List.mem_map.1 hdeed
    simp only [Thread.round?, Option.some.injEq] at hother
    rw [← hother, hround]

/-- The invariant is kept by every step. -/
theorem Orderly.step {setting : Setting} {s next : State} {thread : Thread}
    (h : Orderly setting s) (hstep : Step setting s thread next) : Orderly setting next := by
  cases hstep with
  | opening hpost => exact h.openRound hpost
  | dispatching hpost => exact h.dispatch hpost
  | closing hpost => exact h.close hpost
  | working hget hlive => exact h.work hget hlive
  | @dispatched round handles hpost hnone =>
    refine h.moveTo (by rw [hpost]; rfl) (fun other => by rw [hpost]; rfl) ?_ nofun
    intro position station hget hattends
    rw [hpost] at hget hattends ⊢
    have hqueued := hnone station (List.mem_of_getElem? hget)
    rcases hattends.2 with hstill | hhandle
    · rw [hqueued] at hstill
      cases hstill
    · exact .inr ⟨rfl, hhandle⟩
  | @join round handle following station hawaited hget hstage =>
    have hfinished : ∀ place found, (s.stations round)[place]? = some found → place = handle →
        found.stage.atRest = true := by
      rintro place found hfound rfl
      rw [hget, Option.some.injEq] at hfound
      rw [← hfound, hstage]
      rfl
    rcases Post.awaited?_eq_some hawaited with ⟨handles, hpost, rfl⟩ | ⟨handles, hpost, rfl⟩
    all_goals
      refine h.moveTo (by rw [hpost]; rfl) (fun other => by rw [hpost]; rfl) ?_ nofun
      intro place found hfound hattends
      rw [hpost] at hfound hattends ⊢
    · rcases hattends.2 with hqueued | hhandle
      · exact .inr ⟨rfl, .inl hqueued⟩
      · rcases List.mem_cons.1 hhandle with heq | hlater
        · exact .inl (hfinished place found hfound heq)
        · exact .inr ⟨rfl, .inr hlater⟩
    · rcases List.mem_cons.1 hattends.2 with heq | hlater
      · exact .inl (hfinished place found hfound heq)
      · exact .inr ⟨rfl, hlater⟩
  | @rethrow round handle following station text hawaited hget hstage =>
    have hnow : s.post.round = round ∧ ∀ other, s.post.Opened other ↔
        other = .first ∨ round = .second := by
      rcases Post.awaited?_eq_some hawaited with ⟨handles, hpost, _⟩ | ⟨handles, hpost, _⟩
      · rw [hpost]
        exact ⟨rfl, fun _ => Iff.rfl⟩
      · rw [hpost]
        exact ⟨rfl, fun _ => Iff.rfl⟩
    refine h.moveTo hnow.1.symm (fun other => (hnow.2 other).symm) ?_ ?_
    · intro place found hfound hattends
      exact .inr hnow.1
    · intro other hcrash
      simp only [Post.crash?, Option.some.injEq] at hcrash
      rw [hnow.1]
      exact ⟨station, List.mem_of_getElem? hget, by rw [hstage, hcrash]⟩
  | @joined round hpost =>
    refine h.moveTo (by rw [hpost]; rfl) (fun other => by rw [hpost]; rfl) ?_ nofun
    intro position station hget hattends
    rw [hpost] at hattends
    cases hattends.2
  | @unwound round text hpost hrest =>
    refine h.moveTo (by rw [hpost]; rfl) (fun other => by rw [hpost]; rfl) ?_ ?_
    · intro position station hget hattends
      rw [hpost] at hget ⊢
      exact .inr ⟨rfl, hrest station (List.mem_of_getElem? hget)⟩
    · intro other hcrash
      apply h.blamed
      rw [hpost]
      exact hcrash

/-- The invariant holds in every state of every run. -/
theorem orderly_of_reachable {setting : Setting} {s : State} (h : Reachable setting s) :
    Orderly setting s := by
  induction h with
  | refl => exact orderly_start setting
  | tail _ hstep ih =>
    obtain ⟨thread, hstep⟩ := hstep
    exact ih.step hstep

end Threads

end FlashFleet
