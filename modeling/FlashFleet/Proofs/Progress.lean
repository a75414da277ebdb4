import FlashFleet.Proofs.Floor
import FlashFleet.Proofs.Playback
/-!
# How a run goes on

Several steps together lead the orchestrator and the workers of one round
somewhere, and leave the workers of the other round where they are. What a
worker does when it is let alone is one such move, and so is the joining of
workers that have all come to an end.

## Main results

* `yields_solo` — a worker may go on to its end while nobody else moves.
* `yields_joins` — when no worker moves any more the orchestrator joins them all,
  or meets with the crash of the first that crashed.
-/

namespace FlashFleet

namespace Threads

open Parallel (dispatchedFrom)

variable {setting : Setting}

/-! ## Several steps -/

/-- Steps lead to where the orchestrator and the stations of a round stand as
given and the trace is longer by a part. The other round is left as it is. -/
def Yields (setting : Setting) (s : State) (round : Round) (post : Post)
    (stations : List Station) (trace : Trace) : Prop :=
  ∃ next, Leads setting s next ∧ next.post = post ∧ next.stations round = stations ∧
    (∀ other, other ≠ round → next.stations other = s.stations other) ∧
    next.trace = s.trace ++ trace

namespace Yields

theorem refl (s : State) (round : Round) :
    Yields setting s round s.post (s.stations round) [] :=
  ⟨s, .refl, rfl, rfl, fun _ _ => rfl, by simp⟩

variable {s : State} {round : Round} {post last : Post} {stations moved : List Station}
  {trace later : Trace}

/-- What is reached from where steps lead is reached. -/
theorem of_leads {next : State} (hleads : Leads setting s next)
    (hother : ∀ other, other ≠ round → next.stations other = s.stations other)
    (htrace : next.trace = s.trace ++ trace)
    (hlater : Yields setting next round last moved later) :
    Yields setting s round last moved (trace ++ later) := by
  obtain ⟨goal, hleads', hpost', hstations', hother', htrace'⟩ := hlater
  refine ⟨goal, hleads.trans hleads', hpost', hstations', ?_, ?_⟩
  · intro other hne
    rw [hother' other hne, hother other hne]
  · rw [htrace', htrace, List.append_assoc]

theorem trans (h : Yields setting s round post stations trace)
    (hlater : ∀ next, next.post = post → next.stations round = stations →
      next.trace = s.trace ++ trace → Yields setting next round last moved later) :
    Yields setting s round last moved (trace ++ later) := by
  obtain ⟨next, hleads, hpost, hstations, hother, htrace⟩ := h
  exact .of_leads hleads hother htrace (hlater next hpost hstations htrace)

/-- The orchestrator goes somewhere else. -/
theorem of_moveTo (hstep : Step setting s .orchestrator (s.moveTo post)) (round : Round) :
    Yields setting s round post (s.stations round) [] :=
  ⟨s.moveTo post, .single ⟨_, hstep⟩, rfl, by rw [State.stations_moveTo],
    fun _ _ => by rw [State.stations_moveTo], by simp⟩

/-- What is reached after the orchestrator went somewhere else is reached. -/
theorem after_moveTo (hstep : Step setting s .orchestrator (s.moveTo post))
    (hlater : Yields setting (s.moveTo post) round last moved later) :
    Yields setting s round last moved later := by
  obtain ⟨next, hleads, hpost, hstations, hother, htrace⟩ := hlater
  refine ⟨next, .head ⟨_, hstep⟩ hleads, hpost, hstations, ?_, htrace⟩
  rw [State.stations_moveTo] at hother
  exact hother

theorem of_dispatch {handles : List Nat} {position : Nat} {station : Station} {phase : Phase}
    (hpost : s.post = .dispatching round handles)
    (hget : (s.stations round)[position]? = some station) (hstage : station.stage = .queued phase)
    (hfirst : ∀ earlier ∈ (s.stations round).take position, earlier.stage.isQueued = false) :
    Yields setting s round (.afterDispatch setting.sequential round handles position)
      ((s.stations round).set position (station.moveTo (.dispatched phase)))
      ((round.dispatch phase station.device.serial).authoredBy .orchestrator) :=
  ⟨_, .single ⟨_, .dispatching hpost hget hstage hfirst⟩, rfl,
    State.stations_dispatch_self .., fun _ hne => State.stations_dispatch_of_ne _ _ _ _ _ _ hne,
    State.trace_dispatch ..⟩

theorem of_work {position : Nat} {station : Station}
    (hget : (s.stations round)[position]? = some station) (hlive : station.stage.isLive = true) :
    Yields setting s round s.post
      ((s.stations round).set position
        (station.step setting.programmer (setting.past ++ s.trace.invocations)).2)
      ((station.step setting.programmer (setting.past ++ s.trace.invocations)).1.authoredBy
        (.worker station.device.serial)) :=
  ⟨_, .single ⟨_, .working hget hlive⟩, State.post_work ..,
    State.stations_work_self .., fun _ hne => State.stations_work_of_ne _ _ _ _ hne,
    State.trace_work ..⟩

end Yields

/-! ## A worker let alone -/

/-- A worker may go on to its end while nobody else moves. -/
theorem yields_solo (s : State) {round : Round} {position : Nat} {station : Station}
    (hget : (s.stations round)[position]? = some station) :
    Yields setting s round s.post
      ((s.stations round).set position
        (station.solo setting.programmer (setting.past ++ s.trace.invocations)).2)
      ((station.solo setting.programmer (setting.past ++ s.trace.invocations)).1.authoredBy
        (.worker station.device.serial)) := by
  -- By induction on the steps that the worker has still to take.
  generalize hsize : station.remaining = size
  induction size using Nat.strongRecOn generalizing s station with
  | ind size ih =>
    by_cases hlive : station.stage.isLive = true
    · have hlt := station.remaining_step_lt setting.programmer
        (setting.past ++ s.trace.invocations) hlive
      have hserial := station.step_serial setting.programmer (setting.past ++ s.trace.invocations)
      have hbound : position < (s.stations round).length := (List.getElem?_eq_some_iff.1 hget).1
      rw [Station.solo_of_live hlive]
      simp only [Station.behind, Events.authoredBy_append]
      refine (Yields.of_work hget hlive).trans ?_
      intro next hpost hstations htrace
      have hmoved : (next.stations round)[position]? =
          some (station.step setting.programmer (setting.past ++ s.trace.invocations)).2 := by
        rw [hstations, List.getElem?_set_self hbound]
      have hlater := ih _ (hsize ▸ hlt) next hmoved rfl
      rw [hpost, hstations, List.set_set, hserial, htrace, Trace.invocations_append,
        Trace.invocations_authoredBy, ← List.append_assoc] at hlater
      exact hlater
    · have hdead : station.stage.isLive = false := by simpa using hlive
      have hset : (s.stations round).set position station = s.stations round := by
        obtain ⟨hbound, hget⟩ := List.getElem?_eq_some_iff.1 hget
        rw [← hget, List.set_getElem_self]
      rw [Station.solo_of_rest hdead, hset]
      exact .refl s round

/-! ## The joins -/

/-- Where the orchestrator stands at the end of a round. -/
def Post.atEnd (round : Round) : Option String → Post
  | none => .closing round
  | some text => .raised round text

/-- A crash that the orchestrator has met with is raised when no worker moves any
more. -/
theorem yields_unwound {s : State} {round : Round} {text : String}
    (hpost : s.post = .unwinding round text)
    (hrest : ∀ station ∈ s.stations round, station.stage.isLive = false) :
    Yields setting s round (.raised round text) (s.stations round) [] :=
  .of_moveTo (.unwound hpost hrest) round

/-- When no worker moves any more the orchestrator joins them all, or meets with
the crash of the first that crashed. -/
theorem yields_joins (s : State) {round : Round} {before rest : List Station}
    (hpost : s.post = .joining round (dispatchedFrom before.length rest))
    (hstations : s.stations round = before ++ rest)
    (hdead : ∀ station ∈ s.stations round, station.stage.isLive = false) :
    Yields setting s round
      (.atEnd round (rest.findSome? fun station => station.stage.crash?))
      (s.stations round) [] := by
  induction rest generalizing s before with
  | nil => exact .of_moveTo (.joined hpost) round
  | cons station rest ih =>
    have hget : (s.stations round)[before.length]? = some station := by
      rw [hstations]
      simp
    have hbehind : s.stations round = (before ++ [station]) ++ rest := by
      rw [hstations]
      simp
    have hlive := hdead station (List.mem_of_getElem? hget)
    have hsize : (before ++ [station]).length = before.length + 1 := by simp
    cases hstage : station.stage with
    | idle =>
      simp only [dispatchedFrom, hstage, Stage.wasDispatched, Bool.false_eq_true, if_false] at hpost
      rw [List.findSome?_cons, hstage]
      exact ih s (by rw [hsize]; exact hpost) hbehind hdead
    | queued phase =>
      simp only [dispatchedFrom, hstage, Stage.wasDispatched, Bool.false_eq_true, if_false] at hpost
      rw [List.findSome?_cons, hstage]
      exact ih s (by rw [hsize]; exact hpost) hbehind hdead
    | finished =>
      simp only [dispatchedFrom, hstage, Stage.wasDispatched, if_true] at hpost
      have hawaited : s.post.awaited? =
          some (round, before.length,
            .joining round (dispatchedFrom (before.length + 1) rest)) := by
        rw [hpost]
        rfl
      rw [List.findSome?_cons, hstage]
      have hlater := ih (s.moveTo _) (by rw [hsize]; rfl)
        (by rw [State.stations_moveTo]; exact hbehind) (by rw [State.stations_moveTo]; exact hdead)
      rw [State.stations_moveTo] at hlater
      exact .after_moveTo (.join hawaited hget hstage) hlater
    | crashed text =>
      simp only [dispatchedFrom, hstage, Stage.wasDispatched, if_true] at hpost
      have hawaited : s.post.awaited? =
          some (round, before.length,
            .joining round (dispatchedFrom (before.length + 1) rest)) := by
        rw [hpost]
        rfl
      rw [List.findSome?_cons, hstage]
      have hlater : Yields setting (s.moveTo (.unwinding round text)) round (.raised round text)
          ((s.moveTo (.unwinding round text)).stations round) [] :=
        yields_unwound rfl (by rw [State.stations_moveTo]; exact hdead)
      rw [State.stations_moveTo] at hlater
      exact .after_moveTo (.rethrow hawaited hget hstage) hlater
    | _ => simp [hstage, Stage.isLive] at hlive

end Threads

end FlashFleet
