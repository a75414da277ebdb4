import FlashFleet.Proofs.Ending
/-!
# A sequential run has one course

In a sequential run the only worker that may be live is the one that the
orchestrator waits for, and while it is, the orchestrator cannot move. So at any
time one thread may move at most, and the run comes to one end only.

## Main results

* `Alone.of_step` — the worker that is waited for is alone.
* `eq_of_comesTo_sequential` — a sequential run comes to one end.
-/

namespace FlashFleet.Threads

variable {setting : Setting} {s next last other : State} {thread : Thread}

/-- A worker is live only while the orchestrator waits for it. -/
def Alone (s : State) : Prop :=
  ∀ (round : Round) (position : Nat) (station : Station),
    (s.stations round)[position]? = some station → station.stage.isLive = true →
    ∃ handles, s.post = .awaiting round position handles

/-- Where nobody is live the orchestrator may go anywhere. -/
theorem Alone.moveTo (hnobody : ∀ (round : Round) (position : Nat) (station : Station),
    (s.stations round)[position]? = some station → ¬ station.stage.isLive = true) (post : Post) :
    Alone (s.moveTo post) := by
  intro round position station hget hlive
  rw [State.stations_moveTo] at hget
  exact absurd hlive (hnobody round position station hget)

/-- Nobody is live while the orchestrator does not wait. -/
theorem Alone.nobody (h : Alone s)
    (hnot : ∀ round handle handles, s.post ≠ .awaiting round handle handles)
    (round : Round) (position : Nat) (station : Station)
    (hget : (s.stations round)[position]? = some station) : ¬ station.stage.isLive = true := by
  intro hlive
  obtain ⟨handles, hpost⟩ := h round position station hget hlive
  exact hnot round position handles hpost

/-- Nobody is live when the worker that is waited for is not. -/
theorem Alone.nobody_of_awaited (h : Alone s) {now : Round} {handle : Nat} {after : Post}
    {found : Station} (hawaited : s.post.awaited? = some (now, handle, after))
    (hfound : (s.stations now)[handle]? = some found) (hdead : found.stage.isLive = false)
    (round : Round) (position : Nat) (station : Station)
    (hget : (s.stations round)[position]? = some station) : ¬ station.stage.isLive = true := by
  intro hlive
  obtain ⟨handles, hpost⟩ := h round position station hget hlive
  rw [hpost] at hawaited
  cases hawaited
  rw [hget, Option.some.injEq] at hfound
  rw [hfound, hdead] at hlive
  exact absurd hlive (by decide)

/-- The worker that is waited for is alone. -/
theorem Alone.of_step (hsequential : setting.sequential = true) (h : Alone s)
    (hstep : Step setting s thread next) : Alone next := by
  cases hstep with
  | @opening now hpost =>
    have hnobody := h.nobody (by rw [hpost]; intro _ _ _ heq; cases heq)
    intro round position station hget hlive
    by_cases heq : round = now
    · subst heq
      rw [State.stations_openRound_self, List.getElem?_map, Option.map_eq_some_iff] at hget
      obtain ⟨device, _, rfl⟩ := hget
      rw [Station.isLive_enter] at hlive
      cases hlive
    · rw [State.stations_openRound_of_ne _ _ heq] at hget
      exact absurd hlive (hnobody round position station hget)
  | @dispatching now handles place found phase hpost hfound hstage hfirst =>
    have hnobody := h.nobody (by rw [hpost]; intro _ _ _ heq; cases heq)
    intro round position station hget hlive
    rw [State.post_dispatch, hsequential]
    by_cases heq : round = now ∧ position = place
    · obtain ⟨rfl, rfl⟩ := heq
      exact ⟨handles, rfl⟩
    · rw [State.getElem?_dispatch_of_ne _ _ _ _ _ heq] at hget
      exact absurd hlive (hnobody round position station hget)
  | dispatched hpost =>
    exact Alone.moveTo (h.nobody (by rw [hpost]; intro _ _ _ heq; cases heq)) _
  | join hawaited hget hstage =>
    exact Alone.moveTo (h.nobody_of_awaited hawaited hget (by rw [hstage]; rfl)) _
  | rethrow hawaited hget hstage =>
    exact Alone.moveTo (h.nobody_of_awaited hawaited hget (by rw [hstage]; rfl)) _
  | joined hpost =>
    exact Alone.moveTo (h.nobody (by rw [hpost]; intro _ _ _ heq; cases heq)) _
  | closing hpost =>
    have hnobody := h.nobody (by rw [hpost]; intro _ _ _ heq; cases heq)
    intro round position station hget hlive
    rw [State.stations_close] at hget
    exact absurd hlive (hnobody round position station hget)
  | unwound hpost =>
    exact Alone.moveTo (h.nobody (by rw [hpost]; intro _ _ _ heq; cases heq)) _
  | @working now place found hfound hfoundLive =>
    obtain ⟨handles, hpost⟩ := h now place found hfound hfoundLive
    intro round position station hget hlive
    rw [State.post_work]
    by_cases hsame : round = now ∧ position = place
    · obtain ⟨rfl, rfl⟩ := hsame
      exact ⟨handles, hpost⟩
    · rw [State.getElem?_work_of_ne _ _ _ hsame] at hget
      exact h round position station hget hlive

theorem alone_of_reachable (hsequential : setting.sequential = true)
    (hreach : Reachable setting s) : Alone s := by
  induction hreach with
  | refl =>
    intro round position station hget
    cases round <;> simp [State.start, State.stations] at hget
  | tail _ hstep ih =>
    obtain ⟨thread, hstep⟩ := hstep
    exact ih.of_step hsequential hstep

/-- While a worker is live the orchestrator cannot move. -/
theorem Alone.not_step (h : Alone s) {round : Round} {position : Nat} {station : Station}
    (hget : (s.stations round)[position]? = some station) (hlive : station.stage.isLive = true) :
    ¬ Step setting s .orchestrator next := by
  intro hstep
  obtain ⟨handles, hpost⟩ := h round position station hget hlive
  have hadvance := step_iff_advance?.1 hstep
  have hjoined : joined? round (.dispatching round handles) station = none := by
    unfold joined?
    split
    · next hstage =>
      rw [hstage] at hlive
      cases hlive
    · next text hstage =>
      rw [hstage] at hlive
      cases hlive
    · rfl
  simp [advance?, hpost, Post.awaited?, hget, hjoined] at hadvance

/-- One thread may move at most. -/
theorem Alone.unique (h : Alone s) {moving : Thread} (hstep : Step setting s thread next)
    (hother : Step setting s moving other) : next = other := by
  have hsame : thread = moving := by
    cases thread with
    | orchestrator =>
      cases moving with
      | orchestrator => rfl
      | worker round position =>
        cases hother with
        | working hget hlive => exact absurd hstep (h.not_step hget hlive)
    | worker round position =>
      cases hstep with
      | working hget hlive =>
        cases moving with
        | orchestrator => exact absurd hother (h.not_step hget hlive)
        | worker now place =>
          cases hother with
          | working hget' hlive' =>
            obtain ⟨handles, hpost⟩ := h round position _ hget hlive
            obtain ⟨handles', hpost'⟩ := h now place _ hget' hlive'
            rw [hpost] at hpost'
            cases hpost'
            rfl
  subst hsame
  exact hstep.unique hother

/-- Whatever is reached lies on the way to the end. -/
theorem leads_to_end (hsequential : setting.sequential = true) (hreach : Reachable setting s)
    (hleads : Leads setting s next) (hend : Leads setting s last) {run : FleetRun}
    (hrun : last.outcome? = some run) : Leads setting next last := by
  induction hleads using Relation.ReflTransGen.head_induction_on with
  | refl => exact hend
  | @head s middle hstep hlater ih =>
    obtain ⟨thread, hmoves⟩ := hstep
    rcases Relation.ReflTransGen.cases_head hend with rfl | ⟨other, ⟨moving, hother⟩, hrest⟩
    · exact absurd hmoves (not_step_of_outcome hreach hrun)
    · have hsame := (alone_of_reachable hsequential hreach).unique hmoves hother
      subst hsame
      exact ih (hreach.tail ⟨thread, hmoves⟩) hrest

/-- A sequential run comes to one end. -/
theorem eq_of_comesTo_sequential {programmer : Programmer} {past : List Invocation}
    {devices : List Device} {run : FleetRun}
    (h : ComesTo (.of programmer .sequential past devices) run) :
    Fleet.run programmer .sequential past devices = run := by
  obtain ⟨s, hreach, hrun⟩ := h
  obtain ⟨last, hlast, houtcome⟩ := comesTo_run programmer .sequential past devices
  have hleads := leads_to_end rfl .refl hreach hlast houtcome
  obtain rfl := eq_of_leads_of_outcome hreach hrun hleads
  rw [hrun, Option.some.injEq] at houtcome
  exact houtcome.symm

end FlashFleet.Threads
