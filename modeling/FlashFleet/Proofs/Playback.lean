import FlashFleet.Proofs.Threads
/-!
# Playing a run

A thread that may move has one step to take, so that a run is known by the order
in which its threads move, and can be played.

## Main results

* `step_iff_advance?` — a thread takes the step that it is found to take.
* `leads_of_play?` — what is played is a run.
-/

namespace FlashFleet.Threads

/-! ## The next dispatch -/

/-- The first station whose work waits for its dispatch, and its position behind
`start`. -/
def firstQueued? (start : Nat) : List Station → Option (Nat × Station × Phase)
  | [] => none
  | station :: rest =>
    match station.stage with
    | .queued phase => some (start, station, phase)
    | _ => firstQueued? (start + 1) rest

theorem firstQueued?_eq_none {start : Nat} {stations : List Station}
    (h : firstQueued? start stations = none) :
    ∀ station ∈ stations, station.stage.isQueued = false := by
  induction stations generalizing start with
  | nil =>
    intro station hmem
    cases hmem
  | cons head rest ih =>
    intro station hmem
    unfold firstQueued? at h
    split at h
    · cases h
    · next hnot =>
      rcases List.mem_cons.1 hmem with rfl | hmem
      · cases hstage : station.stage with
        | queued phase => exact absurd hstage (hnot phase)
        | _ => rfl
      · exact ih h station hmem

theorem firstQueued?_eq_some {start position : Nat} {stations : List Station} {station : Station}
    {phase : Phase} (h : firstQueued? start stations = some (position, station, phase)) :
    start ≤ position ∧ stations[position - start]? = some station ∧
      station.stage = .queued phase ∧
      ∀ earlier ∈ stations.take (position - start), earlier.stage.isQueued = false := by
  induction stations generalizing start with
  | nil => cases h
  | cons head rest ih =>
    unfold firstQueued? at h
    split at h
    · next hstage =>
      simp only [Option.some.injEq, Prod.mk.injEq] at h
      obtain ⟨rfl, rfl, rfl⟩ := h
      simp [hstage]
    · next hnot =>
      obtain ⟨hle, hget, hstage, hearlier⟩ := ih h
      have hsub : position - start = (position - (start + 1)) + 1 := by omega
      rw [hsub]
      refine ⟨by omega, hget, hstage, ?_⟩
      intro earlier hmem
      rw [List.take_succ_cons] at hmem
      rcases List.mem_cons.1 hmem with rfl | hmem
      · cases hhead : earlier.stage with
        | queued phase => exact absurd hhead (hnot phase)
        | _ => rfl
      · exact hearlier earlier hmem

theorem firstQueued?_of_getElem? {start position : Nat} {stations : List Station}
    {station : Station} {phase : Phase} (hget : stations[position]? = some station)
    (hstage : station.stage = .queued phase)
    (hfirst : ∀ earlier ∈ stations.take position, earlier.stage.isQueued = false) :
    firstQueued? start stations = some (start + position, station, phase) := by
  induction stations generalizing start position with
  | nil => simp at hget
  | cons head rest ih =>
    cases position with
    | zero =>
      simp only [List.getElem?_cons_zero, Option.some.injEq] at hget
      subst hget
      simp [firstQueued?, hstage]
    | succ position =>
      have hhead : head.stage.isQueued = false := hfirst head (by simp)
      have hrest : firstQueued? (start + 1) rest = some (start + 1 + position, station, phase) :=
        ih hget fun earlier hmem => hfirst earlier (by simp [hmem])
      unfold firstQueued?
      split
      · next hqueued =>
        rw [hqueued] at hhead
        cases hhead
      · rw [hrest, Nat.add_right_comm, Nat.add_assoc]

theorem firstQueued?_of_none {start : Nat} {stations : List Station}
    (h : ∀ station ∈ stations, station.stage.isQueued = false) :
    firstQueued? start stations = none := by
  cases hfound : firstQueued? start stations with
  | none => rfl
  | some found =>
    obtain ⟨position, station, phase⟩ := found
    obtain ⟨_, hget, hstage, _⟩ := firstQueued?_eq_some hfound
    have hqueued := h station (List.mem_of_getElem? hget)
    rw [hstage] at hqueued
    cases hqueued

/-! ## The step of a thread -/

/-- Where the orchestrator goes on when the worker it waits for has come to an
end. -/
def joined? (round : Round) (next : Post) (station : Station) : Option Post :=
  match station.stage with
  | .finished => some next
  | .crashed text => some (.unwinding round text)
  | _ => none

/-- The step of a thread, if it may move. -/
def advance? (setting : Setting) (s : State) : Thread → Option State
  | .worker round position =>
    match (s.stations round)[position]? with
    | none => none
    | some station =>
      if station.stage.isLive then some (s.work setting round position station) else none
  | .orchestrator =>
    match s.post.awaited? with
    | some (round, handle, next) =>
      match (s.stations round)[handle]? with
      | none => none
      | some station => (joined? round next station).map s.moveTo
    | none =>
      match s.post with
      | .opening round => some (s.openRound setting.devices round)
      | .dispatching round handles =>
        match firstQueued? 0 (s.stations round) with
        | none => some (s.moveTo (.joining round handles))
        | some (position, station, phase) =>
          some (s.dispatch setting.sequential round handles position station phase)
      | .joining round _ => some (s.moveTo (.closing round))
      | .closing round => some (s.close round)
      | .unwinding round text =>
        if (s.stations round).all fun station => !station.stage.isLive then
          some (s.moveTo (.raised round text))
        else none
      | _ => none

/-- A thread that may move has one step to take. -/
theorem step_iff_advance? {setting : Setting} {s next : State} {thread : Thread} :
    Step setting s thread next ↔ advance? setting s thread = some next := by
  constructor
  · intro hstep
    cases hstep with
    | opening hpost => simp [advance?, hpost, Post.awaited?]
    | dispatching hpost hget hstage hfirst =>
      simp [advance?, hpost, Post.awaited?, firstQueued?_of_getElem? hget hstage hfirst]
    | dispatched hpost hnone =>
      simp [advance?, hpost, Post.awaited?, firstQueued?_of_none hnone]
    | join hpost hget hstage => simp [advance?, hpost, hget, joined?, hstage]
    | rethrow hpost hget hstage => simp [advance?, hpost, hget, joined?, hstage]
    | joined hpost => simp [advance?, hpost, Post.awaited?]
    | closing hpost => simp [advance?, hpost, Post.awaited?]
    | unwound hpost hrest => simpa [advance?, hpost, Post.awaited?] using hrest
    | working hget hlive => simp [advance?, hget, hlive]
  · intro h
    cases thread with
    | worker round position =>
      simp only [advance?] at h
      split at h
      · cases h
      · next station hget =>
        split at h
        · next hlive =>
          cases h
          exact .working hget hlive
        · cases h
    | orchestrator =>
      simp only [advance?] at h
      split at h
      · next round handle following hawaited =>
        split at h
        · cases h
        · next station hget =>
          obtain ⟨post, hjoined, rfl⟩ := Option.map_eq_some_iff.1 h
          unfold joined? at hjoined
          split at hjoined
          · next hstage =>
            cases hjoined
            exact .join hawaited hget hstage
          · next text hstage =>
            cases hjoined
            exact .rethrow hawaited hget hstage
          · cases hjoined
      · next hawaited =>
        split at h
        · next round hpost =>
          cases h
          exact .opening hpost
        · next round handles hpost =>
          split at h
          · next hqueued =>
            cases h
            exact .dispatched hpost (firstQueued?_eq_none hqueued)
          · next position station phase hqueued =>
            cases h
            obtain ⟨_, hget, hstage, hfirst⟩ := firstQueued?_eq_some hqueued
            exact .dispatching hpost hget hstage hfirst
        · next round handles hpost =>
          cases h
          cases handles with
          | nil => exact .joined hpost
          | cons handle handles => simp [hpost, Post.awaited?] at hawaited
        · next round hpost =>
          cases h
          exact .closing hpost
        · next round text hpost =>
          split at h
          · next hrest =>
            cases h
            refine .unwound hpost fun station hmem => ?_
            simpa using List.all_eq_true.1 hrest station hmem
          · cases h
        · cases h

/-- A thread takes no two steps from one state. -/
theorem Step.unique {setting : Setting} {s next other : State} {thread : Thread}
    (h : Step setting s thread next) (h' : Step setting s thread other) : next = other := by
  have hsame := (step_iff_advance?.1 h).symm.trans (step_iff_advance?.1 h')
  exact Option.some.inj hsame

/-! ## Runs -/

/-- The run after threads moved in an order, if each of them might. -/
def play? (setting : Setting) (s : State) : List Thread → Option State
  | [] => some s
  | thread :: rest =>
    match advance? setting s thread with
    | none => none
    | some next => play? setting next rest

theorem leads_of_play? {setting : Setting} {s last : State} {threads : List Thread}
    (h : play? setting s threads = some last) : Leads setting s last := by
  induction threads generalizing s with
  | nil =>
    cases h
    exact .refl
  | cons thread rest ih =>
    simp only [play?] at h
    split at h
    · cases h
    · next next hadvance => exact .head ⟨thread, step_iff_advance?.2 hadvance⟩ (ih h)

/-! ## Two kits to play with -/

/-- A programmer with which everything succeeds. -/
def calm : Programmer where
  respond _ _ := {}

/-- A headset with images for both cores, and a gateway with one for the network
core. -/
def twoKits : List Device :=
  [{ serial := 1, kind := .headset, channel := "left", appFile := some "a", netFile := some "n" },
    { serial := 2, kind := .gateway, netFile := some "n" }]

end FlashFleet.Threads
