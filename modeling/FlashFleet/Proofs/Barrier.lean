import FlashFleet.Proofs.Execution
import FlashFleet.Proofs.Ownership
/-!
# The rounds do not overlap

Before a worker of the second round moves at all, every worker of the first has
come to its end: it recorded its flag, its last reset is over, and the end of
the round was reported. This holds in a parallel run as in a sequential one,
although the threads know nothing of each other: the orchestrator, which joins
the workers, is all that keeps the rounds apart.

## Main results

* `firstRoundDone_of_second` — what is true as soon as the orchestrator has left
  the first round.
* `rounds_apart` — no invocation of the first round overlaps or follows one of the
  second.
-/

namespace FlashFleet.Threads

variable {setting : Setting} {s : State}

/-! ## The end of the first round -/

/-- Nothing of the first round is left to be done. -/
structure FirstRoundDone (setting : Setting) (s : State) : Prop where
  /-- The end of the round was reported. -/
  reported : firstRoundOver ∈ s.deeds
  /-- Every invocation has come to its end. -/
  ended : ∀ position, ∃ exchanges,
    Events.calls (s.eventsOf (.worker .first position)) = shown exchanges
  /-- Every device that had a phase in the round bears the flag of it. -/
  recorded : ∀ (position : Nat) (device : Device) (phase : Phase),
    setting.devices[position]? = some device → Round.first.phase? device = some phase →
    ∃ (station : Station) (flag : Flag), (s.stations .first)[position]? = some station ∧
      flag.IsVerdict ∧ station.device = phase.record flag device

theorem Post.opened_first_of_round {post : Post} (h : post.round = .second) :
    post.Opened .first := by
  cases post with
  | opening now => exact ⟨h, rfl⟩
  | _ => exact .inl rfl

/-- As soon as the orchestrator has left the first round nothing of it is left to
be done. -/
theorem firstRoundDone_of_second (hreach : Reachable setting s) (h : s.post.round = .second) :
    FirstRoundDone setting s := by
  have horderly := orderly_of_reachable hreach
  have hrest : ∀ (position : Nat) (station : Station),
      (s.stations .first)[position]? = some station → station.stage.atRest = true := by
    intro position station hget
    apply horderly.atRest_of_ne _ hget
    rw [h]
    decide
  refine { reported := ?_, ended := ?_, recorded := ?_ }
  · have hapart := horderly.apart
    rw [h] at hapart
    obtain ⟨before, after, hdeeds, _⟩ := hapart
    rw [hdeeds]
    simp
  · intro position
    by_cases hlt : position < (s.stations .first).length
    · have hget := List.getElem?_eq_getElem hlt
      obtain ⟨_, _, _, _, hcourse⟩ := course_of_reachable hreach hget
      exact hcourse.ended (hrest position _ hget)
    · rw [horderly.eventsOf_eq_nil (Nat.le_of_not_lt hlt)]
      exact ⟨[], rfl⟩
  · intro position device phase hdevice hphase
    have hsize := horderly.size .first (Post.opened_first_of_round h)
    have hlt : position < (s.stations .first).length := by
      rw [hsize]
      exact (List.getElem?_eq_some_iff.1 hdevice).1
    have hget := List.getElem?_eq_getElem hlt
    obtain ⟨origin, _, horigin, _, hcourse⟩ := course_of_reachable hreach hget
    have hsame : origin = device := by
      have horigin : setting.devices[position]? = some origin := horigin
      rw [hdevice, Option.some.injEq] at horigin
      exact horigin.symm
    rw [hsame] at hcourse
    obtain ⟨flag, hflag, hrecorded⟩ := hcourse.recorded (hrest position _ hget) hphase
    exact ⟨_, flag, hget, hflag, hrecorded⟩

/-! ## What lies before and what lies behind -/

/-- A part of a list that is not in the first half lies behind the middle. -/
private theorem split_behind {before after left right : List Deed} {deed middle : Deed}
    (h : before ++ deed :: after = left ++ middle :: right) (hleft : deed ∉ left)
    (hmiddle : deed ≠ middle) :
    ∃ between, before = left ++ middle :: between ∧ right = between ++ deed :: after := by
  rcases List.append_eq_append_iff.1 h with ⟨rest, hrest, hdeed⟩ | ⟨rest, hrest, hmid⟩
  · cases rest with
    | nil =>
      simp only [List.nil_append, List.cons.injEq] at hdeed
      exact absurd hdeed.1 hmiddle
    | cons head rest =>
      simp only [List.cons_append, List.cons.injEq] at hdeed
      rw [← hdeed.1] at hrest
      exact absurd (by rw [hrest]; simp) hleft
  · cases rest with
    | nil =>
      simp only [List.nil_append, List.cons.injEq] at hmid
      exact absurd hmid.1.symm hmiddle
    | cons head rest =>
      simp only [List.cons_append, List.cons.injEq] at hmid
      refine ⟨rest, ?_, hmid.2⟩
      rw [hrest, hmid.1]

/-- The rounds do not overlap. -/
structure RoundsApart (setting : Setting) (s : State) : Prop where
  /-- Before a worker of the second round moves, nothing of the first is left. -/
  done : ∀ position next, Step setting s (.worker .second position) next →
    FirstRoundDone setting s
  /-- What a worker of the second round did lies behind the report that the first
  is over and behind all invocations of the first, and nothing that a worker of the
  first did lies behind it. -/
  behind : ∀ before deed after, s.deeds = before ++ deed :: after →
    deed.thread.round? = some .second →
    firstRoundOver ∈ before ∧
      (∀ position, ∃ exchanges,
        Events.calls (eventsBy (.worker .first position) before) = shown exchanges) ∧
      ∀ later ∈ after, later.thread.round? ≠ some .first
  /-- In the first round network cores are programmed, in the second application
  cores are programmed and words are written, and in both devices are reset. -/
  kinds : ∀ deed ∈ s.deeds, ∀ call, deed.occurrence.event.call? = some call →
    ∃ round, deed.thread.round? = some round ∧ round.allows call = true

theorem roundsApart_of_reachable (hreach : Reachable setting s) : RoundsApart setting s := by
  have horderly := orderly_of_reachable hreach
  refine { done := ?_, behind := ?_, kinds := ?_ }
  · intro position next hstep
    cases hstep with
    | working hget hlive =>
      have hround := (horderly.round_of_live hget hlive).1
      exact firstRoundDone_of_second hreach hround.symm
  · intro before deed after hdeeds hdeed
    have hmem : deed ∈ s.deeds := by
      rw [hdeeds]
      simp
    have hapart := horderly.apart
    cases hnow : s.post.round with
    | first =>
      rw [hnow] at hapart
      exact absurd hdeed (hapart deed hmem)
    | second =>
      rw [hnow] at hapart
      obtain ⟨left, right, hsplit, hleft, hright⟩ := hapart
      have hnot : deed ∉ left := fun hin => hleft deed hin hdeed
      have hother : deed ≠ firstRoundOver := by
        rintro rfl
        cases hdeed
      obtain ⟨between, hbefore, hbehind⟩ := split_behind (hdeeds.symm.trans hsplit) hnot hother
      have hlater : ∀ later ∈ after, later.thread.round? ≠ some .first := by
        intro later hin
        apply hright
        rw [hbehind]
        simp [hin]
      refine ⟨by rw [hbefore]; simp, ?_, hlater⟩
      intro position
      have hrest : eventsBy (.worker .first position) (deed :: after) = [] := by
        apply eventsBy_eq_nil
        intro other hin hthread
        rcases List.mem_cons.1 hin with rfl | hin
        · rw [hthread] at hdeed
          cases hdeed
        · exact hlater other hin (by rw [hthread]; rfl)
      obtain ⟨exchanges, hexchanges⟩ := (firstRoundDone_of_second hreach hnow).ended position
      refine ⟨exchanges, ?_⟩
      rw [State.eventsOf, hdeeds, eventsBy_append, hrest, List.append_nil] at hexchanges
      exact hexchanges
  · intro deed hdeed call hcall
    obtain ⟨round, position, _, hthread, _, _, hallows⟩ := origin_of_call hreach hdeed hcall
    exact ⟨round, by rw [hthread]; rfl, hallows⟩

/-- Whatever the order in which the threads of a run move, its rounds do not
overlap; and the run is what one of these orders comes to. -/
theorem rounds_apart (programmer : Programmer) (mode : Mode) (past : List Invocation)
    (devices : List Device) :
    (∀ s, Reachable (.of programmer mode past devices) s →
        RoundsApart (.of programmer mode past devices) s) ∧
      ComesTo (.of programmer mode past devices) (Fleet.run programmer mode past devices) :=
  ⟨fun _ => roundsApart_of_reachable, comesTo_run programmer mode past devices⟩

/-! ## A run of two kits -/

/-- Both workers of the first round in turn, and then the worker of the second up
to its first invocation. -/
def bothRounds : List Thread :=
  List.replicate 3 .orchestrator ++
    (List.replicate 8 [.worker .first 1, .worker .first 0]).flatten ++
    List.replicate 7 .orchestrator ++ List.replicate 2 (.worker .second 0)

theorem rounds_apart_twoKits :
    ∃ s next, Reachable (.of calm (.parallel Parallel.ascending) [] twoKits) s ∧
      Step (.of calm (.parallel Parallel.ascending) [] twoKits) s (.worker .second 0) next ∧
      RoundsApart (.of calm (.parallel Parallel.ascending) [] twoKits) s := by
  have hplayed : ((play? (.of calm (.parallel Parallel.ascending) [] twoKits) .start
      bothRounds).bind fun s => advance? (.of calm (.parallel Parallel.ascending) [] twoKits) s
        (.worker .second 0)).isSome = true := by
    decide +kernel
  obtain ⟨next, hnext⟩ := Option.isSome_iff_exists.1 hplayed
  obtain ⟨s, hs, hadvance⟩ := Option.bind_eq_some_iff.1 hnext
  have hreach : Reachable (.of calm (.parallel Parallel.ascending) [] twoKits) s :=
    leads_of_play? hs
  exact ⟨s, next, hreach, step_iff_advance?.2 hadvance,
    (rounds_apart calm (.parallel Parallel.ascending) [] twoKits).1 s hreach⟩

end FlashFleet.Threads
