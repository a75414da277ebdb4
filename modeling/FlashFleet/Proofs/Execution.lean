import FlashFleet.Proofs.RoundExecution
/-!
# A run is one of its threads

What a run over a fleet comes to, in either mode and under every scheduler, is
what the threads come to in some order. So what holds whenever the threads have
come to an end holds of a run over a fleet.

## Main results

* `comesTo_run` — a run over a fleet is one that the threads go through.
-/

namespace FlashFleet

/-- The mode goes through the devices one by one. -/
def Mode.isSequential : Mode → Bool
  | .sequential => true
  | .parallel _ => false

namespace Threads

/-- What a run came to, when the orchestrator has come to its end. -/
def State.outcome? (s : State) : Option FleetRun :=
  match s.post with
  | .ended => some ⟨s.trace, (s.stations .second).map Station.device, none⟩
  | .raised round text => some ⟨s.trace, (s.stations round).map Station.device, some text⟩
  | _ => none

/-- The threads may come to an end with this outcome. -/
def ComesTo (setting : Setting) (run : FleetRun) : Prop :=
  ∃ s, Reachable setting s ∧ s.outcome? = some run

/-- A run over a fleet as it is set up. -/
def Setting.of (programmer : Programmer) (mode : Mode) (past : List Invocation)
    (devices : List Device) : Setting :=
  ⟨programmer, mode.isSequential, past, devices⟩

/-! ## What the orchestrator says is no invocation -/

@[simp] theorem invocations_foreword (devices : List Device) (round : Round) :
    Events.invocations (State.foreword devices round) = [] := by
  cases round with
  | first =>
    simp only [State.foreword, Fleet.skipped]
    split <;> rfl
  | second => rfl

@[simp] theorem invocations_opening (devices : List Device) (round : Round) :
    Events.invocations (round.opening devices) = [] := rfl

theorem invocations_openRound (s : State) (devices : List Device) (round : Round) :
    (s.openRound devices round).trace.invocations = s.trace.invocations := by
  simp [State.trace_openRound, State.announcement, Trace.invocations_append]

/-! ## Both rounds -/

/-- Where the orchestrator stands after a round. -/
def Post.afterwards (round : Round) : Option String → Post
  | none => .afterRound round
  | some text => .raised round text

variable {programmer : Programmer} {mode : Mode} {past : List Invocation} {devices : List Device}

/-- The work of a round, in either mode, is one that the threads go through. -/
private theorem performs_round {s : State} {round : Round} {roster : List Device}
    (hpost : s.post = .dispatching round [])
    (hstations : s.stations round = roster.map (.enter round)) :
    ∃ work : FleetRun,
      round.run programmer mode (past ++ s.trace.invocations) roster =
        (work.closed round).after ((round.opening roster).authoredBy .orchestrator) ∧
      Performs (.of programmer mode past devices) s round [] work := by
  cases mode with
  | sequential =>
    refine ⟨_, rfl, performs_sequential rfl roster s [] hpost hstations ?_⟩
    exact List.forall_mem_nil _
  | parallel scheduler => exact ⟨_, rfl, performs_parallel rfl scheduler roster hpost hstations⟩

/-- A round, in either mode, is one that the threads go through. -/
theorem round_reachable {s : State} {round : Round} (hpost : s.post = .opening round)
    {run : FleetRun}
    (hrun : round.run programmer mode (past ++ s.trace.invocations) (s.roster devices round) =
      run) :
    ∃ next, Leads (.of programmer mode past devices) s next ∧
      next.post = .afterwards round run.crash ∧
      (next.stations round).map Station.device = run.devices ∧
      next.trace = s.trace ++
        (State.foreword (s.roster devices round) round).authoredBy .orchestrator ++ run.trace := by
  have hopening : Step (.of programmer mode past devices) s .orchestrator
      (s.openRound devices round) := .opening hpost
  obtain ⟨work, hwork, stations, hdevices, last, hleads, hlast, hstations, _, htrace⟩ :=
    @performs_round programmer mode past devices _ round _
      (State.post_openRound s devices round) (State.stations_openRound_self s devices round)
  rw [invocations_openRound, hrun] at hwork
  rw [State.trace_openRound, State.announcement, Events.authoredBy_append] at htrace
  rw [List.nil_append] at hstations
  cases hcrash : work.crash with
  | some text =>
    have hsame : run = work.after
        ((round.opening (s.roster devices round)).authoredBy .orchestrator) := by
      rw [hwork, FleetRun.closed, hcrash]
    rw [hcrash] at hlast
    refine ⟨last, .head ⟨_, hopening⟩ hleads, ?_, ?_, ?_⟩
    · rw [hlast, hsame, FleetRun.after, hcrash]
      rfl
    · rw [hstations, hdevices, hsame]
      rfl
    · rw [htrace, hsame]
      simp [FleetRun.after]
  | none =>
    have hsame : run = ({ work with
        trace := work.trace ++ round.closing.authoredBy .orchestrator } : FleetRun).after
          ((round.opening (s.roster devices round)).authoredBy .orchestrator) := by
      rw [hwork, FleetRun.closed, hcrash]
    rw [hcrash] at hlast
    have hclosing : Step (.of programmer mode past devices) last .orchestrator
        (last.close round) := .closing hlast
    refine ⟨last.close round, .head ⟨_, hopening⟩ (hleads.tail ⟨_, hclosing⟩), ?_, ?_, ?_⟩
    · rw [hsame, FleetRun.after, hcrash]
      rfl
    · rw [State.stations_close, hstations, hdevices, hsame]
      rfl
    · rw [State.trace_close, htrace, hsame]
      simp [FleetRun.after]

/-- A crash in the first round is what the run comes to. -/
theorem outcome_of_first {first : FleetRun}
    (hfirst : Round.first.run programmer mode past devices = first) {text : String}
    (hcrash : first.crash = some text) {s : State}
    (hpost : s.post = .afterwards .first first.crash)
    (hdevices : (s.stations .first).map Station.device = first.devices)
    (htrace : s.trace = (Fleet.skipped devices).authoredBy .orchestrator ++ first.trace) :
    s.outcome? = some (Fleet.run programmer mode past devices) := by
  rw [hcrash] at hpost
  simp only [State.outcome?, hpost, Post.afterwards]
  rw [Fleet.run_of_crash (hfirst ▸ hcrash), hfirst, FleetRun.after, hdevices, hcrash, htrace]

/-- Otherwise the run comes to what the second round comes to. -/
theorem outcome_of_second {first second : FleetRun}
    (hfirst : Round.first.run programmer mode past devices = first) (hcrash : first.crash = none)
    {s last : State}
    (htrace : s.trace = (Fleet.skipped devices).authoredBy .orchestrator ++ first.trace)
    (hsecond : Round.second.run programmer mode (past ++ s.trace.invocations) first.devices =
      second)
    (hpost : last.post = .afterwards .second second.crash)
    (hdevices : (last.stations .second).map Station.device = second.devices)
    (hlater : last.trace = s.trace ++ second.trace) :
    last.outcome? = some (Fleet.run programmer mode past devices) := by
  have hrun : Fleet.run programmer mode past devices =
      ⟨last.trace, second.devices, second.crash⟩ := by
    simp only [Fleet.run, FleetRun.after, hfirst, hcrash]
    rw [← htrace, hsecond, hlater]
  rw [hrun]
  cases hlast : second.crash with
  | some text =>
    rw [hlast] at hpost
    simp only [State.outcome?, hpost, Post.afterwards, hdevices]
  | none =>
    rw [hlast] at hpost
    simp only [State.outcome?, hpost, Post.afterwards, Post.afterRound, hdevices]

/-- A run over a fleet is one that the threads go through. -/
theorem comesTo_run (programmer : Programmer) (mode : Mode) (past : List Invocation)
    (devices : List Device) :
    ComesTo (.of programmer mode past devices) (Fleet.run programmer mode past devices) := by
  generalize hfirst : Round.first.run programmer mode past devices = first
  have hrun : Round.first.run programmer mode (past ++ State.start.trace.invocations)
      (State.start.roster devices .first) = first := by
    rw [← hfirst]
    exact congrArg (Round.first.run programmer mode · devices) (List.append_nil past)
  obtain ⟨s, hleads, hpost, hdevices, htrace⟩ := round_reachable rfl hrun
  have htrace : s.trace = (Fleet.skipped devices).authoredBy .orchestrator ++ first.trace := htrace
  cases hcrash : first.crash with
  | some text => exact ⟨s, hleads, outcome_of_first hfirst hcrash hpost hdevices htrace⟩
  | none =>
    rw [hcrash] at hpost
    generalize hsecond : Round.second.run programmer mode (past ++ s.trace.invocations)
      first.devices = second
    have hrun : Round.second.run programmer mode (past ++ s.trace.invocations)
        (s.roster devices .second) = second := by
      rw [← hsecond]
      exact congrArg (Round.second.run programmer mode _) hdevices
    obtain ⟨last, hleads', hpost', hdevices', htrace'⟩ := round_reachable hpost hrun
    have hlater : last.trace = s.trace ++ second.trace := by
      rw [htrace']
      simp [State.foreword, Events.authoredBy]
    exact ⟨last, hleads.trans hleads',
      outcome_of_second hfirst hcrash htrace hsecond hpost' hdevices' hlater⟩

end Threads

end FlashFleet
