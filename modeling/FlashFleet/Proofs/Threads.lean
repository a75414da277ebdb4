import FlashFleet.Fleet.Run
import FlashFleet.Proofs.Worker
import Mathlib.Logic.Relation
/-!
# A run as threads

A run is the work of many threads: the orchestrator, and one worker for each
device with work in each of the two rounds. The orchestrator opens a round,
dispatches its work in the order of the fleet, and joins the workers through
the handles it was given, all at the end of the round or, in a sequential run,
each one before the next dispatch. Only then it closes the round. A worker may
take its next step whenever it is live, whatever the orchestrator waits for.

Nothing here says that the rounds are apart. A worker of the first round may
move as long as it is live, and what keeps it from moving in the second round is
only that it was joined before.

## Main results

* `Step`, `Reachable` — what may happen next, and what may come about.
* `State.eventsOf_of_ne`, `State.eventsOf_self` — what is seen of one thread.
-/

namespace FlashFleet

/-- The event is of no probe: a log record, or the report of a round. -/
def Event.isGeneral : Event → Bool
  | .log _ => true
  | .roundStarted .. => true
  | .roundFinished _ => true
  | _ => false

/-- What the orchestrator says: log records that are no errors, and reports of rounds. -/
inductive Event.Announced : Event → Prop where
  | log {record : LogRecord} (h : record.level ≠ .error) : Announced (.log record)
  | roundStarted (round count : Nat) : Announced (.roundStarted round count)
  | roundFinished (round : Nat) : Announced (.roundFinished round)

theorem Event.Announced.isGeneral {event : Event} (h : event.Announced) :
    event.isGeneral = true := by
  cases h <;> rfl

/-- An event of no probe is of no invocation. -/
theorem Event.call?_of_isGeneral {event : Event} (h : event.isGeneral = true) :
    event.call? = none := by
  cases event <;> first | rfl | cases h

namespace Threads

/-! ## Threads and what they do -/

/-- A thread: the orchestrator, or the worker of a device in a round. -/
inductive Thread where
  | orchestrator
  | worker (round : Round) (position : Nat)
  deriving DecidableEq, Repr

/-- The round that a worker belongs to. -/
def Thread.round? : Thread → Option Round
  | .orchestrator => none
  | .worker round _ => some round

/-- Something that happened, and the thread that did it. -/
structure Deed where
  thread : Thread
  occurrence : Occurrence
  deriving DecidableEq, Repr

/-- The events of one thread among what happened. -/
def eventsBy (thread : Thread) (deeds : List Deed) : Events :=
  (deeds.filter (·.thread == thread)).map (·.occurrence.event)

theorem eventsBy_append (thread : Thread) (a b : List Deed) :
    eventsBy thread (a ++ b) = eventsBy thread a ++ eventsBy thread b := by
  simp [eventsBy]

/-- A thread that did nothing has no events. -/
theorem eventsBy_eq_nil {thread : Thread} {deeds : List Deed}
    (h : ∀ deed ∈ deeds, deed.thread ≠ thread) : eventsBy thread deeds = [] := by
  rw [eventsBy, List.map_eq_nil_iff, List.filter_eq_nil_iff]
  intro deed hdeed
  simpa using h deed hdeed

/-- Where no thread of a round moved no worker of it has events. -/
theorem eventsBy_eq_nil_of_round {deeds : List Deed} {round : Round}
    (h : ∀ deed ∈ deeds, deed.thread.round? ≠ some round) (position : Nat) :
    eventsBy (.worker round position) deeds = [] := by
  apply eventsBy_eq_nil
  intro deed hdeed hthread
  apply h deed hdeed
  rw [hthread]
  rfl

theorem mem_eventsBy {thread : Thread} {deeds : List Deed} {deed : Deed} (hdeed : deed ∈ deeds)
    (hthread : deed.thread = thread) : deed.occurrence.event ∈ eventsBy thread deeds :=
  List.mem_map_of_mem (List.mem_filter.2 ⟨hdeed, by simpa using hthread⟩)

/-- Where the orchestrator stands. Handles are the positions of workers that were
dispatched and are still to be joined. -/
inductive Post where
  | opening (round : Round)
  | dispatching (round : Round) (handles : List Nat)
  | awaiting (round : Round) (handle : Nat) (handles : List Nat)
  | joining (round : Round) (handles : List Nat)
  | closing (round : Round)
  | unwinding (round : Round) (text : String)
  | ended
  | raised (round : Round) (text : String)
  deriving DecidableEq, Repr

namespace Post

/-- The round in which the orchestrator stands. -/
def round : Post → Round
  | .opening round => round
  | .dispatching round _ => round
  | .awaiting round _ _ => round
  | .joining round _ => round
  | .closing round => round
  | .unwinding round _ => round
  | .ended => .second
  | .raised round _ => round

/-- The worker that the orchestrator waits for, and where it goes on when that
worker is done. -/
def awaited? : Post → Option (Round × Nat × Post)
  | .awaiting round handle handles => some (round, handle, .dispatching round handles)
  | .joining round (handle :: handles) => some (round, handle, .joining round handles)
  | _ => none

/-- Where the orchestrator goes on after a dispatch. -/
def afterDispatch (sequential : Bool) (round : Round) (handles : List Nat) (position : Nat) :
    Post :=
  if sequential then .awaiting round position handles
  else .dispatching round (handles ++ [position])

/-- Where the orchestrator goes on after a round. -/
def afterRound : Round → Post
  | .first => .opening .second
  | .second => .ended

end Post

/-- What a run is given: a programmer and the invocations made before, the
devices, and whether it goes through them one by one. -/
structure Setting where
  programmer : Programmer
  sequential : Bool
  past : List Invocation
  devices : List Device

/-- A run under way. -/
structure State where
  post : Post
  first : List Station
  second : List Station
  deeds : List Deed
  deriving DecidableEq, Repr

namespace State

/-- The run before anything happened. -/
def start : State := ⟨.opening .first, [], [], []⟩

/-- The stations of a round. -/
def stations (s : State) : Round → List Station
  | .first => s.first
  | .second => s.second

/-- The run with other stations in a round. -/
def withStations (s : State) (round : Round) (stations : List Station) : State :=
  match round with
  | .first => { s with first := stations }
  | .second => { s with second := stations }

/-- What happened so far. -/
def trace (s : State) : Trace := s.deeds.map Deed.occurrence

/-- What a thread did so far. -/
def eventsOf (s : State) (thread : Thread) : Events := eventsBy thread s.deeds

/-- The devices with which a round begins: those of the run, or those that the
first round left. -/
def roster (s : State) (devices : List Device) : Round → List Device
  | .first => devices
  | .second => (s.stations .first).map Station.device

/-- Events of a thread added to what happened. -/
def record (s : State) (thread : Thread) (author : Author) (events : Events) : State :=
  { s with deeds := s.deeds ++ events.map fun event => ⟨thread, ⟨author, event⟩⟩ }

/-- The orchestrator somewhere else. -/
def moveTo (s : State) (post : Post) : State := { s with post := post }

/-- What the orchestrator says before it opens a round. -/
def foreword (devices : List Device) : Round → Events
  | .first => Fleet.skipped devices
  | .second => []

/-- What the orchestrator says when it opens a round. -/
def announcement (devices : List Device) (round : Round) : Events :=
  foreword devices round ++ round.opening devices

/-- The run with a round opened. -/
def openRound (s : State) (devices : List Device) (round : Round) : State :=
  (((s.withStations round ((s.roster devices round).map (.enter round))).record
    .orchestrator .orchestrator (announcement (s.roster devices round) round))).moveTo
      (.dispatching round [])

/-- The run with a station's work dispatched. -/
def dispatch (s : State) (sequential : Bool) (round : Round) (handles : List Nat)
    (position : Nat) (station : Station) (phase : Phase) : State :=
  ((s.withStations round
      ((s.stations round).set position (station.moveTo (.dispatched phase)))).record
    .orchestrator .orchestrator (round.dispatch phase station.device.serial)).moveTo
      (.afterDispatch sequential round handles position)

/-- The run with a round closed. -/
def close (s : State) (round : Round) : State :=
  (s.record .orchestrator .orchestrator round.closing).moveTo (.afterRound round)

/-- The run after a step of a worker. -/
def work (s : State) (setting : Setting) (round : Round) (position : Nat) (station : Station) :
    State :=
  let (events, moved) :=
    station.step setting.programmer (setting.past ++ s.trace.invocations)
  (s.withStations round ((s.stations round).set position moved)).record
    (.worker round position) (.worker station.device.serial) events

/-! ### What is seen of a state -/

@[simp] theorem stations_withStations_self (s : State) (round : Round) (list : List Station) :
    (s.withStations round list).stations round = list := by
  cases round <;> rfl

theorem stations_withStations_of_ne (s : State) {round other : Round} (list : List Station)
    (h : other ≠ round) : (s.withStations round list).stations other = s.stations other := by
  cases round <;> cases other <;> first | rfl | exact absurd rfl h

@[simp] theorem post_withStations (s : State) (round : Round) (list : List Station) :
    (s.withStations round list).post = s.post := by
  cases round <;> rfl

@[simp] theorem deeds_withStations (s : State) (round : Round) (list : List Station) :
    (s.withStations round list).deeds = s.deeds := by
  cases round <;> rfl

@[simp] theorem stations_record (s : State) (thread : Thread) (author : Author)
    (events : Events) : (s.record thread author events).stations = s.stations := by
  funext round
  cases round <;> rfl

@[simp] theorem post_record (s : State) (thread : Thread) (author : Author) (events : Events) :
    (s.record thread author events).post = s.post := rfl

@[simp] theorem deeds_record (s : State) (thread : Thread) (author : Author) (events : Events) :
    (s.record thread author events).deeds =
      s.deeds ++ events.map fun event => ⟨thread, ⟨author, event⟩⟩ := rfl

@[simp] theorem stations_moveTo (s : State) (post : Post) :
    (s.moveTo post).stations = s.stations := by
  funext round
  cases round <;> rfl

@[simp] theorem post_moveTo (s : State) (post : Post) : (s.moveTo post).post = post := rfl

@[simp] theorem deeds_moveTo (s : State) (post : Post) : (s.moveTo post).deeds = s.deeds := rfl

@[simp] theorem post_openRound (s : State) (devices : List Device) (round : Round) :
    (s.openRound devices round).post = .dispatching round [] := rfl

@[simp] theorem stations_openRound_self (s : State) (devices : List Device) (round : Round) :
    (s.openRound devices round).stations round = (s.roster devices round).map (.enter round) := by
  simp [openRound]

theorem stations_openRound_of_ne (s : State) (devices : List Device) {round other : Round}
    (h : other ≠ round) : (s.openRound devices round).stations other = s.stations other := by
  simp [openRound, stations_withStations_of_ne, h]

@[simp] theorem deeds_openRound (s : State) (devices : List Device) (round : Round) :
    (s.openRound devices round).deeds =
      s.deeds ++ (announcement (s.roster devices round) round).map fun event =>
        ⟨.orchestrator, ⟨.orchestrator, event⟩⟩ := by
  simp [openRound]

@[simp] theorem post_dispatch (s : State) (sequential : Bool) (round : Round)
    (handles : List Nat) (position : Nat) (station : Station) (phase : Phase) :
    (s.dispatch sequential round handles position station phase).post =
      .afterDispatch sequential round handles position := rfl

@[simp] theorem stations_dispatch_self (s : State) (sequential : Bool) (round : Round)
    (handles : List Nat) (position : Nat) (station : Station) (phase : Phase) :
    (s.dispatch sequential round handles position station phase).stations round =
      (s.stations round).set position (station.moveTo (.dispatched phase)) := by
  simp [dispatch]

theorem stations_dispatch_of_ne (s : State) (sequential : Bool) {round other : Round}
    (handles : List Nat) (position : Nat) (station : Station) (phase : Phase)
    (h : other ≠ round) :
    (s.dispatch sequential round handles position station phase).stations other =
      s.stations other := by
  simp [dispatch, stations_withStations_of_ne, h]

theorem getElem?_dispatch_self {s : State} {round : Round} {position : Nat} {station : Station}
    (hget : (s.stations round)[position]? = some station) (sequential : Bool)
    (handles : List Nat) (phase : Phase) :
    ((s.dispatch sequential round handles position station phase).stations round)[position]? =
      some (station.moveTo (.dispatched phase)) := by
  rw [stations_dispatch_self, List.getElem?_set_self (List.getElem?_eq_some_iff.1 hget).1]

theorem getElem?_dispatch_of_ne (s : State) (sequential : Bool) {round other : Round}
    (handles : List Nat) {position place : Nat} (station : Station) (phase : Phase)
    (h : ¬ (other = round ∧ place = position)) :
    ((s.dispatch sequential round handles position station phase).stations other)[place]? =
      (s.stations other)[place]? := by
  by_cases hround : other = round
  · subst hround
    rw [stations_dispatch_self, List.getElem?_set_ne]
    rintro rfl
    exact h ⟨rfl, rfl⟩
  · rw [stations_dispatch_of_ne _ _ _ _ _ _ hround]

@[simp] theorem deeds_dispatch (s : State) (sequential : Bool) (round : Round)
    (handles : List Nat) (position : Nat) (station : Station) (phase : Phase) :
    (s.dispatch sequential round handles position station phase).deeds =
      s.deeds ++ (round.dispatch phase station.device.serial).map fun event =>
        ⟨.orchestrator, ⟨.orchestrator, event⟩⟩ := by
  simp [dispatch]

@[simp] theorem post_close (s : State) (round : Round) :
    (s.close round).post = .afterRound round := rfl

@[simp] theorem stations_close (s : State) (round : Round) :
    (s.close round).stations = s.stations := by
  simp [close]

@[simp] theorem deeds_close (s : State) (round : Round) :
    (s.close round).deeds =
      s.deeds ++ round.closing.map fun event => ⟨.orchestrator, ⟨.orchestrator, event⟩⟩ := rfl

@[simp] theorem post_work (s : State) (setting : Setting) (round : Round) (position : Nat)
    (station : Station) : (s.work setting round position station).post = s.post := by
  simp [work]

@[simp] theorem stations_work_self (s : State) (setting : Setting) (round : Round)
    (position : Nat) (station : Station) :
    (s.work setting round position station).stations round =
      (s.stations round).set position
        (station.step setting.programmer (setting.past ++ s.trace.invocations)).2 := by
  simp [work]

theorem stations_work_of_ne (s : State) (setting : Setting) {round other : Round}
    (position : Nat) (station : Station) (h : other ≠ round) :
    (s.work setting round position station).stations other = s.stations other := by
  simp [work, stations_withStations_of_ne, h]

theorem getElem?_work_self {s : State} {round : Round} {position : Nat} {station : Station}
    (hget : (s.stations round)[position]? = some station) (setting : Setting) :
    ((s.work setting round position station).stations round)[position]? =
      some (station.step setting.programmer (setting.past ++ s.trace.invocations)).2 := by
  rw [stations_work_self, List.getElem?_set_self (List.getElem?_eq_some_iff.1 hget).1]

theorem getElem?_work_of_ne (s : State) (setting : Setting) {round other : Round}
    {position place : Nat} (station : Station) (h : ¬ (other = round ∧ place = position)) :
    ((s.work setting round position station).stations other)[place]? =
      (s.stations other)[place]? := by
  by_cases hround : other = round
  · subst hround
    rw [stations_work_self, List.getElem?_set_ne]
    rintro rfl
    exact h ⟨rfl, rfl⟩
  · rw [stations_work_of_ne _ _ _ _ hround]

@[simp] theorem deeds_work (s : State) (setting : Setting) (round : Round) (position : Nat)
    (station : Station) :
    (s.work setting round position station).deeds =
      s.deeds ++
        (station.step setting.programmer (setting.past ++ s.trace.invocations)).1.map fun event =>
          ⟨.worker round position, ⟨.worker station.device.serial, event⟩⟩ := by
  simp [work]

/-! ### What is seen of the trace -/

@[simp] theorem trace_moveTo (s : State) (post : Post) : (s.moveTo post).trace = s.trace := rfl

theorem trace_of_deeds {s next : State} {thread : Thread} {author : Author} {events : Events}
    (h : next.deeds = s.deeds ++ events.map fun event => ⟨thread, ⟨author, event⟩⟩) :
    next.trace = s.trace ++ events.authoredBy author := by
  simp [trace, h, Events.authoredBy]

theorem trace_openRound (s : State) (devices : List Device) (round : Round) :
    (s.openRound devices round).trace =
      s.trace ++ (announcement (s.roster devices round) round).authoredBy .orchestrator :=
  trace_of_deeds (deeds_openRound s devices round)

theorem trace_dispatch (s : State) (sequential : Bool) (round : Round) (handles : List Nat)
    (position : Nat) (station : Station) (phase : Phase) :
    (s.dispatch sequential round handles position station phase).trace =
      s.trace ++ (round.dispatch phase station.device.serial).authoredBy .orchestrator :=
  trace_of_deeds (deeds_dispatch ..)

theorem trace_close (s : State) (round : Round) :
    (s.close round).trace = s.trace ++ round.closing.authoredBy .orchestrator :=
  trace_of_deeds (deeds_close s round)

theorem trace_work (s : State) (setting : Setting) (round : Round) (position : Nat)
    (station : Station) :
    (s.work setting round position station).trace =
      s.trace ++
        (station.step setting.programmer (setting.past ++ s.trace.invocations)).1.authoredBy
          (.worker station.device.serial) :=
  trace_of_deeds (deeds_work ..)

/-! ### What is seen of one thread -/

/-- What is done by one thread is not done by another. -/
theorem eventsOf_of_ne {thread other : Thread} (hne : other ≠ thread) {s next : State}
    {author : Author} {events : Events}
    (h : next.deeds = s.deeds ++ events.map fun event => ⟨thread, ⟨author, event⟩⟩) :
    next.eventsOf other = s.eventsOf other := by
  have hnone : eventsBy other
      (events.map fun event => (⟨thread, ⟨author, event⟩⟩ : Deed)) = [] := by
    apply eventsBy_eq_nil
    intro deed hdeed
    obtain ⟨event, _, rfl⟩ := List.mem_map.1 hdeed
    exact hne.symm
  rw [eventsOf, h, eventsBy_append, hnone, List.append_nil]
  rfl

/-- What a thread does is added to what it did. -/
theorem eventsOf_self {thread : Thread} {s next : State} {author : Author} {events : Events}
    (h : next.deeds = s.deeds ++ events.map fun event => ⟨thread, ⟨author, event⟩⟩) :
    next.eventsOf thread = s.eventsOf thread ++ events := by
  have hall : eventsBy thread
      (events.map fun event => (⟨thread, ⟨author, event⟩⟩ : Deed)) = events := by
    rw [eventsBy, List.filter_eq_self.2, List.map_map]
    · exact List.map_id' events
    · intro deed hdeed
      obtain ⟨event, _, rfl⟩ := List.mem_map.1 hdeed
      simp
  rw [eventsOf, h, eventsBy_append, hall]
  rfl

/-- What a thread did has happened. -/
theorem mem_trace_of_mem_eventsOf {s : State} {thread : Thread} {event : Event}
    (h : event ∈ s.eventsOf thread) : event ∈ s.trace.events := by
  obtain ⟨deed, hdeed, rfl⟩ := List.mem_map.1 h
  exact List.mem_map_of_mem (List.mem_map_of_mem (List.mem_filter.1 hdeed).1)

end State

/-! ## Steps -/

/-- What may happen next, and who does it. -/
inductive Step (setting : Setting) (s : State) : Thread → State → Prop where
  | opening {round : Round} (hpost : s.post = .opening round) :
      Step setting s .orchestrator (s.openRound setting.devices round)
  | dispatching {round : Round} {handles : List Nat} {position : Nat} {station : Station}
      {phase : Phase} (hpost : s.post = .dispatching round handles)
      (hget : (s.stations round)[position]? = some station)
      (hstage : station.stage = .queued phase)
      (hfirst : ∀ earlier ∈ (s.stations round).take position, earlier.stage.isQueued = false) :
      Step setting s .orchestrator
        (s.dispatch setting.sequential round handles position station phase)
  | dispatched {round : Round} {handles : List Nat} (hpost : s.post = .dispatching round handles)
      (hnone : ∀ station ∈ s.stations round, station.stage.isQueued = false) :
      Step setting s .orchestrator (s.moveTo (.joining round handles))
  | join {round : Round} {handle : Nat} {next : Post} {station : Station}
      (hpost : s.post.awaited? = some (round, handle, next))
      (hget : (s.stations round)[handle]? = some station) (hstage : station.stage = .finished) :
      Step setting s .orchestrator (s.moveTo next)
  | rethrow {round : Round} {handle : Nat} {next : Post} {station : Station} {text : String}
      (hpost : s.post.awaited? = some (round, handle, next))
      (hget : (s.stations round)[handle]? = some station)
      (hstage : station.stage = .crashed text) :
      Step setting s .orchestrator (s.moveTo (.unwinding round text))
  | joined {round : Round} (hpost : s.post = .joining round []) :
      Step setting s .orchestrator (s.moveTo (.closing round))
  | closing {round : Round} (hpost : s.post = .closing round) :
      Step setting s .orchestrator (s.close round)
  | unwound {round : Round} {text : String} (hpost : s.post = .unwinding round text)
      (hrest : ∀ station ∈ s.stations round, station.stage.isLive = false) :
      Step setting s .orchestrator (s.moveTo (.raised round text))
  | working {round : Round} {position : Nat} {station : Station}
      (hget : (s.stations round)[position]? = some station)
      (hlive : station.stage.isLive = true) :
      Step setting s (.worker round position) (s.work setting round position station)

/-- What the orchestrator says when it opens a round. -/
theorem announced_of_mem_announcement {devices : List Device} {round : Round} {event : Event}
    (h : event ∈ State.announcement devices round) : event.Announced := by
  rcases List.mem_append.1 h with h | h
  · cases round with
    | first =>
      simp only [State.foreword, Fleet.skipped] at h
      split at h
      · cases h
      · rw [List.mem_singleton.1 h]
        exact .log nofun
    | second => cases h
  · simp only [Round.opening, List.mem_cons, List.not_mem_nil, or_false] at h
    rcases h with rfl | rfl
    · exact .log nofun
    · exact .roundStarted ..

/-- A step adds deeds of the thread that takes it, and the orchestrator only announces. -/
theorem deeds_of_step {setting : Setting} {s next : State} {thread : Thread}
    (h : Step setting s thread next) :
    ∃ (author : Author) (events : Events),
      next.deeds = s.deeds ++ events.map (fun event => (⟨thread, ⟨author, event⟩⟩ : Deed)) ∧
      (thread = .orchestrator → ∀ event ∈ events, event.Announced) := by
  have hmoved : ∀ post, (s.moveTo post).deeds = s.deeds ++
      (([] : Events).map fun event => (⟨.orchestrator, ⟨.orchestrator, event⟩⟩ : Deed)) :=
    fun post => (List.append_nil _).symm
  cases h with
  | opening hpost =>
    exact ⟨_, _, State.deeds_openRound .., fun _ event hmem => announced_of_mem_announcement hmem⟩
  | dispatching hpost hget hstage hfirst =>
    refine ⟨_, _, State.deeds_dispatch .., fun _ event hmem => ?_⟩
    rw [List.mem_singleton.1 hmem]
    exact .log nofun
  | closing hpost =>
    refine ⟨_, _, State.deeds_close .., fun _ event hmem => ?_⟩
    rw [List.mem_singleton.1 hmem]
    exact .roundFinished _
  | working hget hlive => exact ⟨_, _, State.deeds_work .., nofun⟩
  | dispatched hpost hnone => exact ⟨_, [], hmoved _, fun _ => List.forall_mem_nil _⟩
  | join hpost hget hstage => exact ⟨_, [], hmoved _, fun _ => List.forall_mem_nil _⟩
  | rethrow hpost hget hstage => exact ⟨_, [], hmoved _, fun _ => List.forall_mem_nil _⟩
  | joined hpost => exact ⟨_, [], hmoved _, fun _ => List.forall_mem_nil _⟩
  | unwound hpost hrest => exact ⟨_, [], hmoved _, fun _ => List.forall_mem_nil _⟩

/-- Steps of any threads lead from one state to another. -/
def Leads (setting : Setting) : State → State → Prop :=
  Relation.ReflTransGen fun s next => ∃ thread, Step setting s thread next

/-- The state may come about in a run, in whatever order the threads move. -/
def Reachable (setting : Setting) (s : State) : Prop := Leads setting .start s

end Threads

end FlashFleet
