import FlashFleet.Fault
import FlashFleet.Invocation
/-!
# What happens during a run

A run is seen as the list of its events, each with its author: the
orchestrator, which starts rounds and dispatches work, or the worker that
attends to one probe. An invocation has a beginning and an end; one that
crashes has no end.

## Main results

* `Trace.invocations_append`, `Trace.ofAuthor_append` — what is seen of a trace is
  seen of its parts.
-/

namespace FlashFleet

/-! ## Phases and log records -/

/-- What a worker does to a device: reset it only, or program one core. -/
inductive Phase where
  | reboot
  | net
  | app
  deriving DecidableEq, Repr

/-- The name of a phase. -/
def Phase.name : Phase → String
  | .reboot => "reboot"
  | .net => "net"
  | .app => "app"

/-- How much a log record matters. -/
inductive Level where
  | error
  | warn
  | info
  | debug
  deriving DecidableEq, Repr

/-- One line of the log. -/
structure LogRecord where
  level : Level
  text : String
  deriving DecidableEq, Repr

/-! ## Events -/

/-- Something that happens. The end of an invocation tells the fault, if it
failed. -/
inductive Event where
  | log (record : LogRecord)
  | roundStarted (round : Nat) (count : Nat)
  | roundFinished (round : Nat)
  | phaseStarted (serial : Serial) (phase : Phase)
  | phaseFinished (serial : Serial) (phase : Phase) (flag : Flag)
  | began (call : Invocation)
  | ended (call : Invocation) (fault : Option Fault)
  deriving DecidableEq, Repr

namespace Event

/-- A report of progress. -/
def isProgress : Event → Bool
  | .roundStarted .. | .roundFinished .. | .phaseStarted .. | .phaseFinished .. => true
  | _ => false

/-- The invocation that begins here. -/
def begun? : Event → Option Invocation
  | .began call => some call
  | _ => none

/-- The log record made here. -/
def log? : Event → Option LogRecord
  | .log record => some record
  | _ => none

end Event

/-- A list of events, in the order in which they happened. -/
abbrev Events := List Event

/-- The invocations begun, in order. -/
def Events.invocations (events : Events) : List Invocation := events.filterMap Event.begun?

/-- The log records made, in order. -/
def Events.logs (events : Events) : List LogRecord := events.filterMap Event.log?

/-! ## Traces -/

/-- Who makes something happen. -/
inductive Author where
  | orchestrator
  | worker (serial : Serial)
  deriving DecidableEq, Repr

/-- An event and its author. -/
structure Occurrence where
  author : Author
  event : Event
  deriving DecidableEq, Repr

/-- What happened during a run, in order. -/
abbrev Trace := List Occurrence

namespace Trace

/-- The events without their authors. -/
def events (trace : Trace) : Events := trace.map Occurrence.event

/-- The invocations begun, in order. -/
def invocations (trace : Trace) : List Invocation := Events.invocations trace.events

/-- The events of one author, in order. -/
def ofAuthor (trace : Trace) (author : Author) : Events :=
  (trace.filter (·.author = author)).map Occurrence.event

theorem invocations_append (a b : Trace) :
    invocations (a ++ b) = invocations a ++ invocations b := by
  simp [invocations, events, Events.invocations]

theorem ofAuthor_append (a b : Trace) (author : Author) :
    ofAuthor (a ++ b) author = ofAuthor a author ++ ofAuthor b author := by
  simp [ofAuthor]

end Trace

/-- Events of one author as a trace. -/
def Events.authoredBy (author : Author) (events : Events) : Trace :=
  events.map fun event => ⟨author, event⟩

end FlashFleet
