import FlashFleet.Event
/-!
# Programmers

A programmer carries out invocations. It is known by its answers: to each
invocation, given those begun before, it responds with log records and an
outcome. Work that is done by one hand is a list of actions, performed in
order up to the first that fails.

## Main results

* `perform_say`, `perform_invoke` — what comes of a first action that does not
  end the work.
-/

namespace FlashFleet

/-- What came of an invocation, or of several. -/
inductive Outcome where
  | succeeded
  | failed (fault : Fault)
  | crashed (text : String)
  deriving DecidableEq, Repr

/-- The fault of an outcome, if it is a failure. -/
def Outcome.fault? : Outcome → Option Fault
  | .failed fault => some fault
  | _ => none

/-- How a programmer responds: what it writes to the log, then what came of the
invocation. -/
structure Response where
  logs : List LogRecord := []
  outcome : Outcome := .succeeded
  deriving DecidableEq, Repr

/-- A programmer, by its responses to an invocation after earlier ones. -/
structure Programmer where
  respond : (past : List Invocation) → (call : Invocation) → Response

/-! ## Calls -/

/-- Events, and what came of it all. -/
structure Effect where
  events : Events
  outcome : Outcome
  deriving DecidableEq, Repr

/-- The events of a call up to its end. -/
def Response.opening (response : Response) (call : Invocation) : Events :=
  .began call :: response.logs.map .log

/-- One invocation, from its beginning to its end. -/
def Programmer.call (programmer : Programmer) (past : List Invocation) (call : Invocation) :
    Effect :=
  let response := programmer.respond past call
  match response.outcome with
  | .crashed text => ⟨response.opening call, .crashed text⟩
  | outcome => ⟨response.opening call ++ [.ended call outcome.fault?], outcome⟩

/-! ## Actions -/

/-- One thing that a worker does by itself: write to the log, call the
programmer, refuse to go on, or crash. -/
inductive Action where
  | say (record : LogRecord)
  | invoke (call : Invocation)
  | refuse (fault : Fault)
  | crash (text : String)
  deriving DecidableEq, Repr

/-- Performs actions in order up to the first that does not succeed. -/
def perform (programmer : Programmer) (past : List Invocation) : List Action → Effect
  | [] => ⟨[], .succeeded⟩
  | .say record :: rest =>
    let later := perform programmer past rest
    ⟨.log record :: later.events, later.outcome⟩
  | .refuse fault :: _ => ⟨[], .failed fault⟩
  | .crash text :: _ => ⟨[], .crashed text⟩
  | .invoke call :: rest =>
    let now := programmer.call past call
    match now.outcome with
    | .succeeded =>
      let later := perform programmer (past ++ [call]) rest
      ⟨now.events ++ later.events, later.outcome⟩
    | _ => now

/-! ## What actions come to -/

theorem perform_say (programmer : Programmer) (past : List Invocation) (record : LogRecord)
    (rest : List Action) :
    perform programmer past (.say record :: rest) =
      ⟨.log record :: (perform programmer past rest).events,
        (perform programmer past rest).outcome⟩ := rfl

theorem perform_invoke (programmer : Programmer) (past : List Invocation) (call : Invocation)
    (rest : List Action) :
    perform programmer past (.invoke call :: rest) =
      match (programmer.call past call).outcome with
      | .succeeded =>
        ⟨(programmer.call past call).events ++
            (perform programmer (past ++ [call]) rest).events,
          (perform programmer (past ++ [call]) rest).outcome⟩
      | _ => programmer.call past call := rfl

end FlashFleet
