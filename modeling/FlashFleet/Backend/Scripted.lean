import FlashFleet.Programmer
/-!
# The scripted programmer

A programmer that follows a list of rules. The first rule that applies to an
invocation decides what comes of it; without such a rule it succeeds. A rule
can be restricted to one probe, and to one of the invocations of its kind for
the same probe, counted from one.
-/

namespace FlashFleet

namespace Scripted

/-- What a rule makes of an invocation. -/
inductive Verdict where
  | succeed
  | exit (code : ExitCode)
  | fail (fault : Fault)
  | crash (text : String)
  deriving DecidableEq, Repr

/-- A rule: to what it applies, and what it makes of it. -/
structure Rule where
  operation : Operation
  serial : Option Serial := none
  nth : Option Nat := none
  verdict : Verdict
  deriving DecidableEq, Repr

/-- The number that an invocation has among those of its kind for its probe. -/
def ordinal (past : List Invocation) (call : Invocation) : Nat :=
  (past.countP fun earlier =>
    earlier.operation = call.operation ∧ earlier.serial = call.serial) + 1

/-- The rule applies to the invocation with the given number. -/
def Rule.applies (rule : Rule) (call : Invocation) (number : Nat) : Bool :=
  rule.operation == call.operation &&
    (rule.serial.all (· == call.serial)) && (rule.nth.all (· == number))

/-- What comes of an invocation under a verdict. -/
def Verdict.outcome (verdict : Verdict) (call : Invocation) : Outcome :=
  match verdict with
  | .succeed => .succeeded
  | .exit code => .failed (.toolFailed call.operation.verb call.serial code)
  | .fail fault => .failed fault
  | .crash text => .crashed text

/-- The response to an invocation. -/
def respond (rules : List Rule) (past : List Invocation) (call : Invocation) : Response :=
  match rules.find? (·.applies call (ordinal past call)) with
  | some rule => { outcome := rule.verdict.outcome call }
  | none => {}

/-- The programmer that follows the rules. -/
def programmer (rules : List Rule) : Programmer := ⟨respond rules⟩

end Scripted

end FlashFleet
