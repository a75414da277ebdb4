import FlashFleet.Command
import FlashFleet.CommandLine.Parse
/-!
# Running a command line

A command line that is understood is run on a machine; one that is not ends the
program with its usage.
-/

namespace FlashFleet.CommandLine

/-- How the program ends. -/
inductive Ending where
  | usage (error : UsageError)
  | command (report : Command.Report)
  deriving DecidableEq, Repr

/-- The exit code of the program. -/
def Ending.exitCode : Ending → Nat
  | .usage error => error.exitCode
  | .command report => if report.error.isSome then 1 else 0

/-- What the program prints. -/
def Ending.output : Ending → String
  | .usage error => error.output
  | .command report => report.output

/-- The devices of a target follow each other as it says. -/
def Target.mode (target : Target) (scheduler : Parallel.Scheduler) : Mode :=
  if target.sequential then .sequential else .parallel scheduler

/-- Runs what a command line asks for. -/
def Invocation.run (invocation : Invocation) (host : Host) (scheduler : Parallel.Scheduler) :
    Command.Report :=
  match invocation.request with
  | .program target images =>
    Command.withBackend host invocation.programmer fun programmer =>
      Command.program host programmer (target.mode scheduler) target.devices target.selection images
  | .reboot target =>
    Command.withBackend host invocation.programmer fun programmer =>
      Command.reboot host programmer (target.mode scheduler) target.devices target.selection
  | .listDevices path => Command.listDevices host path
  | .listProgrammers => Command.listProgrammers

/-- Runs a command line. -/
def run (host : Host) (scheduler : Parallel.Scheduler) (arguments : List String) : Ending :=
  match parse arguments with
  | .error error => .usage error
  | .ok invocation => .command (invocation.run host scheduler)

end FlashFleet.CommandLine
