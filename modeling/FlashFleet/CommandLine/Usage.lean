import FlashFleet.Selection
/-!
# What a command line asks for

The requests that a command line can make, why one is refused, and what the
program tells about itself.
-/

namespace FlashFleet.CommandLine

/-- Why a command line leads to no command. -/
inductive UsageError where
  | help
  | version
  | missingCommandHelp
  | missingCommand
  | unknownCommand
  | unknownArgument
  | missingArgument
  | invalidValue
  | malformedValue
  | repeatedOption
  | valueForFlag
  deriving DecidableEq, Repr

/-- The exit code: asking for help or for the version is no error. -/
def UsageError.exitCode : UsageError → Nat
  | .help | .version => 0
  | _ => 2

/-- The name and the version of the program. -/
def versionLine : String := "dkflasher 0.1.0\n"

/-- How the program is used. -/
def usage : String :=
  "Usage: dkflasher [OPTIONS] <COMMAND>\n\n" ++
    "Commands: program, reboot, list-devices, list-programmers, help\n"

/-- What is printed when a command line leads to no command: what was asked for,
and nothing if the command line is at fault. -/
def UsageError.output : UsageError → String
  | .help => usage
  | .version => versionLine
  | _ => ""

/-- The device file of a command, the devices in it, and whether they are
worked on one after another. -/
structure Target where
  devices : String
  selection : Selection
  sequential : Bool
  deriving DecidableEq, Repr

/-- A request for a command. -/
inductive Request where
  | program (target : Target) (images : Images)
  | reboot (target : Target)
  | listDevices (path : String)
  | listProgrammers
  deriving DecidableEq, Repr

/-- A command line that was understood. -/
structure Invocation where
  verbosity : Nat
  programmer : String
  request : Request
  deriving DecidableEq, Repr

end FlashFleet.CommandLine
