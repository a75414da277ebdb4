import FlashFleet.CommandLine.Run
/-!
# The program

Runs the command line it was started with: reads the device file, runs the
command, writes the log to standard error and the output to standard output.
It launches no tools; a run with the nrfjprog backend tells so for each
invocation.
-/

namespace FlashFleet.Main

/-- Why the operating system refused. -/
def refusalOf : IO.Error → Refusal
  | .noFileOrDirectory .. => .notFound
  | .permissionDenied .. => .permissionDenied
  | error => .other (toString error)

/-- The device file that a request needs. -/
def deviceFileOf : CommandLine.Request → Option String
  | .program target _ => some target.devices
  | .reboot target => some target.devices
  | .listDevices path => some path
  | .listProgrammers => none

/-- Reads a file. -/
def readBytes (path : String) : IO (Except Refusal ByteArray) := do
  try
    return .ok (← IO.FS.readBinFile path)
  catch error =>
    return .error (refusalOf error)

/-- The machine as a request needs it. -/
def hostFor (request : CommandLine.Request) : IO Host := do
  let content ← match deviceFileOf request with
    | some path => readBytes path
    | none => pure (.error .notFound)
  return { readBytes := fun _ => content, launch := fun _ _ => .error .notSupported }

/-- The name of a level in the log. -/
def levelName : Level → String
  | .error => "ERROR"
  | .warn => "WARN"
  | .info => "INFO"
  | .debug => "DEBUG"

/-- A level is shown at a verbosity. -/
def isShown (verbosity : Nat) : Level → Bool
  | .debug => 0 < verbosity
  | _ => true

/-- Writes the log. -/
def writeLog (verbosity : Nat) (trace : Trace) : IO Unit := do
  for record in Events.logs trace.events do
    if isShown verbosity record.level then
      IO.eprintln ("[" ++ levelName record.level ++ "] " ++ record.text)

/-- Runs a command line that was understood. -/
def runInvocation (invocation : CommandLine.Invocation) : IO UInt32 := do
  let host ← hostFor invocation.request
  let report := invocation.run host Parallel.ascending
  writeLog invocation.verbosity report.trace
  IO.print report.output
  match report.error with
  | some error => IO.eprintln ("Error: " ++ error.shown)
  | none => pure ()
  return UInt32.ofNat (CommandLine.Ending.command report).exitCode

/-- Prints what was asked for, or tells how the program is used. -/
def explain (error : CommandLine.UsageError) : IO UInt32 := do
  IO.print error.output
  if error.exitCode != 0 then
    IO.eprint CommandLine.usage
  return UInt32.ofNat error.exitCode

end FlashFleet.Main

/-- Runs the program. -/
def main (arguments : List String) : IO UInt32 :=
  match FlashFleet.CommandLine.parse arguments with
  | .error error => FlashFleet.Main.explain error
  | .ok invocation => FlashFleet.Main.runInvocation invocation
