import FlashFleet.Backend.Registry
import FlashFleet.DeviceFile.Fleet
import FlashFleet.Fleet.Run
import FlashFleet.Selection
import FlashFleet.Table
/-!
# Commands

What the program does on request: program or reboot the selected devices of a
device file, list the devices of one, or list the backends. A report tells what
a command printed, what happened, and how it ended.
-/

namespace FlashFleet.Command

/-! ## Reports -/

/-- Why a command failed. -/
inductive Error where
  | backend (error : Backend.OpenError)
  | deviceFile (error : DeviceFile.Error)
  | nothingSelected
  | devicesFailed (count : Nat)
  | crashed (text : String)
  deriving DecidableEq, Repr

/-- The wording of a failure. -/
def Error.message : Error → String
  | .backend error => error.message
  | .deviceFile error => error.message
  | .nothingSelected => "No devices match the selection"
  | .devicesFailed count => toString count ++ " device(s) failed"
  | .crashed text => text

/-- A failure as the program shows it when it ends: the kind of a device file's
error with its wording in parentheses, or the quoted wording of another. -/
def Error.shown : Error → String
  | .deviceFile error =>
    let kind := match error with
      | .unreadable .. => "Io"
      | .notDocument | .misfit _ => "Toml"
      | .repeated _ => "Config"
    kind ++ "(" ++ Text.quote error.message ++ ")"
  | error => Text.quote error.message

/-- What a command came to: what it printed, what happened, the tools it
launched, and its failure, if it failed. -/
structure Report where
  output : String := ""
  trace : Trace := []
  launches : List (String × List String) := []
  error : Option Error := none
  deriving DecidableEq, Repr

/-- Log records as a trace. -/
def logTrace (logs : List LogRecord) : Trace :=
  Events.authoredBy .orchestrator (logs.map .log)

/-- The same with log records before everything else. -/
def Report.after (logs : List LogRecord) (report : Report) : Report :=
  { report with trace := logTrace logs ++ report.trace }

/-! ## Device files -/

/-- Loads a device file. -/
def loadDevices (host : Host) (path : String) :
    List LogRecord × Except DeviceFile.Error (List Device) :=
  match host.readText path with
  | .error refusal => ([], .error (.unreadable path refusal.message))
  | .ok text =>
    match DeviceFile.parse text with
    | .error error => ([], .error error)
    | .ok devices =>
      ([⟨.debug, "Loaded " ++ toString devices.length ++ " device(s) from " ++ path⟩], .ok devices)

/-- Lists the devices of a device file. -/
def listDevices (host : Host) (path : String) : Report :=
  match loadDevices host path with
  | (logs, .error error) => { error := some (.deviceFile error) : Report }.after logs
  | (logs, .ok devices) => { output := Table.listing devices : Report }.after logs

/-- Lists the backends. -/
def listProgrammers : Report := { output := Backend.help }

/-! ## Runs -/

/-- How a run ended for the command. -/
def verdict (devices : List Device) : Option Error :=
  if anyFailure devices then some (.devicesFailed (devices.countP Device.hasFailure)) else none

/-- A word on how many devices were selected, and how they are worked on. -/
def selectionRecord (selected total : Nat) (mode : Mode) : LogRecord :=
  ⟨.info, toString selected ++ " of " ++ toString total ++ " device(s) selected" ++
    match mode with
    | .sequential => " (sequential)"
    | .parallel _ => ""⟩

/-- Runs over prepared devices, of which some are selected, and prints the
summary. Without a selected device nothing happens. -/
def runFleet (programmer : Programmer) (mode : Mode) (selected : Nat) (devices : List Device) :
    Report :=
  if selected = 0 then { error := some .nothingSelected }
  else
    let run := Fleet.run programmer mode [] devices
    let trace := logTrace [selectionRecord selected devices.length mode] ++ run.trace
    match run.crash with
    | some text => { trace := trace, error := some (.crashed text) }
    | none =>
      { output := "\n" ++ Table.summary run.devices
        trace := trace
        error := verdict run.devices }

/-- Programs the selected devices of a device file. -/
def program (host : Host) (programmer : Programmer) (mode : Mode) (path : String)
    (selection : Selection) (images : Images) : Report :=
  match loadDevices host path with
  | (logs, .error error) => { error := some (.deviceFile error) : Report }.after logs
  | (logs, .ok devices) =>
    let (warnings, prepared) := selection.forProgram images devices
    (runFleet programmer mode (selection.count devices) prepared).after (logs ++ warnings)

/-- Reboots the selected devices of a device file. -/
def reboot (host : Host) (programmer : Programmer) (mode : Mode) (path : String)
    (selection : Selection) : Report :=
  match loadDevices host path with
  | (logs, .error error) => { error := some (.deviceFile error) : Report }.after logs
  | (logs, .ok devices) =>
    (runFleet programmer mode (selection.count devices) (selection.forReboot devices)).after logs

/-- Does something with the backend that a text names, if it can be opened. -/
def withBackend (host : Host) (name : String) (use : Programmer → Report) : Report :=
  match Backend.openText name with
  | (logs, .error error) => { error := some (.backend error) : Report }.after logs
  | (logs, .ok opened) =>
    let report := use (opened.programmer host.launch)
    { report with launches := opened.launches report.trace.invocations }.after logs

end FlashFleet.Command
