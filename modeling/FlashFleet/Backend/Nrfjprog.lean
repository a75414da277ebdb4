import FlashFleet.Host
import FlashFleet.Programmer
/-!
# The nrfjprog tool

A programmer that launches the nrfjprog command-line tool once for every
invocation, with the invocation spelled out in its arguments. An exit code
other than zero is a failure.
-/

namespace FlashFleet

/-- The tool, by the path it is launched with. -/
structure Nrfjprog where
  path : String := "nrfjprog"
  deriving DecidableEq, Repr

namespace Nrfjprog

/-! ## Errors -/

/-- Why a launch or an option failed. -/
inductive Error where
  | notLaunched (tool source : String)
  | exitStatus (operation : String) (serial : Serial) (code : ExitCode)
  | invalidParameter (name detail : String)
  deriving DecidableEq, Repr

/-- An exit code in a record. -/
def codeRecord : ExitCode → String
  | some code => "Some(" ++ toString code ++ ")"
  | none => "None"

/-- The wording of an error. -/
def Error.message : Error → String
  | .notLaunched tool source => s!"Failed to launch '{tool}': {source}"
  | .exitStatus operation serial code =>
    "nrfjprog " ++ operation ++ " failed for snr " ++ toString serial.toNat ++ " (exit code " ++
      codeRecord code ++ ")"
  | .invalidParameter name detail => s!"Invalid parameter '{name}': {detail}"

/-- The error as the fault of an invocation. -/
def Error.fault : Error → Fault
  | .notLaunched tool source => .notLaunched tool source
  | .exitStatus operation serial code => .toolFailed operation serial code
  | .invalidParameter name detail =>
    .misconfigured s!"invalid nrfjprog parameter '{name}': {detail}"

/-! ## Options -/

/-- The warning about an option that does not exist. -/
def unknownOption (key value : String) : LogRecord :=
  ⟨.warn, s!"Unknown nrfjprog option: {key}={value}"⟩

/-- Applies options in order, up to the first that cannot be used. Options that
do not exist are noted and left out. -/
def configure (tool : Nrfjprog) :
    List (String × String) → List LogRecord × Except Error Nrfjprog
  | [] => ([], .ok tool)
  | (key, value) :: rest =>
    if key = "path" then
      if value = "" then ([], .error (.invalidParameter "path" "must not be empty"))
      else configure { path := value } rest
    else
      let later := tool.configure rest
      (unknownOption key value :: later.1, later.2)

/-- The tool with the given options. -/
def ofOptions (options : List (String × String)) : List LogRecord × Except Error Nrfjprog :=
  ({} : Nrfjprog).configure options

/-! ## Arguments -/

/-- The argument for a way of erasing. -/
def eraseArgument : Erase → String
  | .sectors => "--sectorerase"
  | .chip => "--chiperase"

/-- The argument for a core. -/
def coreArgument : Core → String
  | .application => "CP_APPLICATION"
  | .network => "CP_NETWORK"

/-- A word in decimal. -/
def decimal (word : UInt32) : String := toString word.toNat

/-- The arguments of the tool for an invocation. -/
def arguments : Invocation → List String
  | .program core image serial erase =>
    ["--program", image, "-f", "NRF53", "-q", "--snr", decimal serial, eraseArgument erase,
      "--coprocessor", coreArgument core]
  | .writeRegister address value serial =>
    ["--memwr", decimal address, "--val", decimal value, "--snr", decimal serial]
  | .reset serial => ["-r", "--snr", decimal serial]

/-! ## Answers -/

/-- Launches the tool for an invocation. -/
def launch (tool : Nrfjprog) (launcher : Launcher) (call : Invocation) : Except Error Unit :=
  match launcher tool.path (arguments call) with
  | .error refusal => .error (.notLaunched tool.path refusal.message)
  | .ok code =>
    if code = some 0 then .ok ()
    else .error (.exitStatus call.operation.verb call.serial code)

/-- The log record of a launch. -/
def launchRecord (tool : Nrfjprog) (call : Invocation) : LogRecord :=
  ⟨.debug, tool.path ++ " " ++ Text.quoteList (arguments call)⟩

/-- The response to an invocation, whatever came before. -/
def respond (tool : Nrfjprog) (launcher : Launcher) (call : Invocation) : Response :=
  { logs := [tool.launchRecord call]
    outcome :=
      match tool.launch launcher call with
      | .ok () => .succeeded
      | .error error => .failed error.fault }

/-- The tool as a programmer. -/
def programmer (tool : Nrfjprog) (launcher : Launcher) : Programmer :=
  ⟨fun _ call => tool.respond launcher call⟩

end Nrfjprog

end FlashFleet
