import FlashFleet.Device
/-!
# Failed invocations

Why an invocation did not do what it was asked to, and how that is worded.
-/

namespace FlashFleet

/-- The end of a tool that was started: its exit code, unless a signal ended
it. -/
abbrev ExitCode := Option Int

/-- The cause of a failure. -/
inductive Fault where
  | invalidChannel (text : String)
  | toolFailed (operation : String) (serial : Serial) (code : ExitCode)
  | notLaunched (tool : String) (source : String)
  | misconfigured (detail : String)
  deriving DecidableEq, Repr

/-- How a tool ended. -/
def exitText : ExitCode → String
  | some code => toString code
  | none => "terminated by signal"

/-- The wording of a misconfiguration. -/
def misconfiguration (detail : String) : String := "Invalid device configuration: " ++ detail

/-- The wording of a failure. -/
def Fault.message : Fault → String
  | .invalidChannel text => s!"Channel: '{text}' does not equal 'left' or 'right'"
  | .toolFailed operation serial code =>
    operation ++ " failed for probe " ++ toString serial.toNat ++
      " (exit status: " ++ exitText code ++ ")"
  | .notLaunched tool source => s!"Failed to launch {tool}: {source}"
  | .misconfigured detail => misconfiguration detail

/-- The name of a kind that does not exist. -/
def Kind.unknown (name : String) : Fault := .misconfigured s!"unknown device kind '{name}'"

end FlashFleet
