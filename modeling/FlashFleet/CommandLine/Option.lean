import FlashFleet.CommandLine.Usage
import FlashFleet.Text.Split
/-!
# Options of a command line

The options, where each may stand, and what giving one does. An option that
takes a value gets the text attached to it or the next argument; the value is
looked at only when the next option is given or the arguments end. An option
may be given once, except for the serials, which add up, and the verbosity,
which counts.
-/

namespace FlashFleet.CommandLine

/-! ## Names -/

/-- The commands. -/
inductive CommandName where
  | program
  | reboot
  | listDevices
  | listProgrammers
  deriving DecidableEq, Repr

/-- The name of a command. -/
def CommandName.text : CommandName → String
  | .program => "program"
  | .reboot => "reboot"
  | .listDevices => "list-devices"
  | .listProgrammers => "list-programmers"

/-- Reads the name of a command. -/
def CommandName.parse? (text : String) : Option CommandName :=
  [.program, .reboot, .listDevices, .listProgrammers].find? (·.text == text)

/-- Where an argument stands: before the command, or behind it. -/
inductive Scope where
  | root
  | command (name : CommandName)
  deriving DecidableEq, Repr

/-- The options that take a value. -/
inductive ValueOption where
  | programmer
  | devices
  | kind
  | serials
  | appImage
  | netImage
  deriving DecidableEq, Repr

/-- The options that take none. -/
inductive FlagOption where
  | verbose
  | sequential
  | help
  | version
  deriving DecidableEq, Repr

/-- An option. -/
inductive OptionName where
  | value (name : ValueOption)
  | flag (name : FlagOption)
  deriving DecidableEq, Repr

namespace OptionName

/-- The option with a long name. -/
def ofLong? (name : String) : Option OptionName :=
  match name with
  | "programmer" => some (.value .programmer)
  | "devices" => some (.value .devices)
  | "kind" => some (.value .kind)
  | "snr" => some (.value .serials)
  | "app-hex" => some (.value .appImage)
  | "net-hex" => some (.value .netImage)
  | "verbose" => some (.flag .verbose)
  | "sequential" => some (.flag .sequential)
  | "help" => some (.flag .help)
  | "version" => some (.flag .version)
  | _ => none

/-- The option with a short name. -/
def ofShort? (name : Char) : Option OptionName :=
  match name with
  | 'p' => some (.value .programmer)
  | 'd' => some (.value .devices)
  | 'k' => some (.value .kind)
  | 'v' => some (.flag .verbose)
  | 'h' => some (.flag .help)
  | 'V' => some (.flag .version)
  | _ => none

/-- The option may stand in a scope. The backend, the verbosity and the call
for help may stand anywhere. -/
def allowed (scope : Scope) : OptionName → Bool
  | .value .programmer | .flag .verbose | .flag .help => true
  | .flag .version => scope == .root
  | .value .devices =>
    scope == .command .program || scope == .command .reboot || scope == .command .listDevices
  | .value .kind | .value .serials | .flag .sequential =>
    scope == .command .program || scope == .command .reboot
  | .value .appImage | .value .netImage => scope == .command .program

end OptionName

/-! ## What was given -/

/-- The options given in a scope. `pending` is an option whose value has not
been looked at, or has not come yet. -/
structure Given where
  verbosity : Nat := 0
  programmer : Option String := none
  devices : Option String := none
  kind : Option (Option Kind) := none
  serials : List Serial := []
  appImage : Option String := none
  netImage : Option String := none
  sequential : Bool := false
  pending : Option (ValueOption × Option String) := none
  deriving DecidableEq, Repr

namespace Given

/-- The highest verbosity that is counted. -/
def verbosityLimit : Nat := 255

/-- Reads the name of a kind, or that of both. -/
def readKind (value : String) : Except UsageError (Option Kind) :=
  if value = "both" then .ok none
  else
    match Kind.parse? value with
    | some kind => .ok (some kind)
    | none => .error .invalidValue

/-- A path is not empty. -/
def readPath (value : String) : Except UsageError String :=
  if value = "" then .error .invalidValue else .ok value

/-- Reads serials one after another. -/
def readEach : List (List Char) → Except UsageError (List Serial)
  | [] => .ok []
  | piece :: rest =>
    match Serial.parse (String.ofList piece) with
    | .error _ => .error .malformedValue
    | .ok serial => (readEach rest).map (serial :: ·)

/-- Reads serials with commas between them. -/
def readSerials (value : String) : Except UsageError (List Serial) :=
  readEach (Text.splitAll ',' value.toList)

/-- Sets what may be set once. -/
def once (old : Option α) (new : Except UsageError α) : Except UsageError (Option α) :=
  match old with
  | some _ => .error .repeatedOption
  | none => new.map some

/-- Takes the value of an option. -/
def take (given : Given) (name : ValueOption) (value : String) : Except UsageError Given :=
  match name with
  | .programmer => return { given with programmer := ← once given.programmer (.ok value) }
  | .devices => return { given with devices := ← once given.devices (readPath value) }
  | .kind => return { given with kind := ← once given.kind (readKind value) }
  | .serials => return { given with serials := given.serials ++ (← readSerials value) }
  | .appImage => return { given with appImage := ← once given.appImage (readPath value) }
  | .netImage => return { given with netImage := ← once given.netImage (readPath value) }

/-- Looks at the pending value. An option without value is refused. -/
def settle (given : Given) : Except UsageError Given :=
  match given.pending with
  | none => .ok given
  | some (_, none) => .error .invalidValue
  | some (name, some value) => { given with pending := none }.take name value

/-- Takes the attached value of an option, or waits for one. -/
def giveValue (given : Given) (name : ValueOption) (attached : Option String) :
    Except UsageError Given := do
  let given ← given.settle
  match attached with
  | some value => given.take name value
  | none => return { given with pending := some (name, none) }

/-- Takes an option without value. -/
def giveFlag (given : Given) (name : FlagOption) : Except UsageError Given := do
  let given ← given.settle
  match name with
  | .verbose => return { given with verbosity := min (given.verbosity + 1) verbosityLimit }
  | .sequential =>
    if given.sequential then .error .repeatedOption else return { given with sequential := true }
  | .help => .error .help
  | .version => .error .version

/-- An option waits for its value. -/
def isWaiting (given : Given) : Bool :=
  match given.pending with
  | some (_, none) => true
  | _ => false

/-- Takes an argument as the value of the option that waits. -/
def supply (given : Given) (value : String) : Given :=
  match given.pending with
  | some (name, none) => { given with pending := some (name, some value) }
  | _ => given

/-- Nothing was given. -/
def isEmpty (given : Given) : Bool := given.verbosity == 0 && given.programmer.isNone

end Given

end FlashFleet.CommandLine
