import FlashFleet.CommandLine.Option
/-!
# Reading a command line

Options may stand before and behind the name of the command. Those that may
stand anywhere count where they stand behind the command, if they are given
there, and else where they stand before it. After two dashes alone no argument
is an option any more; as no command takes other arguments, whatever follows is
refused.
-/

namespace FlashFleet.CommandLine

/-! ## One argument -/

/-- What an argument looks like. -/
inductive Argument where
  | escape
  | long (name : String) (attached : Option String)
  | shorts (names : List Char)
  | word (text : String)
  deriving DecidableEq, Repr

/-- Looks at an argument. A dash alone is a word. -/
def Argument.ofText (text : String) : Argument :=
  match text.toList with
  | ['-', '-'] => .escape
  | '-' :: '-' :: rest =>
    match Text.splitFirst '=' rest with
    | some (name, value) => .long (String.ofList name) (some (String.ofList value))
    | none => .long (String.ofList rest) none
  | '-' :: c :: rest => .shorts (c :: rest)
  | _ => .word text

/-- Takes a long option. -/
def takeLong (scope : Scope) (given : Given) (name : String) (attached : Option String) :
    Except UsageError Given :=
  match (OptionName.ofLong? name).filter (·.allowed scope) with
  | none => .error .unknownArgument
  | some (.value name) => given.giveValue name attached
  | some (.flag name) =>
    match attached with
    | some _ => .error .valueForFlag
    | none => given.giveFlag name

/-- The value attached to a short option: the rest of the argument, without an
equals sign at its start. -/
def attachedValue : List Char → Option String
  | [] => none
  | '=' :: rest => some (String.ofList rest)
  | rest => some (String.ofList rest)

/-- Takes short options written together. The first that takes a value has the
rest for it. -/
def takeShorts (scope : Scope) (given : Given) : List Char → Except UsageError Given
  | [] => .ok given
  | name :: rest =>
    match (OptionName.ofShort? name).filter (·.allowed scope) with
    | none => .error .unknownArgument
    | some (.value name) => given.giveValue name (attachedValue rest)
    | some (.flag name) => do
      let given ← given.giveFlag name
      takeShorts scope given rest

/-! ## The arguments of one scope -/

/-- The word that asks for help on a command. -/
def helpWord : String := "help"

/-- The word stands for a command, that for help included. -/
def isCommandWord (text : String) : Bool :=
  (CommandName.parse? text).isSome || text == helpWord

/-- Why a word is refused. -/
def strayWord (scope : Scope) (escaped : Bool) (text : String) : UsageError :=
  match scope with
  | .root => if escaped && isCommandWord text then .unknownArgument else .unknownCommand
  | .command _ => .unknownArgument

/-- Reads arguments up to the name of a command. Gives what was given, and the
arguments from that name on. -/
def readScope (scope : Scope) (given : Given) (escaped : Bool) :
    List String → Except UsageError (Given × List String)
  | [] => .ok (given, [])
  | text :: rest =>
    if escaped then .error (strayWord scope true text)
    else if scope == .root && !given.isWaiting && isCommandWord text then .ok (given, text :: rest)
    else
      match Argument.ofText text with
      | .escape => readScope scope given true rest
      | .long name attached =>
        match takeLong scope given name attached with
        | .error error => .error error
        | .ok given => readScope scope given false rest
      | .shorts names =>
        match takeShorts scope given names with
        | .error error => .error error
        | .ok given => readScope scope given false rest
      | .word text =>
        if given.isWaiting then readScope scope (given.supply text) false rest
        else .error (strayWord scope false text)

/-! ## The whole command line -/

/-- The backend without other word. -/
def defaultProgrammer : String := "nrfjprog"

/-- The target of a command. -/
def Given.target (given : Given) : Except UsageError Target :=
  match given.devices with
  | none => .error .missingArgument
  | some devices =>
    .ok ⟨devices, ⟨given.kind.getD none, given.serials⟩, given.sequential⟩

/-- The request that options behind a command come to. -/
def request (name : CommandName) (given : Given) : Except UsageError Request :=
  match name with
  | .program => given.target.map fun target => .program target ⟨given.appImage, given.netImage⟩
  | .reboot => given.target.map .reboot
  | .listDevices =>
    match given.devices with
    | none => .error .missingArgument
    | some path => .ok (.listDevices path)
  | .listProgrammers => .ok .listProgrammers

/-- Why a call for help on something is no call for help: the words behind it
have to be those of one command, if there are any. -/
def helpOn : List String → UsageError
  | [] => .help
  | [name] => if isCommandWord name then .help else .unknownCommand
  | _ => .unknownCommand

/-- Reads a command line, without the name of the program. -/
def parse (arguments : List String) : Except UsageError Invocation := do
  let (given, rest) ← readScope .root {} false arguments
  match rest with
  | [] =>
    let given ← given.settle
    .error (if given.isEmpty then .missingCommandHelp else .missingCommand)
  | word :: rest =>
    match CommandName.parse? word with
    | none => .error (helpOn rest)
    | some name =>
      let (behind, _) ← readScope (.command name) {} false rest
      let behind ← behind.settle
      let request ← request name behind
      let given ← given.settle
      return {
        verbosity := if behind.verbosity = 0 then given.verbosity else behind.verbosity
        programmer := (behind.programmer.or given.programmer).getD defaultProgrammer
        request := request }

end FlashFleet.CommandLine
