import FlashFleet.Fault
/-!
# The machine a command runs on

What a command needs from the machine it runs on: the content of a file, and
the launch of a tool. Both can be refused, in the words of the operating
system.
-/

namespace FlashFleet

/-- Why the operating system refuses. -/
inductive Refusal where
  | notFound
  | permissionDenied
  | notDirectory
  | isDirectory
  | nameTooLong
  | notSupported
  | argumentTooLong
  | nulInPath
  | nulInArgument
  | notText
  | other (text : String)
  deriving DecidableEq, Repr

/-- The words of a refusal. -/
def Refusal.message : Refusal → String
  | .notFound => "No such file or directory (os error 2)"
  | .argumentTooLong => "Argument list too long (os error 7)"
  | .permissionDenied => "Permission denied (os error 13)"
  | .notDirectory => "Not a directory (os error 20)"
  | .isDirectory => "Is a directory (os error 21)"
  | .nameTooLong => "File name too long (os error 36)"
  | .notSupported => "Function not implemented (os error 38)"
  | .nulInPath => "file name contained an unexpected NUL byte"
  | .nulInArgument => "nul byte found in provided data"
  | .notText => "stream did not contain valid UTF-8"
  | .other text => text

/-- The launch of a tool with its arguments: its exit code, or why it was not
launched. -/
abbrev Launcher := (tool : String) → (arguments : List String) → Except Refusal ExitCode

/-- A machine. -/
structure Host where
  readBytes : (path : String) → Except Refusal ByteArray
  launch : Launcher

/-- The content of a file that holds text. -/
def Host.readText (host : Host) (path : String) : Except Refusal String := do
  let bytes ← host.readBytes path
  match String.fromUTF8? bytes with
  | some text => .ok text
  | none => .error .notText

end FlashFleet
