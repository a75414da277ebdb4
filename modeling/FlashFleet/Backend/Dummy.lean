import FlashFleet.Number.Digits
import FlashFleet.Programmer
import FlashFleet.Text.Split
/-!
# The simulated programmer

A programmer that touches no device. It writes every invocation to the log,
and fails those that it was told to fail, by operation and serial.
-/

namespace FlashFleet

/-- The simulated programmer: what it fails, and how many milliseconds each
programming takes. -/
structure Dummy where
  failures : List (Operation × Serial) := []
  delay : Nat := 0
  deriving DecidableEq, Repr

namespace Dummy

/-! ## Options -/

/-- An option that cannot be used. -/
inductive Error where
  | unknownOperation (name : String)
  | failWithoutSerial (value : String)
  | failSerial (fault : Serial.Fault)
  | delayNotNumber (value : String)
  | other (detail : String)
  deriving DecidableEq, Repr

/-- What is wrong with an option. -/
def Error.detail : Error → String
  | .unknownOperation name => s!"unknown operation '{name}' (expected net, app, memwr or reset)"
  | .failWithoutSerial value => s!"fail={value} (expected <operation>@<snr>)"
  | .failSerial fault => fault.message
  | .delayNotNumber value => s!"delay={value} is not milliseconds"
  | .other detail => detail

/-- The wording of an option's error. -/
def Error.message (error : Error) : String := "Invalid dummy parameter: " ++ error.detail

/-- The programmer that also fails one operation on one probe. -/
def withFailure (dummy : Dummy) (operation : Operation) (serial : Serial) : Dummy :=
  if (operation, serial) ∈ dummy.failures then dummy
  else { dummy with failures := dummy.failures ++ [(operation, serial)] }

/-- Reads the name of an operation. -/
def readOperation (name : String) : Except Error Operation :=
  match Operation.parse? name with
  | some operation => .ok operation
  | none => .error (.unknownOperation name)

/-- Reads an operation and a serial with an at sign between them. The serial is
read first. -/
def readFailure (value : String) : Except Error (Operation × Serial) :=
  match Text.splitFirst '@' value.toList with
  | none => .error (.failWithoutSerial value)
  | some (name, serial) =>
    match Serial.parse (String.ofList serial) with
    | .error fault => .error (.failSerial fault)
    | .ok serial => (readOperation (String.ofList name)).map fun operation => (operation, serial)

/-- The longest delay. -/
def delayLimit : Nat := 18446744073709551615

/-- Reads a number of milliseconds. -/
def readDelay (value : String) : Except Error Nat :=
  match Number.readWhole 10 delayLimit value.toList with
  | .ok delay => .ok delay
  | .error _ => .error (.delayNotNumber value)

/-- The warning about an option that does not exist. -/
def unknownOption (key value : String) : LogRecord :=
  ⟨.warn, s!"Unknown dummy option: {key}={value}"⟩

/-- Applies options in order, up to the first that cannot be used. Options that
do not exist are noted and left out. -/
def configure (dummy : Dummy) : List (String × String) → List LogRecord × Except Error Dummy
  | [] => ([], .ok dummy)
  | (key, value) :: rest =>
    if key = "fail" then
      match readFailure value with
      | .error error => ([], .error error)
      | .ok (operation, serial) => (dummy.withFailure operation serial).configure rest
    else if key = "delay" then
      match readDelay value with
      | .error error => ([], .error error)
      | .ok delay => { dummy with delay := delay }.configure rest
    else
      let later := dummy.configure rest
      (unknownOption key value :: later.1, later.2)

/-- The programmer with the given options. -/
def ofOptions (options : List (String × String)) : List LogRecord × Except Error Dummy :=
  ({} : Dummy).configure options

/-! ## Answers -/

/-- The response to an invocation, whatever came before. -/
def respond (dummy : Dummy) (call : Invocation) : Response :=
  { logs := [⟨.info, "dummy: " ++ call.record⟩]
    outcome :=
      if (call.operation, call.serial) ∈ dummy.failures then
        .failed (.toolFailed call.operation.verb call.serial (some 1))
      else .succeeded }

/-- The simulated programmer as a programmer. -/
def programmer (dummy : Dummy) : Programmer := ⟨fun _ call => dummy.respond call⟩

end Dummy

end FlashFleet
