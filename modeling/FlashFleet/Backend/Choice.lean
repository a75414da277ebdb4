import FlashFleet.Text.Split
/-!
# Choosing a backend

A backend is chosen by a text: its name, and after a colon its options, each a
key and a value with an equals sign between them, separated by commas. Pieces
without equals sign do not count.

## Main results

* `parse_of_not_mem` — a text without colon is a name without options.
-/

namespace FlashFleet.Backend

/-- The name and the options of a backend, as they were written. -/
structure Choice where
  name : String
  options : List (String × String) := []
  deriving DecidableEq, Repr

namespace Choice

/-- Reads one option. -/
def readOption (piece : List Char) : Option (String × String) :=
  (Text.splitFirst '=' piece).map fun parts => (String.ofList parts.1, String.ofList parts.2)

/-- Reads a choice. -/
def parse (text : String) : Choice :=
  match Text.splitFirst ':' text.toList with
  | none => { name := text }
  | some (name, options) =>
    { name := String.ofList name, options := (Text.splitAll ',' options).filterMap readOption }

/-- One option, written out. -/
def writeOption (option : String × String) : List Char :=
  option.1.toList ++ '=' :: option.2.toList

/-- A choice, written out. -/
def render (choice : Choice) : String :=
  match choice.options with
  | [] => choice.name
  | options =>
    String.ofList
      (choice.name.toList ++ ':' :: Text.joinWith ',' (options.map writeOption))

/-- A text without colon is a name without options. -/
theorem parse_of_not_mem {text : String} (h : ':' ∉ text.toList) :
    parse text = { name := text } := by
  simp [parse, Text.splitFirst_eq_none_iff.2 h]

end Choice

end FlashFleet.Backend
