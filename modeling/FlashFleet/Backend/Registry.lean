import FlashFleet.Backend.Choice
import FlashFleet.Backend.Dummy
import FlashFleet.Backend.Nrfjprog
import FlashFleet.Text.Column
/-!
# The backends

There are two backends, each with a name, an alias and a description. A choice
opens the backend it names, under either name.

## Main results

* `Brand.find?_name`, `Brand.find?_alias` — both names lead to the backend.
-/

namespace FlashFleet.Backend

/-! ## Names -/

/-- A kind of backend. -/
inductive Brand where
  | nrfjprog
  | dummy
  deriving DecidableEq, Repr

namespace Brand

/-- All kinds, in the order in which they are listed. -/
def all : List Brand := [.nrfjprog, .dummy]

/-- The name of a kind. -/
def name : Brand → String
  | .nrfjprog => "nrfjprog"
  | .dummy => "dummy"

/-- The other names of a kind. -/
def aliases : Brand → List String
  | .nrfjprog => ["jlink"]
  | .dummy => ["dry-run"]

/-- What a kind is. -/
def description : Brand → String
  | .nrfjprog => "Nordic nrfjprog command-line tool (path=<executable>)"
  | .dummy => "Simulated programmer, records invocations (fail=<op>@<snr>,delay=<ms>)"

/-- The kind that goes by a name. -/
def find? (name : String) : Option Brand :=
  all.find? fun brand => brand.name == name || brand.aliases.contains name

theorem find?_name (brand : Brand) : find? brand.name = some brand := by
  cases brand <;> decide

theorem find?_alias {brand : Brand} {name : String} (h : name ∈ brand.aliases) :
    find? name = some brand := by
  cases brand <;> simp only [aliases, List.mem_singleton] at h <;> subst h <;> decide

end Brand

/-- The names of all backends. -/
def names : String := String.intercalate ", " (Brand.all.map Brand.name)

/-- The lines that describe a backend. -/
def describe (brand : Brand) : String :=
  "  " ++ Text.padRight 12 brand.name ++ " - " ++ brand.description ++ "\n" ++
    (if brand.aliases.isEmpty then ""
    else
      "  " ++ Text.padRight 12 "" ++ "   aliases: " ++ String.intercalate ", " brand.aliases ++
        "\n")

/-- The description of all backends. -/
def help : String := "Available programmers:\n" ++ String.join (Brand.all.map describe)

/-! ## Opening -/

/-- Why a backend was not opened. -/
inductive OpenError where
  | unknown (name : String)
  | nrfjprog (error : Nrfjprog.Error)
  | dummy (error : Dummy.Error)
  deriving DecidableEq, Repr

/-- The wording of an error. -/
def OpenError.message : OpenError → String
  | .unknown name =>
    "Unknown programmer: " ++ name ++ "\n\n" ++ help ++
      "\nUse 'dkflasher list-programmers' for more details"
  | .nrfjprog error => "Invalid nrfjprog parameters: " ++ error.message
  | .dummy error => "Invalid dummy parameters: " ++ error.message

/-- A backend ready for use. -/
inductive Opened where
  | nrfjprog (tool : Nrfjprog)
  | dummy (simulated : Dummy)
  deriving DecidableEq, Repr

/-- The backend as a programmer. -/
def Opened.programmer (opened : Opened) (launcher : Launcher) : Programmer :=
  match opened with
  | .nrfjprog tool => tool.programmer launcher
  | .dummy simulated => simulated.programmer

/-- The launches of tools that invocations come to: the path, and the
arguments. -/
def Opened.launches (opened : Opened) (calls : List Invocation) :
    List (String × List String) :=
  match opened with
  | .nrfjprog tool => calls.map fun call => (tool.path, Nrfjprog.arguments call)
  | .dummy _ => []

/-- Opens the tool. -/
def openNrfjprog (options : List (String × String)) :
    List LogRecord × Except OpenError Opened :=
  let (logs, result) := Nrfjprog.ofOptions options
  let opening : LogRecord := ⟨.debug, "Opening nrfjprog backend..."⟩
  match result with
  | .error error => (opening :: logs, .error (.nrfjprog error))
  | .ok tool =>
    (opening :: logs ++ [⟨.debug, s!"Using nrfjprog at {tool.path}"⟩], .ok (.nrfjprog tool))

/-- Opens the simulated programmer. -/
def openDummy (options : List (String × String)) : List LogRecord × Except OpenError Opened :=
  let (logs, result) := Dummy.ofOptions options
  let opening : LogRecord := ⟨.warn, "Using the dummy programmer: no devices will be touched"⟩
  match result with
  | .error error => (opening :: logs, .error (.dummy error))
  | .ok simulated => (opening :: logs, .ok (.dummy simulated))

/-- Opens the backend of a choice. -/
def openChoice (choice : Choice) : List LogRecord × Except OpenError Opened :=
  match Brand.find? choice.name with
  | none => ([], .error (.unknown choice.name))
  | some .nrfjprog => openNrfjprog choice.options
  | some .dummy => openDummy choice.options

/-- Opens the backend that a text names. -/
def openText (text : String) : List LogRecord × Except OpenError Opened :=
  openChoice (Choice.parse text)

end FlashFleet.Backend
