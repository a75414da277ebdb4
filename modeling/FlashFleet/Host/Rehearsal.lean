import FlashFleet.Host
import FlashFleet.Text.Split
/-!
# A machine to rehearse on

A machine that consists of named files, folders and tools, with a working
directory and folders that are searched for tools. Commands can be run on it
without any device or process.
-/

namespace FlashFleet

/-! ## Files -/

/-- What a name in a folder stands for. A tool ends with a code that depends on
its arguments. -/
inductive Item where
  | file (content : ByteArray)
  | folder
  | tool (code : (arguments : List String) → ExitCode)

/-- The names on the way from the root to an item. -/
abbrev Place := List String

/-- The items of a machine. -/
abbrev Tree := List (Place × Item)

namespace Tree

/-- The names in a path. -/
def names (path : String) : List String :=
  (Text.splitAll '/' path.toList).map String.ofList

/-- The item at a place. A place above another is a folder. -/
def item? (tree : Tree) (place : Place) : Option Item :=
  if place.isEmpty then some .folder
  else
    match tree.find? fun entry => entry.1 == place with
    | some entry => some entry.2
    | none =>
      if tree.any fun entry => place.isPrefixOf entry.1 then some .folder else none

/-- The longest name, in bytes. -/
def nameLimit : Nat := 255

/-- The longest path, in bytes. -/
def pathLimit : Nat := 4095

/-- Follows names from a place. Only folders lead on. -/
def walk (tree : Tree) (place : Place) : List String → Except Refusal Item
  | [] => (tree.item? place).elim (.error .notFound) .ok
  | name :: rest =>
    match tree.item? place with
    | none => .error .notFound
    | some .folder =>
      if name = "" ∨ name = "." then tree.walk place rest
      else if name = ".." then tree.walk place.dropLast rest
      else if nameLimit < name.utf8ByteSize then .error .nameTooLong
      else tree.walk (place ++ [name]) rest
    | some _ => .error .notDirectory

/-- The tree seen from the folder that holds it. -/
def under (place : Place) (tree : Tree) : Tree :=
  tree.map fun entry => (place ++ entry.1, entry.2)

/-- The folders at the root of a machine, the empty device, and the tools that
do nothing but succeed or fail. -/
def standard : Tree :=
  (["bin", "boot", "dev", "etc", "home", "lib", "media", "mnt", "opt", "proc", "root", "run",
      "sbin", "srv", "sys", "tmp", "usr", "var"].map fun name => ([name], Item.folder)) ++
    [(["dev", "null"], .file .empty)] ++
    [["bin"], ["usr", "bin"]].flatMap fun place =>
      [(place ++ ["true"], .tool fun _ => some 0), (place ++ ["false"], .tool fun _ => some 1)]

end Tree

/-! ## Tools -/

/-- A machine to rehearse on: its items, its working directory, and the folders
in which a tool is looked for that is given by its name alone. -/
structure Rehearsal where
  tree : Tree
  work : Place
  searched : List Place

namespace Rehearsal

/-- A character that no path and no argument can hold. -/
def nul : Char := '\x00'

/-- The longest argument, in bytes. -/
def argumentLimit : Nat := 131071

/-- The item at a path. A path that starts with a slash starts at the root. -/
def resolve (rehearsal : Rehearsal) (path : String) : Except Refusal Item :=
  if path = "" then .error .notFound
  else if Tree.pathLimit < path.utf8ByteSize then .error .nameTooLong
  else
    match Tree.names path with
    | "" :: names => rehearsal.tree.walk [] names
    | names => rehearsal.tree.walk rehearsal.work names

/-- Reads a file. A tool holds no text. -/
def readBytes (rehearsal : Rehearsal) (path : String) : Except Refusal ByteArray :=
  if nul ∈ path.toList then .error .nulInPath
  else
    match rehearsal.resolve path with
    | .error refusal => .error refusal
    | .ok .folder => .error .isDirectory
    | .ok (.file content) => .ok content
    | .ok (.tool _) => .error .notText

/-- Looks for a tool in folders, one after the other. What is there but cannot
be run is passed over, and remembered as the reason if no tool is found. -/
def search (tree : Tree) (name : String) (refusal : Refusal) : List Place → Except Refusal Item
  | [] => .error refusal
  | place :: places =>
    match tree.walk place [name] with
    | .ok (.tool code) => .ok (.tool code)
    | .ok _ => search tree name .permissionDenied places
    | .error .notFound => search tree name refusal places
    | .error .notDirectory => search tree name refusal places
    | .error other => .error other

/-- The item that is launched by a path. -/
def toolAt (rehearsal : Rehearsal) (path : String) : Except Refusal Item :=
  if path = "" ∨ '/' ∈ path.toList then rehearsal.resolve path
  else search rehearsal.tree path .notFound rehearsal.searched

/-- Launches a tool. Files and folders cannot be run. -/
def launch (rehearsal : Rehearsal) : Launcher := fun path arguments =>
  if (path :: arguments).any fun text => text.toList.contains nul then .error .nulInArgument
  else
    match rehearsal.toolAt path with
    | .error refusal => .error refusal
    | .ok (.tool code) =>
      if arguments.any fun text => argumentLimit < text.utf8ByteSize then .error .argumentTooLong
      else .ok (code arguments)
    | .ok _ => .error .permissionDenied

/-- The machine as a host. -/
def host (rehearsal : Rehearsal) : Host := ⟨rehearsal.readBytes, rehearsal.launch⟩

/-- A machine with files in its working directory, and with a tool that is found
by its name. -/
def withFiles (files : Tree) (name : String) (code : (arguments : List String) → ExitCode) :
    Rehearsal :=
  let work := ["tmp", "work"]
  { tree := files.under work ++ (work, .folder) :: (["usr", "bin", name], .tool code) ::
      Tree.standard
    work := work
    searched := [["usr", "bin"], ["bin"]] }

end Rehearsal

end FlashFleet
