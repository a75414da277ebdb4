import FlashFleet.Toml.Scalar
import FlashFleet.Toml.Text
import FlashFleet.Toml.Tree
/-!
# Keys and values in a document

A key is one name or several with points between them. A value is a text, a
number, a date or time, a truth value, an array, or a table between braces.
Arrays and tables may be nested up to `nestingLimit`.

The loops over the items of a container end because each item takes at least
one character; they check it as they go.
-/

namespace FlashFleet.Toml

/-! ## Keys -/

/-- The characters of a name without marks. -/
def isBareChar (c : Char) : Bool := c.isAlphanum || c == '_' || c == '-'

/-- Reads one name. -/
def name? : List Char → Option (String × List Char)
  | '"' :: rest => (basicBody rest).map fun read => (String.ofList read.1, read.2)
  | '\'' :: rest => (literalBody rest).map fun read => (String.ofList read.1, read.2)
  | text =>
    match text.takeWhile isBareChar with
    | [] => none
    | name => some (String.ofList name, text.dropWhile isBareChar)

/-- Reads names with points between them, blanks around each. -/
def names? (text : List Char) : Option (List String × List Char) :=
  match name? (skipBlanks text) with
  | none => none
  | some (name, rest) =>
    match skipBlanks rest with
    | '.' :: more =>
      if more.length < text.length then
        (names? more).map fun read => (name :: read.1, read.2)
      else none
    | rest => some ([name], rest)
termination_by text.length

/-- A key has fewer parts than this. -/
def keyLimit : Nat := 80

/-- Reads a key: the names before the last one, and the last one. -/
def key? (text : List Char) : Option ((List String × String) × List Char) :=
  match names? text with
  | none => none
  | some (names, rest) =>
    match names.getLast? with
    | some last => if names.length < keyLimit then some ((names.dropLast, last), rest) else none
    | none => none

/-! ## Containers -/

/-- A reader of one value. -/
abbrev Reader := List Char → Option (Node × List Char)

/-- Reads the items of an array behind its opening bracket. -/
def items? (read : Reader) (text : List Char) : Option (List Node × List Char) :=
  match skipFiller false text with
  | none => none
  | some (']' :: rest) => some ([], rest)
  | some start =>
    match read start with
    | none => none
    | some (node, rest) =>
      match skipFiller false rest with
      | some (']' :: rest) => some ([node], rest)
      | some (',' :: rest) =>
        if rest.length < text.length then
          (items? read rest).map fun more => (node :: more.1, more.2)
        else none
      | _ => none
termination_by text.length

/-- Reads a key, the equals sign and a value. -/
def pair? (read : Reader) (text : List Char) :
    Option ((List String × String × Node) × List Char) := do
  let ((path, key), rest) ← key? text
  let rest ← mark? '=' rest
  let (node, rest) ← read (skipBlanks rest)
  return ((path, key, node), rest)

/-- Reads the pairs of a table between braces. -/
def pairs? (read : Reader) (text : List Char) :
    Option (List (List String × String × Node) × List Char) :=
  match pair? read text with
  | none => none
  | some (pair, rest) =>
    match skipBlanks rest with
    | '}' :: rest => some ([pair], rest)
    | ',' :: rest =>
      if rest.length < text.length then
        (pairs? read rest).map fun more => (pair :: more.1, more.2)
      else none
    | _ => none
termination_by text.length

/-- Reads a table behind its opening brace. -/
def braces? (read : Reader) (text : List Char) : Option (Node × List Char) :=
  match skipBlanks text with
  | '}' :: rest => some (.table .inline [], rest)
  | _ => do
    let (pairs, rest) ← pairs? read text
    let entries ← ofPairs pairs []
    return (.table .inline entries, rest)

/-! ## Values -/

/-- Reads a given word. -/
def word? (word : List Char) (node : Node) (text : List Char) : Option (Node × List Char) :=
  if word.isPrefixOf text then some (node, text.drop word.length) else none

/-- How deep arrays and tables may be nested. -/
def nestingLimit : Nat := 79

/-- Reads a value in which containers are nested at most `depth` deep. -/
def value? : (depth : Nat) → List Char → Option (Node × List Char)
  | depth, text =>
    match text with
    | '"' :: _ | '\'' :: _ => (text? text).map fun read => (.text read.1, read.2)
    | '[' :: rest =>
      match depth with
      | 0 => none
      | depth + 1 => (items? (value? depth) rest).map fun read => (.array read.1, read.2)
    | '{' :: rest =>
      match depth with
      | 0 => none
      | depth + 1 => braces? (value? depth) rest
    | 't' :: _ => word? ['t', 'r', 'u', 'e'] (.boolean true) text
    | 'f' :: _ => word? ['f', 'a', 'l', 's', 'e'] (.boolean false) text
    | 'i' :: _ => word? ['i', 'n', 'f'] (.float (.infinite false)) text
    | 'n' :: _ => word? ['n', 'a', 'n'] (.float .nan) text
    | _ => quantity? text

end FlashFleet.Toml
