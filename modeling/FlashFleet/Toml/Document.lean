import FlashFleet.Toml.Value
/-!
# Reading a document

A document is a sequence of lines: headers, keys with values, comments and
empty lines. A byte order mark before the first one does not count. Reading
gives the keys of the document with what they stand for, or nothing if the
text is no document.
-/

namespace FlashFleet.Toml

/-- Reads a header behind its first bracket. -/
def header? (text : List Char) : Option (Header × List Char) :=
  match text with
  | '[' :: rest => do
    let ((path, key), rest) ← key? rest
    let rest ← mark? ']' rest
    let rest ← mark? ']' rest
    return (⟨path, key, true⟩, rest)
  | rest => do
    let ((path, key), rest) ← key? rest
    let rest ← mark? ']' rest
    return (⟨path, key, false⟩, rest)

/-- Reads one line that is not empty. -/
def line? (draft : Draft) (text : List Char) : Option (Draft × List Char) :=
  match text with
  | '#' :: _ => (lineEnd? (skipComment text)).map fun rest => (draft, rest)
  | '[' :: rest => do
    let (header, rest) ← header? rest
    let rest ← restOfLine? rest
    let draft ← draft.start header
    return (draft, rest)
  | _ =>
    match newline? text with
    | some rest => some (draft, rest)
    | none => do
      let ((path, key, node), rest) ← pair? (value? nestingLimit) text
      let rest ← restOfLine? rest
      let draft ← draft.add path key node
      return (draft, rest)

/-- Reads all lines. Each takes at least one character. -/
def lines? (draft : Draft) (text : List Char) : Option Draft :=
  match skipBlanks text with
  | [] => some draft
  | line =>
    match line? draft line with
    | none => none
    | some (draft, rest) => if rest.length < text.length then lines? draft rest else none
termination_by text.length

/-- Leaves out a byte order mark. -/
def skipMark : List Char → List Char
  | '\uFEFF' :: rest => rest
  | text => text

/-- Reads a document. -/
def parse? (text : String) : Option Entries :=
  match lines? {} (skipMark text.toList) with
  | none => none
  | some draft => draft.close

end FlashFleet.Toml
