import FlashFleet.Number.Binary64
/-!
# Configuration documents

What a TOML document says: scalars, arrays, tables, and arrays of tables. The
keys of a table keep the order of the document, and a table remembers how it
came to be, because that decides which later lines may add to it.
-/

namespace FlashFleet.Toml

/-- How a table came to be: as a value between braces, under its own header,
as a part of the path of another header, or as a part of a dotted key. -/
inductive Origin where
  | inline
  | header
  | implied
  | dotted
  deriving DecidableEq, Repr

/-- A part of a document. Of a date or a time only its place is kept. -/
inductive Node where
  | text (content : String)
  | integer (value : Int)
  | float (value : Number.Binary64)
  | boolean (value : Bool)
  | moment
  | array (items : List Node)
  | table (origin : Origin) (entries : List (String × Node))
  | tables (items : List (List (String × Node)))

/-- The keys of a table with what they stand for, in document order. -/
abbrev Entries := List (String × Node)

end FlashFleet.Toml
