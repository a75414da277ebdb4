/-!
# Text in columns

A column is a width that shorter text is filled up to, a side the text keeps
to, and optionally a limit that longer text is cut to first. Widths count
characters.
-/

namespace FlashFleet.Text

/-- The side of its column a text keeps to. -/
inductive Side where
  | left
  | right
  | centre
  deriving DecidableEq, Repr

/-- How a text is set: `limit` cuts it, then `fill` widens it to `width`. -/
structure Column where
  width : Nat := 0
  side : Side := .left
  fill : Char := ' '
  limit : Option Nat := none
  deriving DecidableEq, Repr

namespace Column

/-- How much of `missing` fill goes before the text. A centred text has the
odd fill character after it. -/
def lead (column : Column) (missing : Nat) : Nat :=
  match column.side with
  | .left => 0
  | .right => missing
  | .centre => missing / 2

/-- The text cut to the limit. -/
def cut (column : Column) (text : List Char) : List Char :=
  match column.limit with
  | none => text
  | some n => text.take n

/-- The characters of the text set in the column. -/
def setChars (column : Column) (text : List Char) : List Char :=
  let shown := column.cut text
  let missing := column.width - shown.length
  let before := column.lead missing
  List.replicate before column.fill ++ shown ++ List.replicate (missing - before) column.fill

/-- The text set in the column. -/
def set (column : Column) (text : String) : String :=
  String.ofList (column.setChars text.toList)

/-- The widest column, and the longest limit. -/
def bound : Nat := 65535

/-- The width and the limit are within bounds. -/
def isBounded (column : Column) : Bool :=
  column.width ≤ bound && column.limit.all (· ≤ bound)

/-- What is said of a column that is out of bounds. -/
def unbounded : String := "Formatting argument out of range"

/-- The text set in the column, if the column is within bounds. -/
def set? (column : Column) (text : String) : Option String :=
  if column.isBounded then some (column.set text) else none

end Column

/-- The text on the left of a column of the given width. -/
def padRight (width : Nat) (text : String) : String := ({ width := width } : Column).set text

end FlashFleet.Text
