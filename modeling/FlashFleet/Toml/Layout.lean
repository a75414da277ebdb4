/-!
# Blanks, line ends and comments

The parts of a document that carry no value. Every reader of this library
takes the characters that are left and gives back those it leaves; one that
can fail gives `none`.

## Main results

* `length_skipBlanks_le` — skipping never adds.
-/

namespace FlashFleet.Toml

/-! ## Within a line -/

/-- The blanks within a line: space and tab. -/
def isBlank (c : Char) : Bool := c == ' ' || c == '\t'

/-- Leaves out the blanks at the start. -/
def skipBlanks (text : List Char) : List Char := text.dropWhile isBlank

/-- The characters of a comment: everything but the controls, tab excepted. -/
def isCommentChar (c : Char) : Bool :=
  c == '\t' || (0x20 ≤ c.toNat && c.toNat ≤ 0x7E) || 0x80 ≤ c.toNat

/-- Leaves out a comment, if one starts here. -/
def skipComment : List Char → List Char
  | '#' :: rest => rest.dropWhile isCommentChar
  | text => text

/-! ## Line ends -/

/-- Reads a line break: a line feed, alone or after a carriage return. -/
def newline? : List Char → Option (List Char)
  | '\n' :: rest => some rest
  | '\r' :: '\n' :: rest => some rest
  | _ => none

/-- Reads a line break or finds the end of the document. -/
def lineEnd? : List Char → Option (List Char)
  | [] => some []
  | text => newline? text

/-- Reads what may follow on a line: blanks, a comment, the line end. -/
def restOfLine? (text : List Char) : Option (List Char) :=
  lineEnd? (skipComment (skipBlanks text))

/-! ## Between the items of an array -/

/-- Leaves out blanks, line breaks and comments. A comment has to be ended by
a line break. -/
def skipFiller (inComment : Bool) : List Char → Option (List Char)
  | [] => if inComment then none else some []
  | '\n' :: rest => skipFiller false rest
  | '\r' :: '\n' :: rest => skipFiller false rest
  | c :: rest =>
    if inComment then
      if isCommentChar c then skipFiller true rest else none
    else if c = '#' then skipFiller true rest
    else if isBlank c then skipFiller false rest
    else some (c :: rest)

/-- Leaves out blanks and line breaks. -/
def skipSpace : List Char → List Char
  | '\n' :: rest => skipSpace rest
  | '\r' :: '\n' :: rest => skipSpace rest
  | c :: rest => if isBlank c then skipSpace rest else c :: rest
  | [] => []

/-! ## Skipping never adds -/

theorem length_skipBlanks_le (text : List Char) : (skipBlanks text).length ≤ text.length :=
  (List.dropWhile_sublist isBlank).length_le

theorem length_skipSpace_le (text : List Char) : (skipSpace text).length ≤ text.length := by
  fun_induction skipSpace text with
  | case1 rest ih => simp only [List.length_cons]; omega
  | case2 rest ih => simp only [List.length_cons]; omega
  | case3 c rest _ _ _ ih => simp only [List.length_cons]; omega
  | case4 c rest _ _ _ => exact Nat.le_refl _
  | case5 => exact Nat.le_refl _

theorem length_newline?_lt {text rest : List Char} (h : newline? text = some rest) :
    rest.length < text.length := by
  unfold newline? at h
  split at h
  · simp only [Option.some.injEq] at h
    subst h
    simp
  · simp only [Option.some.injEq] at h
    subst h
    simp only [List.length_cons]
    omega
  · simp at h

end FlashFleet.Toml
