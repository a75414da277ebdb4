import FlashFleet.Number.Digits
import FlashFleet.Toml.Layout
/-!
# Text in a document

The four ways to write a text: between quotes with escapes, between
apostrophes as it is, and both of them over several lines between three marks.
The readers start behind the opening mark and stop behind the closing one.

## Main results

* `length_escape?_lt` — an escape takes at least one character.
-/

namespace FlashFleet.Toml

/-! ## Escapes -/

/-- Reads the number of a character in a fixed count of hexadecimal digits. -/
def scalar? (count : Nat) (text : List Char) : Option (Char × List Char) :=
  let digits := text.take count
  if digits.length = count then
    match Number.digitsValue? 16 digits 0 with
    | some value => if value.isValidChar then some (Char.ofNat value, text.drop count) else none
    | none => none
  else none

/-- Reads what follows a backslash. -/
def escape? : List Char → Option (Char × List Char)
  | 'b' :: rest => some ('\x08', rest)
  | 't' :: rest => some ('\t', rest)
  | 'n' :: rest => some ('\n', rest)
  | 'f' :: rest => some ('\x0c', rest)
  | 'r' :: rest => some ('\r', rest)
  | '"' :: rest => some ('"', rest)
  | '\\' :: rest => some ('\\', rest)
  | 'u' :: rest => scalar? 4 rest
  | 'U' :: rest => scalar? 8 rest
  | _ => none

theorem length_scalar?_le {count : Nat} {text rest : List Char} {c : Char}
    (h : scalar? count text = some (c, rest)) : rest.length ≤ text.length := by
  simp only [scalar?] at h
  split at h
  · split at h
    · split at h
      · simp only [Option.some.injEq, Prod.mk.injEq] at h
        rw [← h.2, List.length_drop]
        omega
      · simp at h
    · simp at h
  · simp at h

/-- An escape takes at least one character. -/
theorem length_escape?_lt {text rest : List Char} {c : Char}
    (h : escape? text = some (c, rest)) : rest.length < text.length := by
  unfold escape? at h
  split at h
  case h_8 => exact Nat.lt_succ_of_le (length_scalar?_le h)
  case h_9 => exact Nat.lt_succ_of_le (length_scalar?_le h)
  case h_10 => simp at h
  all_goals
    simp only [Option.some.injEq, Prod.mk.injEq] at h
    rw [← h.2]
    simp

/-! ## On one line -/

/-- The characters that stand for themselves between quotes. -/
def isBasicChar (c : Char) : Bool :=
  isBlank c || c.toNat == 0x21 || (0x23 ≤ c.toNat && c.toNat ≤ 0x5B) ||
  (0x5D ≤ c.toNat && c.toNat ≤ 0x7E) || 0x80 ≤ c.toNat

/-- The characters that may stand between apostrophes. -/
def isLiteralChar (c : Char) : Bool :=
  c == '\t' || (0x20 ≤ c.toNat && c.toNat ≤ 0x26) || (0x28 ≤ c.toNat && c.toNat ≤ 0x7E) ||
  0x80 ≤ c.toNat

/-- Reads a text with escapes up to the closing quote. -/
def basicBody (text : List Char) : Option (List Char × List Char) :=
  match text with
  | [] => none
  | '"' :: rest => some ([], rest)
  | '\\' :: rest =>
    match _taken : escape? rest with
    | none => none
    | some (c, rest') => (basicBody rest').map fun read => (c :: read.1, read.2)
  | c :: rest =>
    if isBasicChar c then (basicBody rest).map fun read => (c :: read.1, read.2) else none
termination_by text.length
decreasing_by
  · have := length_escape?_lt _taken
    simp only [List.length_cons]
    omega
  · simp

/-- Reads a text as it is up to the closing apostrophe. -/
def literalBody : List Char → Option (List Char × List Char)
  | [] => none
  | '\'' :: rest => some ([], rest)
  | c :: rest =>
    if isLiteralChar c then (literalBody rest).map fun read => (c :: read.1, read.2) else none

/-! ## Over several lines -/

/-- Reads a backslash's line break with the blanks before it, and all blanks
and line breaks after it. -/
def continuation? (text : List Char) : Option (List Char) :=
  (newline? (skipBlanks text)).map skipSpace

theorem length_continuation?_lt {text rest : List Char} (h : continuation? text = some rest) :
    rest.length < text.length := by
  simp only [continuation?, Option.map_eq_some_iff] at h
  obtain ⟨broken, hbreak, rfl⟩ := h
  have h1 := length_newline?_lt hbreak
  have h2 := length_skipBlanks_le text
  have h3 := length_skipSpace_le broken
  omega

/-- The marks beyond three that end a text belong to it, two at most. -/
def closing (mark : Char) : List Char → List Char × List Char
  | a :: b :: rest =>
    if a = mark then
      if b = mark then ([mark, mark], rest) else ([mark], b :: rest)
    else ([], a :: b :: rest)
  | [a] => if a = mark then ([mark], []) else ([], [a])
  | [] => ([], [])

/-- Reads a text with escapes up to three quotes. Line breaks are kept as line
feeds. -/
def longBasicBody (text : List Char) : Option (List Char × List Char) :=
  match text with
  | [] => none
  | '"' :: '"' :: '"' :: rest => some (closing '"' rest)
  | '"' :: rest => (longBasicBody rest).map fun read => ('"' :: read.1, read.2)
  | '\\' :: rest =>
    match _joined : continuation? rest with
    | some rest' => longBasicBody rest'
    | none =>
      match _taken : escape? rest with
      | none => none
      | some (c, rest') => (longBasicBody rest').map fun read => (c :: read.1, read.2)
  | '\n' :: rest => (longBasicBody rest).map fun read => ('\n' :: read.1, read.2)
  | '\r' :: '\n' :: rest => (longBasicBody rest).map fun read => ('\n' :: read.1, read.2)
  | c :: rest =>
    if isBasicChar c then (longBasicBody rest).map fun read => (c :: read.1, read.2) else none
termination_by text.length
decreasing_by
  · simp
  · have := length_continuation?_lt _joined
    simp only [List.length_cons]
    omega
  · have := length_escape?_lt _taken
    simp only [List.length_cons]
    omega
  · simp
  · simp only [List.length_cons]
    omega
  · simp

/-- Reads a text as it is up to three apostrophes. Line breaks are kept as line
feeds. -/
def longLiteralBody : List Char → Option (List Char × List Char)
  | [] => none
  | '\'' :: '\'' :: '\'' :: rest => some (closing '\'' rest)
  | '\'' :: rest => (longLiteralBody rest).map fun read => ('\'' :: read.1, read.2)
  | '\n' :: rest => (longLiteralBody rest).map fun read => ('\n' :: read.1, read.2)
  | '\r' :: '\n' :: rest => (longLiteralBody rest).map fun read => ('\n' :: read.1, read.2)
  | c :: rest =>
    if isLiteralChar c then (longLiteralBody rest).map fun read => (c :: read.1, read.2) else none

/-- Leaves out one line break at the start. -/
def skipNewline (text : List Char) : List Char := (newline? text).getD text

/-- Reads a text in any of the four ways, with its marks. -/
def text? : List Char → Option (String × List Char)
  | '"' :: '"' :: '"' :: rest => named (longBasicBody (skipNewline rest))
  | '"' :: rest => named (basicBody rest)
  | '\'' :: '\'' :: '\'' :: rest => named (longLiteralBody (skipNewline rest))
  | '\'' :: rest => named (literalBody rest)
  | _ => none
where
  /-- The characters read, as a text. -/
  named (read : Option (List Char × List Char)) : Option (String × List Char) :=
    read.map fun read => (String.ofList read.1, read.2)

end FlashFleet.Toml
