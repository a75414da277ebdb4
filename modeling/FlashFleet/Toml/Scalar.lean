import FlashFleet.Number.Digits
import FlashFleet.Toml.Layout
import FlashFleet.Toml.Node
/-!
# Numbers, dates and times in a document

A value that starts with a sign or a digit. What can be read as a date or a
time is one; else a number with a fraction or an exponent is a float, and
without either it is a whole number of 64 bits. Underscores may stand between
two digits.
-/

namespace FlashFleet.Toml

/-! ## Digits -/

/-- An ASCII digit of the radix. -/
def isDigitOf (radix : Nat) (c : Char) : Bool := (Number.digitValue? radix c).isSome

/-- A decimal digit. -/
def isDecimal (c : Char) : Bool := isDigitOf 10 c

/-- Reads the digits that follow another, single underscores between them. -/
def moreDigits (radix : Nat) : List Char → List Char × List Char
  | '_' :: c :: rest =>
    if isDigitOf radix c then
      let read := moreDigits radix rest
      (c :: read.1, read.2)
    else ([], '_' :: c :: rest)
  | c :: rest =>
    if isDigitOf radix c then
      let read := moreDigits radix rest
      (c :: read.1, read.2)
    else ([], c :: rest)
  | [] => ([], [])

/-- Reads one digit or more, single underscores between them. -/
def digits? (radix : Nat) : List Char → Option (List Char × List Char)
  | c :: rest =>
    if isDigitOf radix c then
      let read := moreDigits radix rest
      some (c :: read.1, read.2)
    else none
  | [] => none

/-- The value of digits. -/
def valueOf (radix : Nat) (digits : List Char) : Nat :=
  (Number.digitsValue? radix digits 0).getD 0

/-- Reads a sign: whether it is a minus, and what follows. -/
def sign : List Char → Bool × List Char
  | '-' :: rest => (true, rest)
  | '+' :: rest => (false, rest)
  | text => (false, text)

/-! ## Numbers -/

/-- Reads the digits before a point: a zero, or digits without leading zero. -/
def whole? : List Char → Option (List Char × List Char)
  | '0' :: rest => some (['0'], rest)
  | text => digits? 10 text

/-- Reads an exponent behind its letter. -/
def exponent? (text : List Char) : Option (Int × List Char) :=
  let (negative, unsigned) := sign text
  (digits? 10 unsigned).map fun read =>
    let size : Int := valueOf 10 read.1
    (if negative then -size else size, read.2)

/-- The whole numbers of 64 bits. -/
def integer? (negative : Bool) (size : Nat) : Option Node :=
  let value : Int := if negative then -(size : Int) else size
  if -9223372036854775808 ≤ value ∧ value ≤ 9223372036854775807 then some (.integer value)
  else none

/-- A decimal as a float. Too large a number is refused; too small a negative
one is minus infinity. -/
def float? (negative : Bool) (digits : List Char) (power : Int) : Option Node :=
  match Number.Binary64.ofDecimal negative (valueOf 10 digits) power with
  | .infinite false => none
  | value => some (.float value)

/-- Reads a number written in decimal. -/
def decimal? (text : List Char) : Option (Node × List Char) :=
  let (negative, unsigned) := sign text
  match unsigned with
  | 'i' :: 'n' :: 'f' :: rest => some (.float (.infinite negative), rest)
  | 'n' :: 'a' :: 'n' :: rest => some (.float .nan, rest)
  | _ => do
    let (before, rest) ← whole? unsigned
    match rest with
    | '.' :: rest =>
      let (after, rest) ← digits? 10 rest
      let (power, rest) ← match rest with
        | 'e' :: rest => exponent? rest
        | 'E' :: rest => exponent? rest
        | _ => some (0, rest)
      let node ← float? negative (before ++ after) (power - after.length)
      return (node, rest)
    | 'e' :: rest | 'E' :: rest =>
      let (power, rest) ← exponent? rest
      let node ← float? negative before power
      return (node, rest)
    | _ =>
      let node ← integer? negative (valueOf 10 before)
      return (node, rest)

/-- Reads a number in another radix, behind its mark. -/
def marked? (radix : Nat) (text : List Char) : Option (Node × List Char) := do
  let (digits, rest) ← digits? radix text
  let node ← integer? false (valueOf radix digits)
  return (node, rest)

/-- Reads a number. -/
def number? : List Char → Option (Node × List Char)
  | '0' :: 'x' :: rest => marked? 16 rest
  | '0' :: 'o' :: rest => marked? 8 rest
  | '0' :: 'b' :: rest => marked? 2 rest
  | text => decimal? text

/-! ## Dates and times -/

/-- Reads a fixed count of digits whose value lies in a range. -/
def fixed? (count low high : Nat) (text : List Char) : Option (Nat × List Char) :=
  let digits := text.take count
  if digits.length = count ∧ digits.all isDecimal then
    let value := valueOf 10 digits
    if low ≤ value ∧ value ≤ high then some (value, text.drop count) else none
  else none

/-- Reads one given character. -/
def mark? (c : Char) : List Char → Option (List Char)
  | d :: rest => if d = c then some rest else none
  | [] => none

/-- The length of a month in the Gregorian calendar. -/
def daysIn (year month : Nat) : Nat :=
  if month = 2 then
    if year % 4 = 0 ∧ (year % 100 ≠ 0 ∨ year % 400 = 0) then 29 else 28
  else if month = 4 ∨ month = 6 ∨ month = 9 ∨ month = 11 then 30
  else 31

/-- Reads a date. -/
def date? (text : List Char) : Option (List Char) := do
  let (year, text) ← fixed? 4 0 9999 text
  let text ← mark? '-' text
  let (month, text) ← fixed? 2 1 12 text
  let text ← mark? '-' text
  let (_, text) ← fixed? 2 1 (daysIn year month) text
  return text

/-- Reads a time of day. -/
def time? (text : List Char) : Option (List Char) := do
  let (_, text) ← fixed? 2 0 23 text
  let text ← mark? ':' text
  let (_, text) ← fixed? 2 0 59 text
  let text ← mark? ':' text
  let (_, text) ← fixed? 2 0 60 text
  match text with
  | '.' :: c :: rest =>
    if isDecimal c then return rest.dropWhile isDecimal else return text
  | _ => return text

/-- Leaves out a distance from universal time, if one is given. -/
def skipOffset (text : List Char) : List Char :=
  let hours (rest : List Char) : Option (List Char) := do
    let (_, rest) ← fixed? 2 0 23 rest
    let rest ← mark? ':' rest
    let (_, rest) ← fixed? 2 0 59 rest
    return rest
  match text with
  | 'Z' :: rest | 'z' :: rest => rest
  | '+' :: rest | '-' :: rest => (hours rest).getD text
  | _ => text

/-- Reads a date, a time, or both with a distance from universal time. -/
def moment? (text : List Char) : Option (List Char) :=
  match date? text with
  | none => time? text
  | some rest =>
    let clock := match rest with
      | 'T' :: clock | 't' :: clock | ' ' :: clock => time? clock
      | _ => none
    match clock with
    | some rest => some (skipOffset rest)
    | none => some rest

/-- Reads a value that starts with a sign or a digit. -/
def quantity? (text : List Char) : Option (Node × List Char) :=
  match moment? text with
  | some rest => some (.moment, rest)
  | none => number? text

end FlashFleet.Toml
