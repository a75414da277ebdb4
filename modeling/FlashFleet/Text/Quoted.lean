import FlashFleet.Text.Formless
/-!
# Quoted text

A text between double quotes in which every character can be told from its
neighbours: the quote, the backslash and the common controls are written with
a backslash, and a character without a form of its own is written as its
number in hexadecimal, `\u` and braces around it.
-/

namespace FlashFleet.Text

/-- The digits of a number in lower-case hexadecimal. -/
def hexDigits (n : Nat) : List Char := Nat.toDigits 16 n

/-- A visible ASCII character that quoting leaves alone. -/
def isPlain (c : Char) : Bool :=
  0x20 ≤ c.toNat && c.toNat ≤ 0x7E && c != '"' && c != '\\'

/-- One character as it stands between the quotes. -/
def quoteChar (c : Char) : List Char :=
  if isPlain c then [c]
  else match c with
    | '"' => ['\\', '"']
    | '\\' => ['\\', '\\']
    | '\n' => ['\\', 'n']
    | '\r' => ['\\', 'r']
    | '\t' => ['\\', 't']
    | '\x00' => ['\\', '0']
    | c =>
      if c.toNat ≤ 0x7F || isFormless c then
        ['\\', 'u', '\x7b'] ++ hexDigits c.toNat ++ ['\x7d']
      else [c]

/-- The text between double quotes. -/
def quote (text : String) : String :=
  String.ofList ('"' :: text.toList.flatMap quoteChar ++ ['"'])

/-- Quoted texts in brackets, a comma and a space between neighbours. -/
def quoteList (texts : List String) : String :=
  "[" ++ String.intercalate ", " (texts.map quote) ++ "]"

end FlashFleet.Text
