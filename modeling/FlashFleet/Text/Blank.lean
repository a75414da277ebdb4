/-!
# Blank characters

The characters with the Unicode property White_Space, and the removal of
blanks from both ends of a text.
-/

namespace FlashFleet.Text

/-- The Unicode property White_Space: the line and tab controls, the space,
the next-line control, the no-break spaces, and the spaces and separators of
the general punctuation block. -/
def isBlank (c : Char) : Bool :=
  (0x09 ≤ c.toNat && c.toNat ≤ 0x0D) || c.toNat == 0x20 || c.toNat == 0x85 || c.toNat == 0xA0 ||
  c.toNat == 0x1680 || (0x2000 ≤ c.toNat && c.toNat ≤ 0x200A) || c.toNat == 0x2028 ||
  c.toNat == 0x2029 || c.toNat == 0x202F || c.toNat == 0x205F || c.toNat == 0x3000

/-- The text without the blanks at its two ends. -/
def trim (text : List Char) : List Char :=
  ((text.dropWhile isBlank).reverse.dropWhile isBlank).reverse

end FlashFleet.Text
