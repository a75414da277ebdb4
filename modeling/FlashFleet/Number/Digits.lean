/-!
# Reading whole numbers

A whole number in a radix, read digit by digit from the left under a limit.
A plus sign may stand before the digits. The first thing that goes wrong
decides which error is given; of a character that is no digit and a number
grown too large at the same character, the former.

## Main results

* `readDigits_eq_ok_iff` — reading succeeds exactly on digits whose value
  stays within the limit, and gives that value.
-/

namespace FlashFleet.Number

/-! ## Digits and their values -/

/-- The value of an ASCII digit or letter as a digit, where the radix has it. -/
def digitValue? (radix : Nat) (c : Char) : Option Nat :=
  let value? :=
    if '0' ≤ c ∧ c ≤ '9' then some (c.toNat - '0'.toNat)
    else if 'a' ≤ c ∧ c ≤ 'z' then some (c.toNat - 'a'.toNat + 10)
    else if 'A' ≤ c ∧ c ≤ 'Z' then some (c.toNat - 'A'.toNat + 10)
    else none
  value?.filter (· < radix)

/-- The value of a text of digits after digits worth `start`, most significant
first. -/
def digitsValue? (radix : Nat) : List Char → Nat → Option Nat
  | [], start => some start
  | c :: rest, start =>
    match digitValue? radix c with
    | none => none
    | some d => digitsValue? radix rest (start * radix + d)

/-! ## Reading under a limit -/

/-- Why a text is no whole number within the limit. -/
inductive DigitFault where
  | empty
  | invalidDigit
  | tooLarge
  deriving DecidableEq, Repr

/-- The wording of a fault. -/
def DigitFault.message : DigitFault → String
  | .empty => "cannot parse integer from empty string"
  | .invalidDigit => "invalid digit found in string"
  | .tooLarge => "number too large to fit in target type"

/-- Reads digits after digits worth `start`, and stops at the first character
that is no digit or that lifts the value above `limit`. -/
def readDigits (radix limit : Nat) : List Char → Nat → Except DigitFault Nat
  | [], start => .ok start
  | c :: rest, start =>
    match digitValue? radix c with
    | none => .error .invalidDigit
    | some d =>
      if start * radix + d ≤ limit then readDigits radix limit rest (start * radix + d)
      else .error .tooLarge

/-- Reads an optional plus sign and at least one digit. -/
def readWhole (radix limit : Nat) : List Char → Except DigitFault Nat
  | [] => .error .empty
  | ['+'] => .error .invalidDigit
  | '+' :: rest => readDigits radix limit rest 0
  | text => readDigits radix limit text 0

/-! ## What reading accepts -/

/-- Digits do not lower the value read so far. -/
theorem le_digitsValue? {radix : Nat} (hradix : 0 < radix) {text : List Char} {start value : Nat}
    (h : digitsValue? radix text start = some value) : start ≤ value := by
  induction text generalizing start with
  | nil => simp_all [digitsValue?]
  | cons c rest ih =>
    simp only [digitsValue?] at h
    split at h
    · simp at h
    · next d _ =>
      have hrest := ih h
      have hgrow : start ≤ start * radix := Nat.le_mul_of_pos_right start hradix
      omega

/-- Reading succeeds exactly on digits whose value stays within the limit. -/
theorem readDigits_eq_ok_iff {radix limit : Nat} (hradix : 0 < radix) {text : List Char}
    {start value : Nat} (hstart : start ≤ limit) :
    readDigits radix limit text start = .ok value ↔
      digitsValue? radix text start = some value ∧ value ≤ limit := by
  induction text generalizing start with
  | nil =>
    simp only [readDigits, digitsValue?, Except.ok.injEq, Option.some.injEq]
    omega
  | cons c rest ih =>
    simp only [readDigits, digitsValue?]
    split
    · simp
    · next d _ =>
      split
      · next hle => exact ih hle
      · next hnot =>
        constructor
        · intro h
          simp at h
        · rintro ⟨hvalue, hle⟩
          have := le_digitsValue? hradix hvalue
          omega

end FlashFleet.Number
