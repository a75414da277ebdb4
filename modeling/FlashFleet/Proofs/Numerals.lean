import FlashFleet.Proofs.Spelling
import Mathlib.Data.List.Induction
/-!
# What is a serial, and what is wrong with what is none

A digit is a character that stands for an amount below the radix, whichever case it has.
Digits amount to a number from the left. A reader that goes on from digit to digit has at any
time read digits that amount to a number within the limit, so that whatever stops it is the
first thing that is wrong: a character that is no digit, or a digit with which the number gets
too large. The plus sign is looked at before, and the mark of radix sixteen before that, with
the blanks around a serial taken off first of all.

## Main results

* `digitValue?_eq_some_iff` — what is a digit, and what it stands for.
* `readDigits_eq_iff`, `readWhole_eq_iff` — what becomes of any text that is read as a number.
* `Serial.parse_decided` — what becomes of any text that is read as a serial.
-/

namespace FlashFleet

namespace Number

variable {radix limit : Nat}

/-! ## Digits -/

/-- The character stands for the amount, which is below the radix. -/
def IsDigit (radix : Nat) (c : Char) (amount : Nat) : Prop :=
  amount < radix ∧ (c = Nat.digitChar amount ∨ c = (Nat.digitChar amount).toUpper)

theorem digitValue?_eq_some_iff (hradix : radix ≤ 16) {c : Char} {amount : Nat} :
    digitValue? radix c = some amount ↔ IsDigit radix c amount := by
  constructor
  · intro h
    have hascii : c.toNat < 128 :=
      Nat.lt_of_le_of_lt (Text.toNat_of_isAlphanum (isAlphanum_of_digitValue? h)).2 (by decide)
    have hall : ∀ code : Fin 128, ∀ amount : Fin 16,
        digitValue? 16 (Char.ofNat code.val) = some amount.val →
          Char.ofNat code.val = Nat.digitChar amount.val ∨
            Char.ofNat code.val = (Nat.digitChar amount.val).toUpper := by
      decide +kernel
    obtain ⟨hvalue, hlt⟩ := Option.filter_eq_some_iff.1 h
    have hlt : amount < radix := of_decide_eq_true hlt
    have hless : amount < 16 := Nat.lt_of_lt_of_le hlt hradix
    have hwide : digitValue? 16 c = some amount :=
      Option.filter_eq_some_iff.2 ⟨hvalue, decide_eq_true hless⟩
    rw [← Char.ofNat_toNat c] at hwide
    have hchar := hall ⟨c.toNat, hascii⟩ ⟨amount, hless⟩ hwide
    rw [Char.ofNat_toNat] at hchar
    exact ⟨hlt, hchar⟩
  · rintro ⟨hlt, hchar⟩
    have hall : ∀ radix : Fin 17, ∀ amount : Fin 16, amount.val < radix.val →
        digitValue? radix.val (Nat.digitChar amount.val).toUpper = some amount.val := by
      decide +kernel
    rcases hchar with rfl | rfl
    · exact digitValue?_digitChar hradix hlt
    · exact hall ⟨radix, by omega⟩ ⟨amount, by omega⟩ hlt

/-- The digits amount to the number. -/
inductive Amounts (radix : Nat) : List Char → Nat → Prop where
  | nil : Amounts radix [] 0
  | snoc {digits : List Char} {value amount : Nat} {c : Char} (h : Amounts radix digits value)
      (hdigit : IsDigit radix c amount) : Amounts radix (digits ++ [c]) (value * radix + amount)

/-! ## Reading digits -/

/-- What becomes of a text that is read digit by digit. -/
inductive Scans (radix limit : Nat) : List Char → Except DigitFault Nat → Prop where
  /-- All of it are digits. -/
  | read {digits : List Char} {value : Nat} (h : Amounts radix digits value)
      (hle : value ≤ limit) : Scans radix limit digits (.ok value)
  /-- What comes after digits is none. -/
  | invalid {digits rest : List Char} {value : Nat} {c : Char} (h : Amounts radix digits value)
      (hle : value ≤ limit) (hnone : ∀ amount, ¬ IsDigit radix c amount) :
      Scans radix limit (digits ++ c :: rest) (.error .invalidDigit)
  /-- With one more digit they amount to too much. -/
  | tooLarge {digits rest : List Char} {value amount : Nat} {c : Char}
      (h : Amounts radix digits value) (hle : value ≤ limit) (hdigit : IsDigit radix c amount)
      (hlarge : limit < value * radix + amount) :
      Scans radix limit (digits ++ c :: rest) (.error .tooLarge)

/-- Digits within the limit are behind the reader. -/
theorem readDigits_append (hpositive : 0 < radix) (hradix : radix ≤ 16) {digits : List Char}
    {value : Nat} (h : Amounts radix digits value) (hle : value ≤ limit) (rest : List Char) :
    readDigits radix limit (digits ++ rest) 0 = readDigits radix limit rest value := by
  induction h generalizing rest with
  | nil => rfl
  | @snoc digits value amount c _ hdigit ih =>
    have hgrows : value ≤ value * radix := Nat.le_mul_of_pos_right value hpositive
    rw [List.append_assoc, ih (by omega), List.singleton_append, readDigits,
      (digitValue?_eq_some_iff hradix).2 hdigit]
    exact if_pos hle

/-- Behind digits within the limit the reader finds what is wrong with the text. -/
theorem scans_readDigits (hradix : radix ≤ 16) (rest : List Char) {digits : List Char}
    {value : Nat} (h : Amounts radix digits value) (hle : value ≤ limit) :
    Scans radix limit (digits ++ rest) (readDigits radix limit rest value) := by
  induction rest generalizing digits value with
  | nil =>
    rw [List.append_nil]
    exact .read h hle
  | cons c rest ih =>
    rw [readDigits]
    cases hdigit : digitValue? radix c with
    | none =>
      refine .invalid h hle fun amount hamount => ?_
      rw [(digitValue?_eq_some_iff hradix).2 hamount] at hdigit
      cases hdigit
    | some amount =>
      have hamount := (digitValue?_eq_some_iff hradix).1 hdigit
      by_cases hwithin : value * radix + amount ≤ limit
      · simp only [if_pos hwithin]
        have hlater := ih (h.snoc hamount) hwithin
        rwa [List.append_assoc] at hlater
      · simp only [if_neg hwithin]
        exact .tooLarge h hle hamount (Nat.lt_of_not_le hwithin)

theorem readDigits_eq_iff (hpositive : 0 < radix) (hradix : radix ≤ 16) {text : List Char}
    {result : Except DigitFault Nat} :
    readDigits radix limit text 0 = result ↔ Scans radix limit text result := by
  constructor
  · rintro rfl
    exact scans_readDigits hradix text .nil (Nat.zero_le limit)
  · intro h
    cases h with
    | read h hle =>
      have hread := readDigits_append hpositive hradix h hle []
      rwa [List.append_nil] at hread
    | @invalid _ _ _ c h hle hnone =>
      have hdigit : digitValue? radix c = none :=
        Option.eq_none_iff_forall_ne_some.2 fun amount hamount =>
          hnone amount ((digitValue?_eq_some_iff hradix).1 hamount)
      rw [readDigits_append hpositive hradix h hle, readDigits, hdigit]
    | tooLarge h hle hdigit hlarge =>
      rw [readDigits_append hpositive hradix h hle, readDigits,
        (digitValue?_eq_some_iff hradix).2 hdigit]
      exact if_neg (Nat.not_le_of_lt hlarge)

/-! ## Signs -/

/-- What becomes of a text that is read as a number, with a plus sign or without. -/
inductive Judged (radix limit : Nat) : List Char → Except DigitFault Nat → Prop where
  | empty : Judged radix limit [] (.error .empty)
  | lone : Judged radix limit ['+'] (.error .invalidDigit)
  | plus {text : List Char} {result : Except DigitFault Nat} (hne : text ≠ [])
      (h : Scans radix limit text result) : Judged radix limit ('+' :: text) result
  | plain {c : Char} {text : List Char} {result : Except DigitFault Nat} (hsign : c ≠ '+')
      (h : Scans radix limit (c :: text) result) : Judged radix limit (c :: text) result

theorem readWhole_eq_iff (hpositive : 0 < radix) (hradix : radix ≤ 16) {text : List Char}
    {result : Except DigitFault Nat} :
    readWhole radix limit text = result ↔ Judged radix limit text result := by
  constructor
  · rintro rfl
    unfold readWhole
    split
    · exact .empty
    · exact .lone
    · next rest hrest => exact .plus hrest ((readDigits_eq_iff hpositive hradix).1 rfl)
    · next hnonempty _ hplus =>
      obtain ⟨c, rest, rfl⟩ := List.exists_cons_of_ne_nil hnonempty
      refine .plain ?_ ((readDigits_eq_iff hpositive hradix).1 rfl)
      rintro rfl
      exact hplus rest rfl
  · intro h
    cases h with
    | empty => rfl
    | lone => rfl
    | plus hne h =>
      rw [← (readDigits_eq_iff hpositive hradix).2 h, readWhole]
      exact hne
    | plain hsign h =>
      rw [← (readDigits_eq_iff hpositive hradix).2 h, readWhole]
      · exact nofun
      · intro heq
        cases heq
        exact hsign rfl
      · intro rest heq
        cases heq
        exact hsign rfl

end Number

/-! ## Blanks and marks -/

/-- The text without the blanks at its ends. -/
structure Text.Bares (text core : List Char) : Prop where
  ends : ∃ before after, text = before ++ core ++ after ∧ (∀ c ∈ before, isBlank c = true) ∧
    ∀ c ∈ after, isBlank c = true
  first : ∀ c ∈ core.head?, isBlank c = false
  last : ∀ c ∈ core.getLast?, isBlank c = false

theorem Text.bares_iff {text core : List Char} : Bares text core ↔ core = trim text := by
  have hhead : ∀ text : List Char, ∀ c ∈ (text.dropWhile isBlank).head?, isBlank c = false := by
    intro text c hc
    have hnot := List.head?_dropWhile_not isBlank text
    rw [Option.mem_def.1 hc] at hnot
    exact hnot
  constructor
  · rintro ⟨⟨before, after, rfl, hbefore, hafter⟩, hfirst, hlast⟩
    exact (trim_of_ends hbefore hfirst hlast hafter).symm
  · rintro rfl
    refine ⟨exists_trim text, ?_, ?_⟩
    · -- What trimming the end leaves begins as the text does, or is nothing.
      intro c hc
      obtain ⟨rest, hrest⟩ : (text.dropWhile isBlank).reverse.dropWhile isBlank <:+
          (text.dropWhile isBlank).reverse := List.dropWhile_suffix isBlank
      have hbegins := congrArg List.reverse hrest
      rw [List.reverse_append, List.reverse_reverse] at hbegins
      have hsame : (trim text).head? = some c := hc
      refine hhead text c ?_
      rw [← hbegins, ← trim, List.head?_append, hsame]
      rfl
    · intro c hc
      rw [trim, List.getLast?_reverse] at hc
      exact hhead _ c hc

namespace Serial

/-- Whether the text has the mark of radix sixteen, and what is behind it. -/
inductive Marks : List Char → (hexadecimal : Bool) → List Char → Prop where
  | hexadecimal {mark : Char} {digits : List Char} (hmark : mark = 'x' ∨ mark = 'X') :
      Marks ('0' :: mark :: digits) true digits
  | decimal {text : List Char}
      (h : ∀ mark digits, text = '0' :: mark :: digits → mark ≠ 'x' ∧ mark ≠ 'X') :
      Marks text false text

theorem marks_iff {text digits : List Char} {hexadecimal : Bool} :
    Marks text hexadecimal digits ↔ spelling text = (hexadecimal, digits) := by
  constructor
  · intro h
    cases h with
    | hexadecimal hmark => rcases hmark with rfl | rfl <;> rfl
    | decimal h =>
      unfold spelling
      split
      · exact absurd rfl (h _ _ rfl).1
      · exact absurd rfl (h _ _ rfl).2
      · rfl
  · intro h
    unfold spelling at h
    split at h
    · cases h
      exact .hexadecimal (.inl rfl)
    · cases h
      exact .hexadecimal (.inr rfl)
    · next hlower hupper =>
      cases h
      refine .decimal fun mark digits heq => ⟨?_, ?_⟩
      · rintro rfl
        exact hlower digits heq
      · rintro rfl
        exact hupper digits heq

/-! ## Serials -/

/-- What becomes of a text whose core has the mark of radix sixteen, or has it not. -/
structure Decided (text : String) (hexadecimal : Bool) (digits : List Char) : Prop where
  /-- It is read as what its digits amount to. -/
  read : ∀ serial, parse text = .ok serial ↔
    Number.Judged (if hexadecimal then 16 else 10) 4294967295 digits (.ok serial.toNat)
  /-- Else it is refused for the first thing that is wrong with its digits. -/
  refused : ∀ fault, parse text = .error fault ↔ fault.hexadecimal = hexadecimal ∧
    Number.Judged (if hexadecimal then 16 else 10) 4294967295 digits (.error fault.cause)
  /-- The message begins with how the serial was written. -/
  message : ∀ fault, parse text = .error fault → fault.message =
    (if hexadecimal then "invalid hex serial: " else "invalid serial: ") ++ fault.cause.message

theorem decided_of_marks {text : String} {core digits : List Char} {hexadecimal : Bool}
    (hcore : Text.Bares text.toList core) (hmarks : Marks core hexadecimal digits) :
    Decided text hexadecimal digits := by
  have hradix : 0 < radix hexadecimal ∧ radix hexadecimal ≤ 16 := by cases hexadecimal <;> decide
  have hjudged : ∀ result, Number.readWhole (radix hexadecimal) limit digits = result ↔
      Number.Judged (if hexadecimal then 16 else 10) 4294967295 digits result :=
    fun _ => Number.readWhole_eq_iff hradix.1 hradix.2
  have hparse : parse text = parseTrimmed core := by rw [parse, Text.bares_iff.1 hcore]
  have hspelling := marks_iff.1 hmarks
  have hrefused : ∀ fault, parse text = .error fault ↔ fault.hexadecimal = hexadecimal ∧
      Number.Judged (if hexadecimal then 16 else 10) 4294967295 digits (.error fault.cause) := by
    intro fault
    rw [hparse, parseTrimmed_eq_error_iff, hspelling, hjudged]
  refine { read := fun serial => ?_, refused := hrefused, message := fun fault h => ?_ }
  · rw [hparse, parseTrimmed_eq_ok_iff_readWhole, hspelling, hjudged]
  · rw [Fault.message, ((hrefused fault).1 h).1]

/-- Between its blanks a text either has the mark of radix sixteen or has it not, and that and
the digits behind it decide whether it is read as a serial, as which one, or else what is wrong
with it. Every serial is read as it is written in either radix, with blanks around it. -/
theorem parse_decided :
    (∀ text : String, ∃ core hexadecimal digits,
      Text.Bares text.toList core ∧ Marks core hexadecimal digits) ∧
      (∀ (text : String) (core : List Char) (hexadecimal : Bool) (digits : List Char),
        Text.Bares text.toList core → Marks core hexadecimal digits →
          Decided text hexadecimal digits) ∧
      ∀ (serial : Serial) (before after : List Char), (∀ c ∈ before, Text.isBlank c = true) →
        (∀ c ∈ after, Text.isBlank c = true) →
          parse (String.ofList (before ++ Nat.toDigits 10 serial.toNat ++ after)) = .ok serial ∧
          parse (String.ofList (before ++ '0' :: 'x' :: Nat.toDigits 16 serial.toNat ++ after)) =
            .ok serial := by
  refine ⟨fun text => ⟨_, _, _, Text.bares_iff.2 rfl, marks_iff.2 rfl⟩,
    fun _ _ _ _ => decided_of_marks, ?_⟩
  intro serial before after hbefore hafter
  obtain ⟨hdecimal, hhexadecimal⟩ := written_toDigits serial
  exact ⟨parse_eq_ok_iff.2
      ⟨_, _, _, String.toList_ofList, hbefore, hafter, hdecimal.spelled⟩,
    parse_eq_ok_iff.2
      ⟨_, _, _, String.toList_ofList, hbefore, hafter, hhexadecimal.spelled⟩⟩

/-- A number that has got too large is refused for that, whatever comes behind it. -/
example : parse " 0xFFFFFFFF0z " = .error ⟨true, .tooLarge⟩ := by decide +kernel

end Serial

end FlashFleet
