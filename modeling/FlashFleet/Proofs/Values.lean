import FlashFleet.Proofs.Spelling
import FlashFleet.Toml.Document
import Mathlib.Data.List.Forall2
/-!
# Ways to write a value

A text is written between quotes, each character as it is or by one of its escapes; only the
quote, the backslash and the controls need one. A whole number is written in decimal without
zeros before it, alone or behind a plus, or behind the mark of another radix; underscores may
stand between its digits. Whatever follows a value on its line starts with a blank, a comment
or the line break, and what was written is read back up to there.

## Main results

* `letter_letter` — every character can be written.
* `basicBody_of_letters` — a text is read back, however its characters were written.
* `value?_of_written` — so is every value.
-/

namespace FlashFleet.Toml

/-! ## Characters of a text -/

/-- The character needs no escape: it is neither the quote nor the backslash, and no control
but the tab. -/
def NeedsNoEscape (c : Char) : Prop :=
  c = '\t' ∨ (0x20 ≤ c.toNat ∧ c ≠ '"' ∧ c ≠ '\\' ∧ c.toNat ≠ 0x7F)

/-- The text is a way to write the character between quotes. -/
inductive Letter : Char → List Char → Prop where
  | plain {c : Char} (h : NeedsNoEscape c) : Letter c [c]
  | backspace : Letter '\x08' ['\\', 'b']
  | tab : Letter '\t' ['\\', 't']
  | lineFeed : Letter '\n' ['\\', 'n']
  | formFeed : Letter '\x0c' ['\\', 'f']
  | carriageReturn : Letter '\r' ['\\', 'r']
  | quote : Letter '"' ['\\', '"']
  | backslash : Letter '\\' ['\\', '\\']
  | four {c : Char} {digits : List Char} (hlength : digits.length = 4)
      (h : Number.Writes 16 digits c.toNat) : Letter c ('\\' :: 'u' :: digits)
  | eight {c : Char} {digits : List Char} (hlength : digits.length = 8)
      (h : Number.Writes 16 digits c.toNat) : Letter c ('\\' :: 'U' :: digits)

theorem isBasicChar_of_needsNoEscape {c : Char} (h : NeedsNoEscape c) :
    isBasicChar c = true ∧ c ≠ '"' ∧ c ≠ '\\' := by
  rcases h with rfl | ⟨hlow, hquote, hbackslash, hdelete⟩
  · decide
  · refine ⟨?_, hquote, hbackslash⟩
    have hne : c.toNat ≠ 0x22 ∧ c.toNat ≠ 0x5C := by
      constructor
      · exact fun heq => hquote (Char.toNat_inj.1 heq)
      · exact fun heq => hbackslash (Char.toNat_inj.1 heq)
    by_cases hspace : c.toNat = 0x20
    · rw [Char.toNat_inj.1 (hspace.trans (by decide : 0x20 = ' '.toNat))]
      decide
    · have hrange : c.toNat = 0x21 ∨ (0x23 ≤ c.toNat ∧ c.toNat ≤ 0x5B) ∨
          (0x5D ≤ c.toNat ∧ c.toNat ≤ 0x7E) ∨ 0x80 ≤ c.toNat := by omega
      rcases hrange with h | h | h | h <;> simp [isBasicChar, h]

/-- The number of a character in digits is read back as the character. -/
theorem scalar?_of_writes {c : Char} {digits : List Char} (h : Number.Writes 16 digits c.toNat)
    (rest : List Char) : scalar? digits.length (digits ++ rest) = some (c, rest) := by
  have hvalid : c.toNat.isValidChar := c.valid
  simp only [scalar?, List.take_left, List.drop_left, h.2, if_pos, hvalid, Char.ofNat_toNat]

/-- A text is read back, however its characters were written. -/
theorem basicBody_of_letters {content : List Char} {pieces : List (List Char)}
    (h : List.Forall₂ Letter content pieces) (rest : List Char) :
    basicBody (pieces.flatten ++ '"' :: rest) = some (content, rest) := by
  induction h with
  | nil => rw [List.flatten_nil, List.nil_append, basicBody]
  | @cons c piece content pieces hletter _ ih =>
    rw [List.flatten_cons, List.append_assoc]
    have hescaped : ∀ escape : List Char,
        escape? (escape ++ (pieces.flatten ++ '"' :: rest)) =
            some (c, pieces.flatten ++ '"' :: rest) →
          basicBody ('\\' :: escape ++ (pieces.flatten ++ '"' :: rest)) =
            some (c :: content, rest) := by
      intro escape hescape
      rw [List.cons_append, basicBody]
      split
      · next hnone =>
        rw [hescape] at hnone
        cases hnone
      · next hread =>
        rw [hescape] at hread
        cases hread
        rw [ih]
        rfl
    cases hletter with
    | plain h =>
      obtain ⟨hbasic, hquote, hbackslash⟩ := isBasicChar_of_needsNoEscape h
      rw [List.singleton_append, basicBody]
      · rw [if_pos hbasic, ih]
        rfl
      · exact hquote
      · exact hbackslash
    | four hlength h =>
      refine hescaped _ ?_
      rw [List.cons_append, escape?, ← hlength]
      exact scalar?_of_writes h _
    | eight hlength h =>
      refine hescaped _ ?_
      rw [List.cons_append, escape?, ← hlength]
      exact scalar?_of_writes h _
    | _ => exact hescaped _ rfl

instance (c : Char) : Decidable (NeedsNoEscape c) :=
  inferInstanceAs (Decidable (_ ∨ _))

/-- A character as it is, or its number in four digits where it needs an escape. -/
def letter (c : Char) : List Char :=
  if NeedsNoEscape c then [c]
  else ['\\', 'u', '0', '0', Nat.digitChar (c.toNat / 16), Nat.digitChar (c.toNat % 16)]

/-- Every character can be written. -/
theorem letter_letter (c : Char) : Letter c (letter c) := by
  unfold letter
  split
  · next h => exact .plain h
  · next h =>
    have hlow : c.toNat < 128 := by
      by_contra hhigh
      refine h (.inr ⟨by omega, ?_, ?_, by omega⟩)
      · rintro rfl
        exact hhigh (by decide)
      · rintro rfl
        exact hhigh (by decide)
    refine .four rfl ⟨List.cons_ne_nil _ _, ?_⟩
    have hhigher := Number.digitValue?_digitChar (le_refl 16) (by omega : c.toNat / 16 < 16)
    have hlower := Number.digitValue?_digitChar (le_refl 16) (by omega : c.toNat % 16 < 16)
    have hzero : Number.digitValue? 16 '0' = some 0 := by decide
    simp only [Number.digitsValue?, hzero, hhigher, hlower, Option.some.injEq]
    omega

/-! ## Whole numbers -/

/-- The digits that follow another, with single underscores before any of them. -/
inductive Spaced : List Char → List Char → Prop where
  | nil : Spaced [] []
  | digit {digits text : List Char} (c : Char) (h : Spaced digits text) :
      Spaced (c :: digits) (c :: text)
  | underscore {digits text : List Char} (c : Char) (h : Spaced digits text) :
      Spaced (c :: digits) ('_' :: c :: text)

/-- The text is a way to write the whole number: in decimal, where only the zero starts with a
zero and a plus may stand before it, or behind the mark of another radix. -/
inductive Whole : Nat → List Char → Prop where
  | decimal {value : Nat} {sign digits text : List Char} {c : Char}
      (hsign : sign = [] ∨ sign = ['+']) (h : Number.Writes 10 (c :: digits) value)
      (hzero : c = '0' → digits = []) (htext : Spaced digits text) :
      Whole value (sign ++ c :: text)
  | marked {value radix : Nat} {mark c : Char} {digits text : List Char}
      (hmark : mark = 'x' ∧ radix = 16 ∨ mark = 'o' ∧ radix = 8 ∨ mark = 'b' ∧ radix = 2)
      (h : Number.Writes radix (c :: digits) value) (htext : Spaced digits text) :
      Whole value ('0' :: mark :: c :: text)

/-- What may follow a value on its line: a blank, a comment, or the end of the line. -/
def Stops (rest : List Char) : Prop :=
  ∀ c, rest.head? = some c → c ∈ [' ', '\t', '#', '\n', '\r']

theorem isAlphanum_of_isDigitOf {radix : Nat} {c : Char} (h : isDigitOf radix c = true) :
    c.isAlphanum = true := by
  obtain ⟨d, hd⟩ := Option.isSome_iff_exists.1 h
  exact Number.isAlphanum_of_digitValue? hd

/-- Nothing that may follow a value is a digit or stands between digits. -/
theorem Stops.not_digit {rest : List Char} (h : Stops rest) {c : Char} (hc : rest.head? = some c)
    (radix : Nat) : isDigitOf radix c = false ∧ c ≠ '_' := by
  have hmem := h c hc
  constructor
  · by_contra hdigit
    have halphanum := isAlphanum_of_isDigitOf (eq_true_of_ne_false hdigit)
    revert hmem halphanum
    simp only [List.mem_cons, List.not_mem_nil, or_false]
    rintro (rfl | rfl | rfl | rfl | rfl) <;> decide
  · rintro rfl
    revert hmem
    decide

theorem isDigitOf_of_writes {radix value : Nat} {digits : List Char}
    (h : Number.Writes radix digits value) : ∀ c ∈ digits, isDigitOf radix c = true := by
  intro c hc
  obtain ⟨d, hd⟩ := Number.digitValue?_of_mem h.2 c hc
  rw [isDigitOf, hd]
  rfl

/-- Digits are read back, with or without underscores between them. -/
theorem moreDigits_of_spaced {radix : Nat} {digits text rest : List Char}
    (htext : Spaced digits text) (hdigits : ∀ c ∈ digits, isDigitOf radix c = true)
    (hrest : Stops rest) : moreDigits radix (text ++ rest) = (digits, rest) := by
  induction htext with
  | nil =>
    rw [List.nil_append]
    cases rest with
    | nil => rfl
    | cons c more =>
      obtain ⟨hdigit, hunderscore⟩ := hrest.not_digit rfl radix
      rw [moreDigits]
      · rw [hdigit]
        rfl
      · exact fun _ _ heq _ => hunderscore heq
  | digit c h ih =>
    obtain ⟨hc, hdigits⟩ := List.forall_mem_cons.1 hdigits
    have hunderscore : c ≠ '_' := by
      rintro rfl
      exact absurd (isAlphanum_of_isDigitOf hc) (by decide)
    rw [List.cons_append, moreDigits]
    · rw [if_pos hc, ih hdigits]
    · exact fun _ _ heq _ => hunderscore heq
  | underscore c h ih =>
    obtain ⟨hc, hdigits⟩ := List.forall_mem_cons.1 hdigits
    rw [List.cons_append, List.cons_append, moreDigits, if_pos hc, ih hdigits]

theorem spaced_self (digits : List Char) : Spaced digits digits := by
  induction digits with
  | nil => exact .nil
  | cons c rest ih => exact .digit c ih

/-- The digits of a number start with a zero only if it is zero. -/
theorem toDigits_head {value : Nat} {digits : List Char}
    (h : Nat.toDigits 10 value = '0' :: digits) : digits = [] := by
  have hpositive : ∀ value digits, 0 < value → Nat.toDigits 10 value ≠ '0' :: digits := by
    intro value
    induction value using Nat.strongRecOn with
    | ind value ih =>
      intro digits hvalue heq
      by_cases hsmall : value < 10
      · rw [Nat.toDigits_of_lt_base hsmall] at heq
        have hdigit := Number.digitValue?_digitChar (by decide : 10 ≤ 16) hsmall
        rw [(List.cons.inj heq).1] at hdigit
        have hzero : Number.digitValue? 10 '0' = some 0 := by decide
        rw [hzero] at hdigit
        cases hdigit
        exact Nat.lt_irrefl 0 hvalue
      · rw [Nat.toDigits_of_base_le (by decide) (Nat.le_of_not_lt hsmall)] at heq
        cases hfront : Nat.toDigits 10 (value / 10) with
        | nil => exact Nat.toDigits_ne_nil hfront
        | cons c front =>
          rw [hfront, List.cons_append] at heq
          rw [(List.cons.inj heq).1] at hfront
          exact ih (value / 10) (by omega) front (by omega) hfront
  rcases Nat.eq_zero_or_pos value with rfl | hvalue
  · exact ((List.cons.inj h).2).symm
  · exact absurd h (hpositive value digits hvalue)

/-- Every whole number is written by its decimal digits. -/
theorem whole_toDigits (value : Nat) : Whole value (Nat.toDigits 10 value) := by
  have hwrites := Number.writes_toDigits (by decide) (by decide : 10 ≤ 16) value
  cases hdigits : Nat.toDigits 10 value with
  | nil => exact absurd hdigits Nat.toDigits_ne_nil
  | cons c digits =>
    rw [hdigits] at hwrites
    refine .decimal (.inl rfl) hwrites ?_ (spaced_self digits)
    rintro rfl
    exact toDigits_head hdigits

theorem digits?_of_spaced {radix value : Nat} {c : Char} {digits text rest : List Char}
    (h : Number.Writes radix (c :: digits) value) (htext : Spaced digits text)
    (hrest : Stops rest) : digits? radix (c :: text ++ rest) = some (c :: digits, rest) := by
  obtain ⟨hc, hdigits⟩ := List.forall_mem_cons.1 (isDigitOf_of_writes h)
  rw [List.cons_append, digits?, if_pos hc, moreDigits_of_spaced htext hdigits hrest]

/-! ## No date and no time -/

/-- Behind any digits at its start the text goes on with neither of the two marks of dates and
times. -/
def Undated (text : List Char) : Prop :=
  ∀ digits c after, text = digits ++ c :: after → (∀ d ∈ digits, isDecimal d = true) →
    c ≠ '-' ∧ c ≠ ':'

/-- Digits of a fixed count are those at the start. -/
theorem digits_of_fixed? {count low high value : Nat} {text rest : List Char}
    (h : fixed? count low high text = some (value, rest)) :
    ∃ digits, text = digits ++ rest ∧ ∀ d ∈ digits, isDecimal d = true := by
  simp only [fixed?] at h
  split at h
  · next hdigits =>
    split at h
    · cases h
      exact ⟨text.take count, (List.take_append_drop count text).symm,
        List.all_eq_true.1 hdigits.2⟩
    · cases h
  · cases h

theorem eq_cons_of_mark? {c : Char} {text rest : List Char} (h : mark? c text = some rest) :
    text = c :: rest := by
  unfold mark? at h
  split at h
  · split at h
    · next heq =>
      cases h
      rw [heq]
    · cases h
  · cases h

theorem date?_of_undated {text : List Char} (h : Undated text) : date? text = none := by
  rw [Option.eq_none_iff_forall_ne_some]
  intro rest hdate
  obtain ⟨⟨year, after⟩, hyear, hdate⟩ := Option.bind_eq_some_iff.1 hdate
  obtain ⟨after, hmark, _⟩ := Option.bind_eq_some_iff.1 hdate
  obtain ⟨digits, hsplit, hdigits⟩ := digits_of_fixed? hyear
  rw [eq_cons_of_mark? hmark] at hsplit
  exact (h digits '-' after hsplit hdigits).1 rfl

theorem time?_of_undated {text : List Char} (h : Undated text) : time? text = none := by
  rw [Option.eq_none_iff_forall_ne_some]
  intro rest htime
  obtain ⟨⟨hour, after⟩, hhour, htime⟩ := Option.bind_eq_some_iff.1 htime
  obtain ⟨after, hmark, _⟩ := Option.bind_eq_some_iff.1 htime
  obtain ⟨digits, hsplit, hdigits⟩ := digits_of_fixed? hhour
  rw [eq_cons_of_mark? hmark] at hsplit
  exact (h digits ':' after hsplit hdigits).2 rfl

theorem quantity?_of_undated {text : List Char} (h : Undated text) :
    quantity? text = number? text := by
  simp only [quantity?, moment?, date?_of_undated h, time?_of_undated h]

/-- Text without the marks of dates and times is undated, whatever follows on its line. -/
theorem undated_append {text rest : List Char} (htext : ∀ c ∈ text, c ≠ '-' ∧ c ≠ ':')
    (hrest : Stops rest) : Undated (text ++ rest) := by
  induction text with
  | nil =>
    intro digits c after hsplit hdigits
    rw [List.nil_append] at hsplit
    cases digits with
    | nil =>
      have hmem := hrest c (by rw [hsplit]; rfl)
      constructor
      · rintro rfl
        exact absurd hmem (by decide)
      · rintro rfl
        exact absurd hmem (by decide)
    | cons d more =>
      have hfirst := (hrest.not_digit (c := d) (by rw [hsplit]; rfl) 10).1
      rw [← isDecimal, hdigits d List.mem_cons_self] at hfirst
      cases hfirst
  | cons t more ih =>
    obtain ⟨ht, hmore⟩ := List.forall_mem_cons.1 htext
    intro digits c after hsplit hdigits
    cases digits with
    | nil =>
      cases hsplit
      exact ht
    | cons d digits =>
      obtain ⟨_, hsplit⟩ := List.cons.inj hsplit
      exact ih hmore digits c after hsplit (List.forall_mem_cons.1 hdigits).2

/-! ## Values -/

/-- The text is a way to write the value: a whole number, a text, or a truth value. -/
inductive Node.Written : Node → List Char → Prop where
  | integer {value : Nat} {text : List Char} (hlimit : value ≤ 9223372036854775807)
      (h : Whole value text) : Written (.integer value) text
  | text {content : String} {pieces : List (List Char)}
      (h : List.Forall₂ Letter content.toList pieces) :
      Written (.text content) ('"' :: pieces.flatten ++ ['"'])
  | yes : Written (.boolean true) ['t', 'r', 'u', 'e']
  | no : Written (.boolean false) ['f', 'a', 'l', 's', 'e']

/-- The digits of a number, its underscores and its signs are not the marks of dates and
times. -/
theorem Whole.unmarked {value : Nat} {text : List Char} (h : Whole value text) :
    ∀ c ∈ text, c ≠ '-' ∧ c ≠ ':' := by
  have hplain : ∀ c : Char, c.isAlphanum = true ∨ c = '_' ∨ c = '+' → c ≠ '-' ∧ c ≠ ':' := by
    rintro c (halphanum | rfl | rfl)
    · constructor
      · rintro rfl
        exact absurd halphanum (by decide)
      · rintro rfl
        exact absurd halphanum (by decide)
    · decide
    · decide
  have hspaced : ∀ {digits text : List Char}, Spaced digits text →
      (∀ c ∈ digits, c.isAlphanum = true) → ∀ c ∈ text, c ≠ '-' ∧ c ≠ ':' := by
    intro digits text hspaced hdigits
    induction hspaced with
    | nil => exact List.forall_mem_nil _
    | digit c _ ih =>
      obtain ⟨hc, hdigits⟩ := List.forall_mem_cons.1 hdigits
      exact List.forall_mem_cons.2 ⟨hplain c (.inl hc), ih hdigits⟩
    | underscore c _ ih =>
      obtain ⟨hc, hdigits⟩ := List.forall_mem_cons.1 hdigits
      exact List.forall_mem_cons.2
        ⟨by decide, List.forall_mem_cons.2 ⟨hplain c (.inl hc), ih hdigits⟩⟩
  cases h with
  | decimal hsign h _ htext =>
    have hdigits := hspaced (.digit _ htext) h.isAlphanum
    refine List.forall_mem_append.2 ⟨?_, hdigits⟩
    rcases hsign with rfl | rfl
    · exact List.forall_mem_nil _
    · decide
  | marked hmark h htext =>
    have hdigits := hspaced (.digit _ htext) h.isAlphanum
    refine List.forall_mem_cons.2 ⟨by decide, List.forall_mem_cons.2 ⟨?_, hdigits⟩⟩
    rcases hmark with ⟨rfl, _⟩ | ⟨rfl, _⟩ | ⟨rfl, _⟩ <;> decide

theorem integer?_of_le {value : Nat} (h : value ≤ 9223372036854775807) :
    integer? false value = some (.integer value) := by
  have hrange : (-9223372036854775808 : Int) ≤ value ∧ (value : Int) ≤ 9223372036854775807 := by
    omega
  simp only [integer?, Bool.false_eq_true, if_false, if_pos hrange]

theorem valueOf_of_writes {radix value : Nat} {digits : List Char}
    (h : Number.Writes radix digits value) : valueOf radix digits = value := by
  rw [valueOf, h.2, Option.getD_some]

/-- A decimal digit is none of the other characters a number may start with. -/
theorem ne_of_isDecimal {c d : Char} (h : isDecimal c = true) (hd : isDecimal d = false) :
    c ≠ d := by
  rintro rfl
  rw [h] at hd
  cases hd

/-- The digits before a point, of a number that has none. -/
theorem whole?_of_spaced {value : Nat} {c : Char} {digits text rest : List Char}
    (h : Number.Writes 10 (c :: digits) value) (hzero : c = '0' → digits = [])
    (htext : Spaced digits text) (hrest : Stops rest) :
    whole? (c :: text ++ rest) = some (c :: digits, rest) := by
  by_cases hc : c = '0'
  · obtain rfl := hzero hc
    cases htext
    rw [hc]
    rfl
  · rw [List.cons_append, whole?]
    · exact digits?_of_spaced h htext hrest
    · exact fun _ heq => hc (List.cons.inj heq).1

theorem decimal?_of_spaced {value : Nat} {sign : List Char} {c : Char}
    {digits text rest : List Char} (hsign : sign = [] ∨ sign = ['+'])
    (h : Number.Writes 10 (c :: digits) value) (hzero : c = '0' → digits = [])
    (htext : Spaced digits text) (hlimit : value ≤ 9223372036854775807) (hrest : Stops rest) :
    decimal? (sign ++ (c :: text ++ rest)) = some (.integer value, rest) := by
  have hc : isDecimal c = true := (isDigitOf_of_writes h) c List.mem_cons_self
  have hunsigned : Toml.sign (sign ++ (c :: text ++ rest)) = (false, c :: text ++ rest) := by
    rcases hsign with rfl | rfl
    · rw [List.nil_append, List.cons_append, Toml.sign]
      · exact fun _ heq => ne_of_isDecimal hc (by decide) (List.cons.inj heq).1
      · exact fun _ heq => ne_of_isDecimal hc (by decide) (List.cons.inj heq).1
    · rfl
  have hwhole := whole?_of_spaced h hzero htext hrest
  simp only [decimal?, hunsigned]
  split
  · next heq => exact absurd (List.cons.inj heq).1 (ne_of_isDecimal hc (by decide))
  · next heq => exact absurd (List.cons.inj heq).1 (ne_of_isDecimal hc (by decide))
  · rw [hwhole]
    simp only [bind, Option.bind]
    split
    · exact absurd (hrest '.' rfl) (by decide)
    · exact absurd (hrest 'e' rfl) (by decide)
    · exact absurd (hrest 'E' rfl) (by decide)
    · rw [valueOf_of_writes h, integer?_of_le hlimit]
      rfl

/-- A whole number is read back, however it was written. -/
theorem number?_of_whole {value : Nat} {text rest : List Char} (h : Whole value text)
    (hlimit : value ≤ 9223372036854775807) (hrest : Stops rest) :
    number? (text ++ rest) = some (.integer value, rest) := by
  cases h with
  | @marked radix mark c digits text hmark h htext =>
    have hread : marked? radix (c :: text ++ rest) = some (.integer value, rest) := by
      simp only [marked?, digits?_of_spaced h htext hrest, valueOf_of_writes h,
        integer?_of_le hlimit, bind, Option.bind, pure]
    rcases hmark with ⟨rfl, rfl⟩ | ⟨rfl, rfl⟩ | ⟨rfl, rfl⟩
    · exact hread
    · exact hread
    · exact hread
  | @decimal sign digits text c hsign h hzero htext =>
    have hread := decimal?_of_spaced hsign h hzero htext hlimit hrest
    -- Behind a zero at the start there is no mark, since nothing but the zero is written so.
    have hunmarked : ∀ mark ∉ [' ', '\t', '#', '\n', '\r'], ∀ more,
        sign ++ (c :: text ++ rest) ≠ '0' :: mark :: more := by
      intro mark hmark more heq
      rcases hsign with rfl | rfl
      · obtain ⟨hc, hmore⟩ := List.cons.inj heq
        obtain rfl := hzero hc
        cases htext
        have hfirst : rest = mark :: more := hmore
        exact hmark (hrest mark (by rw [hfirst]; rfl))
      · cases heq
    rw [List.append_assoc, number?]
    · exact hread
    · exact hunmarked 'x' (by decide)
    · exact hunmarked 'o' (by decide)
    · exact hunmarked 'b' (by decide)

/-- A whole number starts with a plus or a decimal digit. -/
theorem Whole.head {value : Nat} {text : List Char} (h : Whole value text) :
    ∃ c more, text = c :: more ∧ (c = '+' ∨ isDecimal c = true) := by
  cases h with
  | @decimal sign digits text c hsign h _ _ =>
    have hc : isDecimal c = true := (isDigitOf_of_writes h) c List.mem_cons_self
    rcases hsign with rfl | rfl
    · exact ⟨c, text, rfl, .inr hc⟩
    · exact ⟨'+', c :: text, rfl, .inl rfl⟩
  | marked => exact ⟨'0', _, rfl, .inr (by decide)⟩

theorem Letter.head {c : Char} {piece : List Char} (h : Letter c piece) :
    ∃ first more, piece = first :: more ∧ first ≠ '"' := by
  cases h with
  | plain h => exact ⟨c, [], rfl, (isBasicChar_of_needsNoEscape h).2.1⟩
  | _ => exact ⟨'\\', _, rfl, by decide⟩

/-- A text between quotes is read back. Its first two quotes are not followed by a third,
which would have it go on over several lines. -/
theorem text?_of_letters {content : List Char} {pieces : List (List Char)} {rest : List Char}
    (h : List.Forall₂ Letter content pieces) (hrest : Stops rest) :
    text? ('"' :: pieces.flatten ++ ['"'] ++ rest) = some (String.ofList content, rest) := by
  have hbody := basicBody_of_letters h rest
  rw [List.append_assoc, List.singleton_append, List.cons_append, text?]
  · rw [hbody]
    rfl
  · intro more heq
    cases h with
    | nil =>
      obtain ⟨_, hmore⟩ := List.cons.inj heq
      have hfirst : rest = '"' :: more := hmore
      exact absurd (hrest '"' (by rw [hfirst]; rfl)) (by decide)
    | cons hletter _ =>
      obtain ⟨first, more, rfl, hquote⟩ := hletter.head
      exact hquote (List.cons.inj heq).1

/-- A value is read back, whatever follows on its line. -/
theorem value?_of_written {node : Node} {text rest : List Char} (h : node.Written text)
    (hrest : Stops rest) (depth : Nat) : value? depth (text ++ rest) = some (node, rest) := by
  cases h with
  | @integer value text hlimit h =>
    have hquantity : quantity? (text ++ rest) = some (.integer value, rest) := by
      rw [quantity?_of_undated (undated_append h.unmarked hrest)]
      exact number?_of_whole h hlimit hrest
    obtain ⟨c, more, rfl, hc⟩ := h.head
    have hne : ∀ d, d ≠ '+' → isDecimal d = false → c ≠ d := by
      rintro d hplus hd rfl
      rcases hc with hc | hc
      · exact hplus hc
      · rw [hd] at hc
        cases hc
    rw [← hquantity, List.cons_append]
    unfold value?
    split <;>
      first
      | rfl
      | next heq => exact absurd (List.cons.inj heq).1 (hne _ (by decide) (by decide))
  | @text content pieces h =>
    have hread := text?_of_letters h hrest
    rw [String.ofList_toList] at hread
    simp only [List.cons_append] at hread ⊢
    unfold value?
    simp only [hread, Option.map_some]
  | yes =>
    unfold value?
    rfl
  | no =>
    unfold value?
    rfl

end FlashFleet.Toml
