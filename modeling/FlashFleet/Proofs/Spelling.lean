import FlashFleet.Serial
import Mathlib.Data.List.TakeWhile
/-!
# Ways to write a number

A number is written in a radix as any text of digits that has its value: with zeros before
it, and with letters of either case. A serial is written in radix ten, or in radix sixteen
behind a mark that says so. Such a text is read as what was written, since it has no blanks
to lose, no sign, and in radix ten no mark. A reader accepts little else: a plus before the
digits, and blanks around a serial.

## Main results

* `writes_toDigits` — a number is written by its digits.
* `readWhole_eq_ok_iff` — what is read as a number are its digits, alone or behind a plus.
* `Serial.parse_eq_ok_iff` — what is read as a serial is what spells it.
* `Serial.parse_of_written` — a serial is read as it was written, whichever way that was.
-/

namespace FlashFleet

/-- What is said of the characters of a text is decided by a look at each of them, not by one at
every character there is. -/
instance (priority := high) decidableForallMemChar (p : Char → Prop) [DecidablePred p]
    (text : List Char) : Decidable (∀ c ∈ text, p c) :=
  List.decidableBAll p text

namespace Number

/-- The text of digits has the value in the radix. -/
def Writes (radix : Nat) (digits : List Char) (value : Nat) : Prop :=
  digits ≠ [] ∧ digitsValue? radix digits 0 = some value

/-- A character with a value is an ASCII digit or letter. -/
theorem isAlphanum_of_digitValue? {radix d : Nat} {c : Char} (h : digitValue? radix c = some d) :
    c.isAlphanum = true := by
  have hranges : ('0' ≤ c ∧ c ≤ '9') ∨ ('a' ≤ c ∧ c ≤ 'z') ∨ ('A' ≤ c ∧ c ≤ 'Z') := by
    unfold digitValue? at h
    obtain ⟨hvalue, _⟩ := Option.filter_eq_some_iff.1 h
    split at hvalue
    · exact .inl ‹_›
    · split at hvalue
      · exact .inr (.inl ‹_›)
      · split at hvalue
        · exact .inr (.inr ‹_›)
        · cases hvalue
  unfold Char.isAlphanum Char.isAlpha Char.isUpper Char.isLower Char.isDigit
  simp only [Bool.or_eq_true, Bool.and_eq_true, decide_eq_true_eq]
  rcases hranges with hdigit | hlower | hupper
  · exact .inr hdigit
  · exact .inl (.inr hlower)
  · exact .inl (.inl hupper)

/-- Every character of a text of digits has a value. -/
theorem digitValue?_of_mem {radix start value : Nat} {digits : List Char}
    (h : digitsValue? radix digits start = some value) :
    ∀ c ∈ digits, ∃ d, digitValue? radix c = some d := by
  induction digits generalizing start with
  | nil => exact List.forall_mem_nil _
  | cons c rest ih =>
    rw [digitsValue?] at h
    split at h
    · cases h
    · next d hd => exact List.forall_mem_cons.2 ⟨⟨d, hd⟩, ih h⟩

/-- A number is written with ASCII digits and letters. -/
theorem Writes.isAlphanum {radix value : Nat} {digits : List Char}
    (h : Writes radix digits value) : ∀ c ∈ digits, c.isAlphanum = true := by
  intro c hc
  obtain ⟨d, hd⟩ := digitValue?_of_mem h.2 c hc
  exact isAlphanum_of_digitValue? hd

/-- Digits behind others are read after them. -/
theorem digitsValue?_append (radix : Nat) (a b : List Char) (start : Nat) :
    digitsValue? radix (a ++ b) start =
      (digitsValue? radix a start).bind (digitsValue? radix b) := by
  induction a generalizing start with
  | nil => rfl
  | cons c rest ih =>
    rw [List.cons_append, digitsValue?, digitsValue?]
    split
    · rfl
    · exact ih _

theorem digitsValue?_singleton (radix : Nat) (c : Char) (start : Nat) :
    digitsValue? radix [c] start = (digitValue? radix c).map (start * radix + ·) := by
  rw [digitsValue?]
  cases digitValue? radix c <;> rfl

/-! ## Digits of a number -/

theorem digitValue?_digitChar {radix d : Nat} (hradix : radix ≤ 16) (hd : d < radix) :
    digitValue? radix (Nat.digitChar d) = some d := by
  have hall : ∀ radix : Fin 17, ∀ d : Fin 16, d.val < radix.val →
      digitValue? radix.val (Nat.digitChar d.val) = some d.val := by
    decide +kernel
  exact hall ⟨radix, by omega⟩ ⟨d, by omega⟩ hd

/-- A number is written by its digits. -/
theorem writes_toDigits {radix : Nat} (hradix : 1 < radix) (hmost : radix ≤ 16) (value : Nat) :
    Writes radix (Nat.toDigits radix value) value := by
  refine ⟨Nat.toDigits_ne_nil, ?_⟩
  have hdigit : ∀ d < radix, ∀ start,
      digitsValue? radix [Nat.digitChar d] start = some (start * radix + d) := by
    intro d hd start
    rw [digitsValue?_singleton, digitValue?_digitChar hmost hd, Option.map_some]
  induction value using Nat.strongRecOn with
  | ind value ih =>
    by_cases hsmall : value < radix
    · rw [Nat.toDigits_of_lt_base hsmall, hdigit value hsmall, Nat.zero_mul, Nat.zero_add]
    · have hlarge : radix ≤ value := Nat.le_of_not_lt hsmall
      have hless : value / radix < value := Nat.div_lt_self (by omega) hradix
      rw [Nat.toDigits_of_base_le hradix hlarge, digitsValue?_append, ih _ hless,
        Option.bind_some, hdigit _ (Nat.mod_lt _ (by omega)), Nat.div_add_mod']

/-! ## Reading -/

/-- The text is a way to write the number with a sign: its digits, alone or behind a plus. -/
inductive Signed (radix : Nat) : List Char → Nat → Prop where
  | plain {digits : List Char} {value : Nat} (h : Writes radix digits value) :
      Signed radix digits value
  | plus {digits : List Char} {value : Nat} (h : Writes radix digits value) :
      Signed radix ('+' :: digits) value

theorem Writes.plus_notMem {radix value : Nat} {digits : List Char}
    (h : Writes radix digits value) : '+' ∉ digits :=
  fun hmem => absurd (h.isAlphanum '+' hmem) (by decide)

/-- What is read are the ways to write a number within the limit. -/
theorem readWhole_eq_ok_iff {radix limit value : Nat} {text : List Char} (hradix : 0 < radix) :
    readWhole radix limit text = .ok value ↔ Signed radix text value ∧ value ≤ limit := by
  have hdigits : ∀ digits : List Char, digits ≠ [] →
      (readDigits radix limit digits 0 = .ok value ↔
        Writes radix digits value ∧ value ≤ limit) := by
    intro digits hne
    rw [readDigits_eq_ok_iff hradix (Nat.zero_le limit)]
    exact ⟨fun ⟨hvalue, hle⟩ => ⟨⟨hne, hvalue⟩, hle⟩, fun ⟨h, hle⟩ => ⟨h.2, hle⟩⟩
  constructor
  · intro h
    unfold readWhole at h
    split at h
    · cases h
    · cases h
    · next rest hrest =>
      obtain ⟨hwrites, hle⟩ := (hdigits rest hrest).1 h
      exact ⟨.plus hwrites, hle⟩
    · next hnonempty _ _ =>
      obtain ⟨hwrites, hle⟩ := (hdigits text hnonempty).1 h
      exact ⟨.plain hwrites, hle⟩
  · rintro ⟨hsigned, hle⟩
    cases hsigned with
    | plain h =>
      unfold readWhole
      split
      · exact absurd rfl h.1
      · exact absurd List.mem_cons_self h.plus_notMem
      · exact absurd List.mem_cons_self h.plus_notMem
      · exact (hdigits text h.1).2 ⟨h, hle⟩
    | @plus digits _ h =>
      unfold readWhole
      split
      · next heq => cases heq
      · next heq =>
        cases heq
        exact absurd rfl h.1
      · next heq =>
        cases heq
        exact (hdigits digits h.1).2 ⟨h, hle⟩
      · next _ _ hplus => exact absurd rfl (hplus digits)

end Number

/-! ## Serials -/

/-- Where digits and letters are in ASCII. -/
theorem Text.toNat_of_isAlphanum {c : Char} (h : c.isAlphanum = true) :
    48 ≤ c.toNat ∧ c.toNat ≤ 122 := by
  unfold Char.isAlphanum Char.isAlpha Char.isUpper Char.isLower Char.isDigit at h
  simp only [Bool.or_eq_true, Bool.and_eq_true, decide_eq_true_eq, ge_iff_le,
    UInt32.le_iff_toNat_le] at h
  simp only [Char.toNat]
  have hvalues : 'A'.val.toNat = 65 ∧ 'Z'.val.toNat = 90 ∧ 'a'.val.toNat = 97 ∧
      'z'.val.toNat = 122 ∧ '0'.val.toNat = 48 ∧ '9'.val.toNat = 57 := by decide
  omega

/-- Digits and letters are no blanks. -/
theorem Text.isBlank_of_isAlphanum {c : Char} (h : c.isAlphanum = true) : isBlank c = false := by
  have hrange := toNat_of_isAlphanum h
  simp only [isBlank, Bool.or_eq_false_iff, Bool.and_eq_false_iff, decide_eq_false_iff_not,
    beq_eq_false_iff_ne]
  omega

/-- Trimming takes the blanks around a text whose own ends are no blanks. -/
theorem Text.trim_of_ends {before text after : List Char}
    (hbefore : ∀ c ∈ before, isBlank c = true) (hfirst : ∀ c ∈ text.head?, isBlank c = false)
    (hlast : ∀ c ∈ text.getLast?, isBlank c = false) (hafter : ∀ c ∈ after, isBlank c = true) :
    trim (before ++ text ++ after) = text := by
  have hstay : ∀ text : List Char, (∀ c ∈ text.head?, isBlank c = false) →
      text.dropWhile isBlank = text := by
    intro text hhead
    cases text with
    | nil => rfl
    | cons c rest => exact List.dropWhile_cons_of_neg (by simp [hhead c rfl])
  have hblanks : ∀ c ∈ after.reverse, isBlank c = true := by simpa using hafter
  have hfront : ((text ++ after).dropWhile isBlank).reverse.dropWhile isBlank =
      text.reverse.dropWhile isBlank := by
    cases text with
    | nil =>
      rw [List.nil_append, List.dropWhile_eq_nil_iff.2 hafter]
    | cons c rest =>
      rw [hstay (c :: rest ++ after) hfirst, List.reverse_append,
        List.dropWhile_append_of_pos hblanks]
  rw [trim, List.append_assoc, List.dropWhile_append_of_pos hbefore, hfront,
    hstay _ (by rwa [List.head?_reverse]), List.reverse_reverse]

/-- Trimming takes the blanks around a text that has none of its own. -/
theorem Text.trim_append {before text after : List Char}
    (hbefore : ∀ c ∈ before, isBlank c = true) (h : ∀ c ∈ text, isBlank c = false)
    (hafter : ∀ c ∈ after, isBlank c = true) : trim (before ++ text ++ after) = text :=
  trim_of_ends hbefore (fun c hc => h c (List.mem_of_mem_head? hc))
    (fun c hc => h c (List.mem_of_mem_getLast? hc)) hafter

/-- What trimming takes from a text are blanks at its ends. -/
theorem Text.exists_trim (text : List Char) :
    ∃ before after, text = before ++ trim text ++ after ∧ (∀ c ∈ before, isBlank c = true) ∧
      ∀ c ∈ after, isBlank c = true := by
  have hsplit : ∀ text : List Char,
      text.takeWhile isBlank ++ text.dropWhile isBlank = text := fun _ =>
    List.takeWhile_append_dropWhile
  have hblanks : ∀ text : List Char, ∀ c ∈ text.takeWhile isBlank, isBlank c = true :=
    fun _ _ hc => List.mem_takeWhile_imp hc
  refine ⟨text.takeWhile isBlank,
    ((text.dropWhile isBlank).reverse.takeWhile isBlank).reverse, ?_, hblanks _, ?_⟩
  · have hrest := congrArg List.reverse (hsplit (text.dropWhile isBlank).reverse)
    rw [List.reverse_append, List.reverse_reverse] at hrest
    rw [trim, List.append_assoc, hrest, hsplit]
  · intro c hc
    exact hblanks _ c (List.mem_reverse.1 hc)

namespace Serial

/-- The text is a way to write the serial: its digits in radix ten, or a mark and its digits
in radix sixteen. -/
inductive Written : List Char → Serial → Prop where
  | decimal {digits : List Char} {serial : Serial}
      (h : Number.Writes 10 digits serial.toNat) : Written digits serial
  | hexadecimal {digits : List Char} {serial : Serial} {mark : Char}
      (hmark : mark = 'x' ∨ mark = 'X') (h : Number.Writes 16 digits serial.toNat) :
      Written ('0' :: mark :: digits) serial

/-- Every serial is written both ways. -/
theorem written_toDigits (serial : Serial) :
    Written (Nat.toDigits 10 serial.toNat) serial ∧
      Written ('0' :: 'x' :: Nat.toDigits 16 serial.toNat) serial :=
  ⟨.decimal (Number.writes_toDigits (by decide) (by decide) _),
    .hexadecimal (.inl rfl) (Number.writes_toDigits (by decide) (by decide) _)⟩

/-- A serial is written with ASCII digits and letters. -/
theorem Written.isAlphanum {text : List Char} {serial : Serial} (h : Written text serial) :
    ∀ c ∈ text, c.isAlphanum = true := by
  cases h with
  | decimal h => exact h.isAlphanum
  | hexadecimal hmark h =>
    refine List.forall_mem_cons.2 ⟨by decide, List.forall_mem_cons.2 ⟨?_, h.isAlphanum⟩⟩
    rcases hmark with rfl | rfl <;> decide

/-! ## What is read as a serial -/

/-- The text spells the serial: like a way to write it, but a plus may stand before the
digits. -/
inductive Spelled : List Char → Serial → Prop where
  | decimal {text : List Char} {serial : Serial}
      (h : Number.Signed 10 text serial.toNat) : Spelled text serial
  | hexadecimal {text : List Char} {serial : Serial} {mark : Char}
      (hmark : mark = 'x' ∨ mark = 'X') (h : Number.Signed 16 text serial.toNat) :
      Spelled ('0' :: mark :: text) serial

theorem Written.spelled {text : List Char} {serial : Serial} (h : Written text serial) :
    Spelled text serial := by
  cases h with
  | decimal h => exact .decimal (.plain h)
  | hexadecimal hmark h => exact .hexadecimal hmark (.plain h)

/-- A serial is spelled without blanks. -/
theorem Spelled.isBlank {text : List Char} {serial : Serial} (h : Spelled text serial) :
    ∀ c ∈ text, Text.isBlank c = false := by
  have hsigned : ∀ {radix value : Nat} {text : List Char}, Number.Signed radix text value →
      ∀ c ∈ text, Text.isBlank c = false := by
    intro radix value text hsigned
    cases hsigned with
    | plain h => exact fun c hc => Text.isBlank_of_isAlphanum (h.isAlphanum c hc)
    | plus h =>
      exact List.forall_mem_cons.2
        ⟨by decide, fun c hc => Text.isBlank_of_isAlphanum (h.isAlphanum c hc)⟩
  cases h with
  | decimal h => exact hsigned h
  | hexadecimal hmark h =>
    refine List.forall_mem_cons.2 ⟨by decide, List.forall_mem_cons.2 ⟨?_, hsigned h⟩⟩
    rcases hmark with rfl | rfl <;> decide

/-- A decimal number has no mark. -/
private theorem spelling_of_signed {text : List Char} {value : Nat}
    (h : Number.Signed 10 text value) : spelling text = (false, text) := by
  have hmark : ∀ c, c ≠ '+' → Number.digitValue? 10 c = none → c ∉ text := by
    intro c hplus hnone hc
    have hdigit : ∀ {digits : List Char}, Number.Writes 10 digits value → c ∉ digits := by
      intro digits hwrites hmem
      obtain ⟨d, hd⟩ := Number.digitValue?_of_mem hwrites.2 c hmem
      rw [hnone] at hd
      cases hd
    cases h with
    | plain h => exact hdigit h hc
    | plus h => exact (List.mem_cons.1 hc).elim hplus (hdigit h)
  unfold spelling
  split
  · exact absurd (by simp) (hmark 'x' (by decide) (by decide))
  · exact absurd (by simp) (hmark 'X' (by decide) (by decide))
  · rfl

/-- A serial is the number that is read behind the mark. -/
theorem parseTrimmed_eq_ok_iff_readWhole {text : List Char} {serial : Serial} :
    parseTrimmed text = .ok serial ↔
      Number.readWhole (radix (spelling text).1) limit (spelling text).2 = .ok serial.toNat := by
  have hpositive : 0 < radix (spelling text).1 := by
    cases (spelling text).1 <;> decide
  simp only [parseTrimmed]
  cases hvalue : Number.readWhole (radix (spelling text).1) limit (spelling text).2 with
  | ok value =>
    obtain ⟨_, hle⟩ := (Number.readWhole_eq_ok_iff hpositive).1 hvalue
    rw [Except.ok.injEq, Except.ok.injEq]
    constructor
    · rintro rfl
      exact (UInt32.toNat_ofNat_of_lt' (Nat.lt_succ_of_le hle)).symm
    · rintro rfl
      exact UInt32.ofNat_toNat
  | error cause => simp only [reduceCtorEq]

/-- A serial is refused for what is wrong with the number, and the fault tells of the mark. -/
theorem parseTrimmed_eq_error_iff {text : List Char} {fault : Fault} :
    parseTrimmed text = .error fault ↔ fault.hexadecimal = (spelling text).1 ∧
      Number.readWhole (radix (spelling text).1) limit (spelling text).2 = .error fault.cause := by
  obtain ⟨hexadecimal, reason⟩ := fault
  simp only [parseTrimmed]
  cases Number.readWhole (radix (spelling text).1) limit (spelling text).2 with
  | ok value => simp only [reduceCtorEq, and_false]
  | error cause => simp only [Except.error.injEq, Fault.mk.injEq, eq_comm]

/-- Without blanks around it a text is read as the serial that it spells. -/
theorem parseTrimmed_eq_ok_iff {text : List Char} {serial : Serial} :
    parseTrimmed text = .ok serial ↔ Spelled text serial := by
  have hread : parseTrimmed text = .ok serial ↔
      Number.Signed (radix (spelling text).1) (spelling text).2 serial.toNat := by
    have hpositive : 0 < radix (spelling text).1 := by
      cases (spelling text).1 <;> decide
    have hlimit : serial.toNat ≤ limit := Nat.le_of_lt_succ serial.toNat_lt
    rw [parseTrimmed_eq_ok_iff_readWhole, Number.readWhole_eq_ok_iff hpositive]
    exact and_iff_left hlimit
  rw [hread]
  constructor
  · intro h
    unfold spelling at h
    split at h
    · exact .hexadecimal (.inl rfl) h
    · exact .hexadecimal (.inr rfl) h
    · exact .decimal h
  · intro h
    cases h with
    | decimal h =>
      rw [spelling_of_signed h]
      exact h
    | hexadecimal hmark h =>
      rcases hmark with rfl | rfl
      · exact h
      · exact h

/-- The text spells the serial, with blanks around it or without. -/
def Spells (text : String) (serial : Serial) : Prop :=
  ∃ before core after, text.toList = before ++ core ++ after ∧
    (∀ c ∈ before, Text.isBlank c = true) ∧ (∀ c ∈ after, Text.isBlank c = true) ∧
    Spelled core serial

/-- A text is read as the serial that it spells. -/
theorem parse_eq_ok_iff {text : String} {serial : Serial} :
    parse text = .ok serial ↔ Spells text serial := by
  rw [parse, parseTrimmed_eq_ok_iff]
  constructor
  · intro h
    obtain ⟨before, after, htext, hbefore, hafter⟩ := Text.exists_trim text.toList
    exact ⟨before, _, after, htext, hbefore, hafter, h⟩
  · rintro ⟨before, core, after, htext, hbefore, hafter, h⟩
    rwa [htext, Text.trim_append hbefore h.isBlank hafter]

/-- A serial is read as it was written. -/
theorem parse_of_written {text : List Char} {serial : Serial} (h : Written text serial) :
    parse (String.ofList text) = .ok serial :=
  parse_eq_ok_iff.2 ⟨[], text, [], by simp, nofun, nofun, h.spelled⟩

end Serial

end FlashFleet
