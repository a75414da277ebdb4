import FlashFleet.Backend.Registry
import FlashFleet.Proofs.Opening
import Mathlib.Data.List.Forall2
/-!
# Scripts for the simulated programmer

A script tells the simulated programmer which invocations to fail and how long to take. It
is written as the text that opens the backend: a name, a colon, and the options with commas
between them, a serial in any of the ways to write it. The text is cut at the colon, at the
commas, at the first equals sign and at the at sign, and no part of an option holds any of
the characters that it could be cut at too early. So the programmer that is opened is told
what was written.

## Main results

* `Text.splitAll_joinWith` — pieces that were joined are found again.
* `Dummy.configure_of_written` — the options of a script are applied in order.
* `Dummy.openText_scriptText` — a script opens the programmer that follows it.
* `Dummy.mem_failures_follow` — which fails what the script says.
-/

namespace FlashFleet

/-! ## Pieces between separators -/

namespace Text

/-- Text without separator is one piece. -/
theorem splitAll_of_not_mem {sep : Char} {text : List Char} (h : sep ∉ text) :
    splitAll sep text = [text] := by
  induction text with
  | nil => rfl
  | cons c rest ih =>
    rw [List.mem_cons, not_or] at h
    rw [splitAll, if_neg (Ne.symm h.1), ih h.2]

/-- A piece without separator is the first of a text that starts with it. -/
theorem splitAll_append {sep : Char} {piece : List Char} (h : sep ∉ piece) (rest : List Char) :
    splitAll sep (piece ++ sep :: rest) = piece :: splitAll sep rest := by
  induction piece with
  | nil => rw [List.nil_append, splitAll, if_pos rfl]
  | cons c piece ih =>
    rw [List.mem_cons, not_or] at h
    rw [List.cons_append, splitAll, if_neg (Ne.symm h.1), ih h.2]

/-- Pieces without separators that were joined are found again. -/
theorem splitAll_joinWith {sep : Char} {pieces : List (List Char)} (hne : pieces ≠ [])
    (h : ∀ piece ∈ pieces, sep ∉ piece) : splitAll sep (joinWith sep pieces) = pieces := by
  induction pieces with
  | nil => exact absurd rfl hne
  | cons piece rest ih =>
    obtain ⟨hpiece, hrest⟩ := List.forall_mem_cons.1 h
    cases rest with
    | nil => exact splitAll_of_not_mem hpiece
    | cons next others =>
      rw [joinWith, splitAll_append hpiece, ih (by simp) hrest]
      · exact List.cons_ne_nil _ _

end Text

namespace Backend.Choice

/-- An option whose key has no equals sign is read as it was written. -/
theorem readOption_writeOption {option : String × String} (h : '=' ∉ option.1.toList) :
    readOption (writeOption option) = some option := by
  rw [readOption, writeOption, Text.splitFirst_append h, Option.map_some,
    String.ofList_toList, String.ofList_toList]

/-- A name and options that cannot be cut elsewhere are read as they were written, also if
there are no options behind the colon. -/
theorem parse_of_options {name : String} {options : List (String × String)}
    (hname : ':' ∉ name.toList) (hkeys : ∀ option ∈ options, '=' ∉ option.1.toList)
    (hcommas : ∀ option ∈ options, ',' ∉ writeOption option) :
    parse (String.ofList
        (name.toList ++ ':' :: Text.joinWith ',' (options.map writeOption))) = ⟨name, options⟩ := by
  have hread : (Text.splitAll ',' (Text.joinWith ',' (options.map writeOption))).filterMap
      readOption = options := by
    cases options with
    | nil => rfl
    | cons option rest =>
      rw [Text.splitAll_joinWith (by simp) (List.forall_mem_map.2 hcommas), List.filterMap_map,
        List.filterMap_congr, List.filterMap_some]
      intro option hoption
      exact readOption_writeOption (hkeys option hoption)
  rw [parse, String.toList_ofList, Text.splitFirst_append hname]
  simp only [hread, String.ofList_toList]

end Backend.Choice

/-! ## Directives -/

namespace Dummy

/-- What an option of a script tells the simulated programmer: to fail an operation on a
probe, or how many milliseconds to take. -/
inductive Directive where
  | fail (operation : Operation) (serial : Serial)
  | delay (milliseconds : Nat)
  deriving DecidableEq, Repr

/-- The option is a way to write the directive. -/
inductive Directive.Written : Directive → String × String → Prop where
  | fail {operation : Operation} {serial : Serial} {digits : List Char}
      (h : Serial.Written digits serial) :
      Written (.fail operation serial)
        ("fail", String.ofList (operation.name.toList ++ '@' :: digits))
  | delay {milliseconds : Nat} {digits : List Char} (h : Number.Writes 10 digits milliseconds)
      (hlimit : milliseconds ≤ delayLimit) :
      Written (.delay milliseconds) ("delay", String.ofList digits)

/-- The programmer that also does what a directive says. -/
def obey (dummy : Dummy) : Directive → Dummy
  | .fail operation serial => dummy.withFailure operation serial
  | .delay milliseconds => { dummy with delay := milliseconds }

/-- The programmer that also does what a script says. The last delay counts. -/
def follow (dummy : Dummy) (script : List Directive) : Dummy := script.foldl obey dummy

/-- The text that opens the backend of that name with options. -/
def scriptText (name : String) (options : List (String × String)) : String :=
  String.ofList (name.toList ++ ':' :: Text.joinWith ',' (options.map Backend.Choice.writeOption))

/-- The key of an option has no equals sign, and the option no comma. -/
theorem Directive.Written.separators {directive : Directive} {option : String × String}
    (h : directive.Written option) :
    '=' ∉ option.1.toList ∧ ',' ∉ Backend.Choice.writeOption option := by
  have hcomma : ∀ {text : List Char}, (∀ c ∈ text, c.isAlphanum = true) → ',' ∉ text :=
    fun htext hmem => absurd (htext ',' hmem) (by decide)
  cases h with
  | @fail operation serial digits h =>
    refine ⟨(by decide : '=' ∉ "fail".toList), ?_⟩
    have hfront : ',' ∉ "fail".toList ++ '=' :: (operation.name.toList ++ ['@']) := by
      cases operation <;> decide
    have hsplit : Backend.Choice.writeOption
        ("fail", String.ofList (operation.name.toList ++ '@' :: digits)) =
          ("fail".toList ++ '=' :: (operation.name.toList ++ ['@'])) ++ digits := by
      simp [Backend.Choice.writeOption]
    rw [hsplit, List.mem_append, not_or]
    exact ⟨hfront, hcomma h.isAlphanum⟩
  | @delay milliseconds digits h hlimit =>
    refine ⟨(by decide : '=' ∉ "delay".toList), ?_⟩
    have hfront : ',' ∉ "delay".toList ++ ['='] := by decide
    have hsplit : Backend.Choice.writeOption ("delay", String.ofList digits) =
        ("delay".toList ++ ['=']) ++ digits := by
      simp [Backend.Choice.writeOption]
    rw [hsplit, List.mem_append, not_or]
    exact ⟨hfront, hcomma h.isAlphanum⟩

/-- So it is with all options of a script. -/
theorem separators_of_written {script : List Directive} {options : List (String × String)}
    (h : List.Forall₂ Directive.Written script options) :
    ∀ option ∈ options,
      '=' ∉ option.1.toList ∧ ',' ∉ Backend.Choice.writeOption option := by
  induction h with
  | nil => exact List.forall_mem_nil _
  | cons hhead _ ih => exact List.forall_mem_cons.2 ⟨hhead.separators, ih⟩

/-- A failure is read as it was written. -/
theorem readFailure_of_written {operation : Operation} {serial : Serial} {digits : List Char}
    (h : Serial.Written digits serial) :
    readFailure (String.ofList (operation.name.toList ++ '@' :: digits)) =
      .ok (operation, serial) :=
  readFailure_eq_ok_iff.2 ⟨String.ofList digits, by simp,
    Serial.parse_eq_ok_iff.1 (Serial.parse_of_written h)⟩

/-- A delay is read as it was written. -/
theorem readDelay_of_writes {milliseconds : Nat} {digits : List Char}
    (h : Number.Writes 10 digits milliseconds) (hlimit : milliseconds ≤ delayLimit) :
    readDelay (String.ofList digits) = .ok milliseconds := by
  rw [readDelay_eq_ok_iff, String.toList_ofList]
  exact ⟨.plain h, hlimit⟩

/-- The options of a script are applied in order, without a word in the log. -/
theorem configure_of_written {script : List Directive} {options : List (String × String)}
    (h : List.Forall₂ Directive.Written script options) (dummy : Dummy) :
    dummy.configure options = ([], .ok (dummy.follow script)) := by
  induction h generalizing dummy with
  | nil => rfl
  | cons hhead _ ih =>
    cases hhead with
    | fail h =>
      rw [configure, if_pos rfl, readFailure_of_written h]
      exact ih _
    | delay h hlimit =>
      rw [configure, if_neg (by decide), if_pos rfl, readDelay_of_writes h hlimit]
      exact ih _

/-- A script opens the programmer that follows it, under either name. -/
theorem openText_scriptText {script : List Directive} {options : List (String × String)}
    (h : List.Forall₂ Directive.Written script options) {name : String}
    (hname : name = "dummy" ∨ name = "dry-run") :
    Backend.openText (scriptText name options) =
      ([⟨.warn, "Using the dummy programmer: no devices will be touched"⟩],
        .ok (.dummy (({} : Dummy).follow script))) := by
  have hseparators := separators_of_written h
  have hcolon : ':' ∉ name.toList ∧ Backend.Brand.find? name = some .dummy := by
    rcases hname with rfl | rfl <;> decide
  rw [Backend.openText, scriptText, Backend.Choice.parse_of_options hcolon.1
    (fun option hoption => (hseparators option hoption).1)
    (fun option hoption => (hseparators option hoption).2)]
  simp only [Backend.openChoice, hcolon.2, Backend.openDummy, ofOptions, configure_of_written h]

theorem mem_withFailure {dummy : Dummy} {failure : Operation × Serial} {operation : Operation}
    {serial : Serial} :
    failure ∈ (dummy.withFailure operation serial).failures ↔
      failure ∈ dummy.failures ∨ failure = (operation, serial) := by
  rw [withFailure]
  by_cases hlisted : (operation, serial) ∈ dummy.failures
  · rw [if_pos hlisted]
    constructor
    · exact .inl
    · rintro (h | rfl)
      · exact h
      · exact hlisted
  · rw [if_neg hlisted, List.mem_append, List.mem_singleton]

/-- The programmer that follows a script fails what it failed before, and what the script
says. -/
theorem mem_failures_follow (dummy : Dummy) (script : List Directive) (operation : Operation)
    (serial : Serial) :
    (operation, serial) ∈ (dummy.follow script).failures ↔
      (operation, serial) ∈ dummy.failures ∨ .fail operation serial ∈ script := by
  induction script generalizing dummy with
  | nil => simp [follow]
  | cons directive rest ih =>
    rw [follow, List.foldl_cons, ← follow, ih]
    cases directive with
    | delay milliseconds => simp [obey]
    | fail failed probe =>
      rw [obey, mem_withFailure, List.mem_cons, or_assoc]
      simp only [Prod.mk.injEq, Directive.fail.injEq]

end Dummy

end FlashFleet
