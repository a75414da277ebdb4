import FlashFleet.Proofs.Script
/-!
# Choices, read and written

A choice of a backend is read by three cuts, one inside the other: at the first colon, at
every comma behind it, and at the first equals sign of each piece. A later colon is part of
an option and a later equals sign part of its value. So a choice can be written down and is
read again, unless it holds a separator where it would be cut too early: a colon in the name,
an equals sign or a comma in a key, a comma in a value. Nothing like that is ever read, and
therefore what was read from one text is read again from what is written for it.

## Main results

* `Text.splitAll_eq_iff` — cutting at every separator, said without an algorithm.
* `Choice.parse_eq_iff` — the choice that a text says.
* `Choice.choices_decoded` — which choices are read as they are written, and that all that
  are read from a text are among them.
-/

namespace FlashFleet

/-! ## Cuts -/

namespace Text

variable {sep : Char} {text : List Char}

/-- What is cut at every separator has none left. -/
theorem not_mem_of_mem_splitAll {piece : List Char} (h : piece ∈ splitAll sep text) :
    sep ∉ piece := by
  induction text generalizing piece with
  | nil =>
    rw [splitAll, List.mem_singleton] at h
    rw [h]
    exact List.not_mem_nil
  | cons c rest ih =>
    rw [splitAll] at h
    by_cases hc : c = sep
    · rw [if_pos hc] at h
      rcases List.mem_cons.1 h with rfl | hlater
      · exact List.not_mem_nil
      · exact ih hlater
    · obtain ⟨first, others, hsplit⟩ := List.exists_cons_of_ne_nil (splitAll_ne_nil sep rest)
      rw [if_neg hc, hsplit] at h
      rw [hsplit] at ih
      rcases List.mem_cons.1 h with rfl | hother
      · have hfirst : sep ∉ first := ih List.mem_cons_self
        rw [List.mem_cons, not_or]
        exact ⟨Ne.symm hc, hfirst⟩
      · exact ih (List.mem_cons_of_mem first hother)

/-- The text cut at every separator: the pieces, of which there is at least one, have none
left, and with a separator between neighbours they are the text. -/
structure Cut (sep : Char) (text : List Char) (pieces : List (List Char)) : Prop where
  nonempty : pieces ≠ []
  joined : joinWith sep pieces = text
  whole : ∀ piece ∈ pieces, sep ∉ piece

theorem splitAll_eq_iff {pieces : List (List Char)} :
    splitAll sep text = pieces ↔ Cut sep text pieces := by
  constructor
  · rintro rfl
    exact ⟨splitAll_ne_nil sep text, joinWith_splitAll sep text,
      fun _ => not_mem_of_mem_splitAll⟩
  · rintro ⟨hne, rfl, hwhole⟩
    exact splitAll_joinWith hne hwhole

end Text

namespace Backend.Choice

/-! ## What is read -/

/-- The options among pieces: each piece with an equals sign, cut at its first one, in the
order of the pieces. -/
inductive Among : List (List Char) → List (String × String) → Prop where
  | nil : Among [] []
  | skip {piece : List Char} {pieces : List (List Char)} {options : List (String × String)}
      (hpiece : '=' ∉ piece) (h : Among pieces options) : Among (piece :: pieces) options
  | option {key value : String} {pieces : List (List Char)} {options : List (String × String)}
      (hkey : '=' ∉ key.toList) (h : Among pieces options) :
      Among ((key.toList ++ '=' :: value.toList) :: pieces) ((key, value) :: options)

theorem filterMap_readOption_eq_iff {pieces : List (List Char)}
    {options : List (String × String)} :
    pieces.filterMap readOption = options ↔ Among pieces options := by
  constructor
  · rintro rfl
    induction pieces with
    | nil => exact .nil
    | cons piece pieces ih =>
      cases hcut : Text.splitFirst '=' piece with
      | none =>
        have hread : readOption piece = none := by rw [readOption, hcut]; rfl
        rw [List.filterMap_cons_none hread]
        exact .skip (Text.splitFirst_eq_none_iff.1 hcut) ih
      | some parts =>
        obtain ⟨key, value⟩ := parts
        obtain ⟨rfl, hkey⟩ := Text.splitFirst_eq_some hcut
        have hread : readOption (key ++ '=' :: value) =
            some (String.ofList key, String.ofList value) := by
          rw [readOption, hcut]
          rfl
        rw [List.filterMap_cons_some hread]
        have htext : key ++ '=' :: value =
            (String.ofList key).toList ++ '=' :: (String.ofList value).toList := by
          rw [String.toList_ofList, String.toList_ofList]
        rw [htext]
        exact .option (by rwa [String.toList_ofList]) ih
  · intro h
    induction h with
    | nil => rfl
    | @skip piece _ _ hpiece _ ih =>
      have hread : readOption piece = none := by
        rw [readOption, Text.splitFirst_eq_none_iff.2 hpiece, Option.map_none]
      rw [List.filterMap_cons_none hread, ih]
    | @option key value _ _ hkey _ ih =>
      have hread : readOption (writeOption (key, value)) = some (key, value) :=
        readOption_writeOption hkey
      rw [writeOption] at hread
      rw [List.filterMap_cons_some hread, ih]

/-- The text says the choice: all of it is the name, or its name stands before the first
colon and its options among the pieces behind it. -/
inductive Says (text : String) : Choice → Prop where
  | bare (h : ':' ∉ text.toList) : Says text ⟨text, []⟩
  | full {name : String} {behind : List Char} {pieces : List (List Char)}
      {options : List (String × String)} (htext : text.toList = name.toList ++ ':' :: behind)
      (hname : ':' ∉ name.toList) (hpieces : Text.Cut ',' behind pieces)
      (hoptions : Among pieces options) : Says text ⟨name, options⟩

theorem parse_eq_iff {text : String} {choice : Choice} :
    parse text = choice ↔ Says text choice := by
  constructor
  · rintro rfl
    cases hcut : Text.splitFirst ':' text.toList with
    | none =>
      have hcolon := Text.splitFirst_eq_none_iff.1 hcut
      rw [parse_of_not_mem hcolon]
      exact .bare hcolon
    | some parts =>
      obtain ⟨name, behind⟩ := parts
      obtain ⟨htext, hname⟩ := Text.splitFirst_eq_some hcut
      simp only [parse, hcut]
      refine .full ?_ ?_ (Text.splitAll_eq_iff.1 rfl) (filterMap_readOption_eq_iff.1 rfl)
      · rwa [String.toList_ofList]
      · rwa [String.toList_ofList]
  · intro h
    cases h with
    | bare h => exact parse_of_not_mem h
    | full htext hname hpieces hoptions =>
      simp only [parse, htext, Text.splitFirst_append hname, String.ofList_toList,
        Text.splitAll_eq_iff.2 hpieces, filterMap_readOption_eq_iff.2 hoptions]

/-! ## What can be written -/

/-- The choice has no separator where it would be cut too early. -/
structure Writable (choice : Choice) : Prop where
  name : ':' ∉ choice.name.toList
  keys : ∀ option ∈ choice.options, '=' ∉ option.1.toList ∧ ',' ∉ option.1.toList
  values : ∀ option ∈ choice.options, ',' ∉ option.2.toList

/-- Such a choice is read as it is written. -/
theorem Writable.parse_render {choice : Choice} (h : choice.Writable) :
    parse choice.render = choice := by
  obtain ⟨name, options⟩ := choice
  have hcommas : ∀ option ∈ options, ',' ∉ writeOption option := by
    intro option hoption
    have hkey : ',' ∉ option.1.toList := (h.keys option hoption).2
    have hvalue : ',' ∉ option.2.toList := h.values option hoption
    rw [writeOption, List.mem_append, List.mem_cons, not_or, not_or]
    exact ⟨hkey, by decide, hvalue⟩
  cases options with
  | nil => exact parse_of_not_mem h.name
  | cons option rest =>
    exact parse_of_options h.name (fun other hother => (h.keys other hother).1) hcommas

/-- Neither the key nor the value of an option among pieces has a comma, if the pieces have
none. -/
theorem Among.separators {pieces : List (List Char)} {options : List (String × String)}
    (h : Among pieces options) (hpieces : ∀ piece ∈ pieces, ',' ∉ piece) :
    ∀ option ∈ options,
      '=' ∉ option.1.toList ∧ ',' ∉ option.1.toList ∧ ',' ∉ option.2.toList := by
  induction h with
  | nil => exact List.forall_mem_nil _
  | skip _ _ ih => exact ih (List.forall_mem_cons.1 hpieces).2
  | option hkey _ ih =>
    obtain ⟨hpiece, hothers⟩ := List.forall_mem_cons.1 hpieces
    rw [List.mem_append, List.mem_cons, not_or, not_or] at hpiece
    exact List.forall_mem_cons.2 ⟨⟨hkey, hpiece.1, hpiece.2.2⟩, ih hothers⟩

/-- What a text says can be written. -/
theorem Says.writable {text : String} {choice : Choice} (h : Says text choice) :
    choice.Writable := by
  cases h with
  | bare h => exact ⟨h, List.forall_mem_nil _, List.forall_mem_nil _⟩
  | full _ hname hpieces hoptions =>
    have hseparators := hoptions.separators hpieces.whole
    exact ⟨hname,
      fun option hoption => ⟨(hseparators option hoption).1, (hseparators option hoption).2.1⟩,
      fun option hoption => (hseparators option hoption).2.2⟩

/-- The choices that are read as they are written are those that have no separator where it
would be cut too early. What is read from a text is what it says, is one of those choices, and
is read again from what is written for it. -/
theorem choices_decoded :
    (∀ choice : Choice, parse choice.render = choice ↔ choice.Writable) ∧
      ∀ text : String,
        (∀ choice : Choice, parse text = choice ↔ Says text choice) ∧
          (parse text).Writable ∧ parse (parse text).render = parse text := by
  have hread : ∀ text : String, (parse text).Writable := fun text =>
    (parse_eq_iff.1 rfl).writable
  refine ⟨fun choice => ⟨fun h => ?_, Writable.parse_render⟩, fun text =>
    ⟨fun choice => parse_eq_iff, hread text, (hread text).parse_render⟩⟩
  have hwritable := hread choice.render
  rwa [h] at hwritable

/-- Only the first colon, and in a piece the first equals sign, is a separator. -/
example : parse "dummy:a:b=c=@:,,fail,=" = ⟨"dummy", [("a:b", "c=@:"), ("", "")]⟩ := by
  decide +kernel

end Backend.Choice

end FlashFleet
