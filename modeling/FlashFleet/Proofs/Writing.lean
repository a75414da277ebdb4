import FlashFleet.Proofs.Distinct
import FlashFleet.Proofs.Values
/-!
# Ways to write an array of tables

Each table of the array has its header between double brackets, and under it a line for each
key with a value, in the order of the table. Blanks may stand at the start of a line, around
the key, and at the end, where a comment may follow; and lines that say nothing may stand
anywhere. However it was written, the array is read back: while its last table is open, those
before it are the array under the key.

## Main results

* `lines?_cons` — a line that is read takes its characters.
* `Entries.Written.lines?_append` — the lines of a table add its keys with their values.
* `parse?_of_written` — the array is read back.
-/

namespace FlashFleet.Toml

/-! ## Line ends -/

/-- Blanks within a line. -/
def Blanks (text : List Char) : Prop := ∀ c ∈ text, c = ' ' ∨ c = '\t'

instance (text : List Char) : Decidable (Blanks text) :=
  inferInstanceAs (Decidable (∀ c ∈ text, _))

theorem blanks_nil : Blanks [] := List.forall_mem_nil _

/-- A comment, or none. It goes on up to the end of its line and has no controls but tabs. -/
inductive Comment : List Char → Prop where
  | none : Comment []
  | remark {text : List Char}
      (h : ∀ c ∈ text, c = '\t' ∨ (0x20 ≤ c.toNat ∧ c.toNat ≠ 0x7F)) : Comment ('#' :: text)

/-- A line break. -/
inductive Break : List Char → Prop where
  | lineFeed : Break ['\n']
  | carriageReturn : Break ['\r', '\n']

/-- What may stand at the end of a line: blanks, a comment, and the line break. -/
inductive Ending : List Char → Prop where
  | mk {blanks comment newline : List Char} (hblanks : Blanks blanks)
      (hcomment : Comment comment) (hnewline : Break newline) :
      Ending (blanks ++ (comment ++ newline))

theorem skipBlanks_append {blanks : List Char} (h : Blanks blanks) (rest : List Char) :
    skipBlanks (blanks ++ rest) = skipBlanks rest := by
  refine List.dropWhile_append_of_pos fun c hc => ?_
  rcases h c hc with rfl | rfl <;> decide

theorem skipBlanks_cons {c : Char} (h : isBlank c = false) (rest : List Char) :
    skipBlanks (c :: rest) = c :: rest :=
  List.dropWhile_cons_of_neg (by simp [h])

theorem skipComment_append {comment newline : List Char} (hcomment : Comment comment)
    (hnewline : Break newline) (rest : List Char) :
    skipComment (comment ++ (newline ++ rest)) = newline ++ rest := by
  cases hcomment with
  | none => cases hnewline <;> rfl
  | @remark text h =>
    have hchars : ∀ c ∈ text, isCommentChar c = true := by
      intro c hc
      rcases h c hc with rfl | ⟨hlow, hdelete⟩
      · decide
      · simp only [isCommentChar, Bool.or_eq_true, Bool.and_eq_true, decide_eq_true_eq, beq_iff_eq]
        omega
    rw [List.cons_append, skipComment, List.dropWhile_append_of_pos hchars]
    cases hnewline <;> rfl

/-- A comment or a line break is where the blanks end. -/
theorem skipBlanks_comment {comment newline : List Char} (hcomment : Comment comment)
    (hnewline : Break newline) (rest : List Char) :
    skipBlanks (comment ++ (newline ++ rest)) = comment ++ (newline ++ rest) := by
  cases hcomment with
  | none => cases hnewline <;> exact skipBlanks_cons (by decide) _
  | remark => exact skipBlanks_cons (by decide) _

theorem lineEnd?_append {newline : List Char} (h : Break newline) (rest : List Char) :
    lineEnd? (newline ++ rest) = some rest := by
  cases h <;> rfl

/-- The end of a line takes what stands there. -/
theorem Ending.restOfLine? {ending : List Char} (h : Ending ending) (rest : List Char) :
    restOfLine? (ending ++ rest) = some rest := by
  obtain ⟨hblanks, hcomment, hnewline⟩ := h
  rw [Toml.restOfLine?, List.append_assoc, List.append_assoc, skipBlanks_append hblanks,
    skipBlanks_comment hcomment hnewline, skipComment_append hcomment hnewline,
    lineEnd?_append hnewline]

/-- A value may be followed by the end of its line. -/
theorem Ending.stops {ending : List Char} (h : Ending ending) (rest : List Char) :
    Stops (ending ++ rest) := by
  obtain @⟨blanks, comment, newline, hblanks, hcomment, hnewline⟩ := h
  intro c hc
  cases blanks with
  | cons first more =>
    cases hc
    rcases hblanks c List.mem_cons_self with rfl | rfl <;> decide
  | nil =>
    cases hcomment with
    | remark =>
      cases hc
      decide
    | none =>
      cases hnewline <;> cases hc <;> decide

/-! ## Lines -/

/-- A line that is read takes its characters. -/
theorem lines?_cons {draft next : Draft} {blanks line rest : List Char} {c : Char}
    (hblanks : Blanks blanks) (hc : isBlank c = false)
    (h : line? draft (c :: line ++ rest) = some (next, rest)) :
    lines? draft (blanks ++ (c :: line ++ rest)) = lines? next rest := by
  have hlength : rest.length < (blanks ++ (c :: line ++ rest)).length := by
    simp only [List.length_append, List.length_cons]
    omega
  rw [lines?, skipBlanks_append hblanks, List.cons_append, skipBlanks_cons hc]
  rw [List.cons_append] at h hlength
  simp only [h, if_pos hlength]

/-- A line that says nothing changes nothing. -/
theorem Ending.lines? {ending : List Char} (h : Ending ending) (draft : Draft)
    (rest : List Char) : lines? draft (ending ++ rest) = lines? draft rest := by
  obtain @⟨blanks, comment, newline, hblanks, hcomment, hnewline⟩ := h
  have hend : lineEnd? (skipComment (comment ++ (newline ++ rest))) = some rest := by
    rw [skipComment_append hcomment hnewline, lineEnd?_append hnewline]
  rw [List.append_assoc]
  cases hcomment with
  | none =>
    cases hnewline with
    | lineFeed =>
      have hline : line? draft ('\n' :: [] ++ rest) = some (draft, rest) := rfl
      exact lines?_cons hblanks (by decide) hline
    | carriageReturn =>
      have hline : line? draft ('\r' :: ['\n'] ++ rest) = some (draft, rest) := rfl
      exact lines?_cons hblanks (by decide) hline
  | @remark text _ =>
    simp only [List.cons_append] at hend ⊢
    have hline : line? draft ('#' :: (text ++ newline) ++ rest) = some (draft, rest) := by
      simp only [List.cons_append, List.append_assoc, line?, hend, Option.map_some]
    rw [← lines?_cons hblanks (by decide) hline, List.cons_append, List.append_assoc]

/-! ## Keys -/

/-- The name is written without marks: it has only letters, digits, underscores and dashes. -/
def Bare (name : String) : Prop :=
  name ≠ "" ∧ ∀ c ∈ name.toList, c.isAlphanum = true ∨ c = '_' ∨ c = '-'

instance (name : String) : Decidable (Bare name) := inferInstanceAs (Decidable (_ ∧ _))

theorem Bare.chars {name : String} (h : Bare name) :
    ∀ c ∈ name.toList, isBareChar c = true := by
  intro c hc
  rcases h.2 c hc with hc | rfl | rfl
  · simp [isBareChar, hc]
  · decide
  · decide

theorem Bare.head {name : String} (h : Bare name) :
    ∃ c more, name.toList = c :: more ∧ isBareChar c = true := by
  cases hname : name.toList with
  | nil => exact absurd (String.toList_eq_nil_iff.1 hname) h.1
  | cons c more => exact ⟨c, more, rfl, h.chars c (by rw [hname]; exact List.mem_cons_self)⟩

/-- A character of a name is no character that cannot be in one. -/
theorem ne_of_isBareChar {c d : Char} (h : isBareChar c = true) (hd : isBareChar d = false) :
    c ≠ d := by
  rintro rfl
  rw [h] at hd
  cases hd

theorem isBlank_of_isBareChar {c : Char} (h : isBareChar c = true) : isBlank c = false := by
  have hspace := ne_of_isBareChar h (by decide : isBareChar ' ' = false)
  have htab := ne_of_isBareChar h (by decide : isBareChar '\t' = false)
  simp [isBlank, hspace, htab]

/-- A name is read back up to the first character that is not part of it. -/
theorem name?_of_bare {name : String} (h : Bare name) {rest : List Char}
    (hrest : ∀ c, rest.head? = some c → isBareChar c = false) :
    name? (name.toList ++ rest) = some (name, rest) := by
  have hstop : rest.takeWhile isBareChar = [] ∧ rest.dropWhile isBareChar = rest := by
    cases rest with
    | nil => exact ⟨rfl, rfl⟩
    | cons c more =>
      have hc : ¬ isBareChar c = true := by simp [hrest c rfl]
      exact ⟨List.takeWhile_cons_of_neg hc, List.dropWhile_cons_of_neg hc⟩
  obtain ⟨c, more, hname, hc⟩ := h.head
  have hchars := h.chars
  have heq : String.ofList (c :: more) = name := by rw [← hname, String.ofList_toList]
  rw [hname] at hchars
  rw [hname, List.cons_append, name?]
  · rw [← List.cons_append, List.takeWhile_append_of_pos hchars,
      List.dropWhile_append_of_pos hchars, hstop.1, hstop.2, List.append_nil]
    simp only [heq]
  · exact fun _ hquote => ne_of_isBareChar hc (by decide) (List.cons.inj hquote).1
  · exact fun _ hquote => ne_of_isBareChar hc (by decide) (List.cons.inj hquote).1

/-- A key of one name is read back, with the blanks around it. -/
theorem key?_of_bare {key : String} (h : Bare key) {before after rest : List Char} {c : Char}
    (hbefore : Blanks before) (hafter : Blanks after) (hc : c = '=' ∨ c = ']') :
    key? (before ++ (key.toList ++ (after ++ c :: rest))) = some (([], key), c :: rest) := by
  have hplain : isBlank c = false ∧ isBareChar c = false ∧ c ≠ '.' := by
    rcases hc with rfl | rfl <;> decide
  obtain ⟨hblank, hbare, hpoint⟩ := hplain
  have hend : ∀ d, (after ++ c :: rest).head? = some d → isBareChar d = false := by
    intro d hd
    cases after with
    | nil =>
      cases hd
      exact hbare
    | cons first more =>
      cases hd
      rcases hafter d List.mem_cons_self with rfl | rfl <;> decide
  have hstart : skipBlanks (before ++ (key.toList ++ (after ++ c :: rest))) =
      key.toList ++ (after ++ c :: rest) := by
    obtain ⟨first, more, hkey, hfirst⟩ := h.head
    rw [skipBlanks_append hbefore, hkey]
    exact skipBlanks_cons (isBlank_of_isBareChar hfirst) _
  have hnames : names? (before ++ (key.toList ++ (after ++ c :: rest))) =
      some ([key], c :: rest) := by
    rw [names?, hstart, name?_of_bare h hend]
    simp only [skipBlanks_append hafter, skipBlanks_cons hblank]
    split
    · next heq => exact absurd (List.cons.inj heq).1 hpoint
    · rfl
  simp only [key?, hnames]
  rfl

/-! ## Tables -/

/-- The text is a way to write the table: its keys with their values, one on each line, and
lines that say nothing. -/
inductive Entries.Written : Entries → List Char → Prop where
  | nil : Written [] []
  | empty {entries : Entries} {ending text : List Char} (hending : Ending ending)
      (h : Written entries text) : Written entries (ending ++ text)
  | entry {entries : Entries} {key : String} {node : Node}
      {indent before after value ending text : List Char} (hindent : Blanks indent)
      (hkey : Bare key) (hbefore : Blanks before) (hafter : Blanks after)
      (hvalue : node.Written value) (hending : Ending ending) (h : Written entries text) :
      Written ((key, node) :: entries)
        (indent ++ (key.toList ++ (before ++ '=' :: (after ++ (value ++ (ending ++ text))))))

/-- A value starts with no blank. -/
theorem Node.Written.head {node : Node} {text : List Char} (h : node.Written text) :
    ∃ c more, text = c :: more ∧ isBlank c = false := by
  cases h with
  | integer _ h =>
    obtain ⟨c, more, htext, hc⟩ := h.head
    refine ⟨c, more, htext, ?_⟩
    rcases hc with rfl | hc
    · decide
    · have halphanum := isAlphanum_of_isDigitOf hc
      exact isBlank_of_isBareChar (by simp [isBareChar, halphanum])
  | text => exact ⟨_, _, rfl, by decide⟩
  | yes => exact ⟨_, _, rfl, by decide⟩
  | no => exact ⟨_, _, rfl, by decide⟩

/-- A key with its value is read back. -/
theorem pair?_of_written {key : String} {node : Node} {before after value rest : List Char}
    (hkey : Bare key) (hbefore : Blanks before) (hafter : Blanks after)
    (hvalue : node.Written value) (hrest : Stops rest) (depth : Nat) :
    pair? (value? depth) (key.toList ++ (before ++ '=' :: (after ++ (value ++ rest)))) =
      some (([], key, node), rest) := by
  have hread : key? ([] ++ (key.toList ++ (before ++ '=' :: (after ++ (value ++ rest))))) =
      some (([], key), '=' :: (after ++ (value ++ rest))) :=
    key?_of_bare hkey blanks_nil hbefore (.inl rfl)
  have hskip : skipBlanks (after ++ (value ++ rest)) = value ++ rest := by
    obtain ⟨c, more, rfl, hc⟩ := hvalue.head
    rw [skipBlanks_append hafter]
    exact skipBlanks_cons hc _
  rw [List.nil_append] at hread
  simp only [pair?, hread, mark?, hskip, value?_of_written hvalue hrest, bind, Option.bind, pure,
    if_true]

/-- A line with a key and a value adds them to the open table, if it does not have the key. -/
theorem line?_of_pair {draft : Draft} {key : String} {node : Node} {line ending rest : List Char}
    (hkey : Bare key) (hline : ∃ more, line = key.toList ++ more) (hending : Ending ending)
    (hpair : pair? (value? nestingLimit) (line ++ (ending ++ rest)) =
      some (([], key, node), ending ++ rest))
    (hnew : lookup key draft.opened = none) :
    line? draft (line ++ (ending ++ rest)) =
      some ({ draft with opened := draft.opened ++ [(key, node)] }, rest) := by
  have hadd : draft.add [] key node =
      some { draft with opened := draft.opened ++ [(key, node)] } := by
    have hput : put .header draft.opened [] key node = some (draft.opened ++ [(key, node)]) :=
      insert_of_lookup_eq_none hnew
    rw [Draft.add, hput, Option.map_some]
  obtain ⟨more, rfl⟩ := hline
  obtain ⟨c, name, hname, hc⟩ := hkey.head
  have hnewline : newline? (key.toList ++ more ++ (ending ++ rest)) = none := by
    rw [hname, List.cons_append, List.cons_append, newline?]
    · exact fun _ heq => ne_of_isBareChar hc (by decide) (List.cons.inj heq).1
    · exact fun _ heq => ne_of_isBareChar hc (by decide) (List.cons.inj heq).1
  unfold line?
  split
  · next heq =>
    rw [hname] at heq
    exact absurd (List.cons.inj heq).1 (ne_of_isBareChar hc (by decide))
  · next heq =>
    rw [hname] at heq
    exact absurd (List.cons.inj heq).1 (ne_of_isBareChar hc (by decide))
  · simp only [hnewline, hpair, hending.restOfLine?, hadd, bind, Option.bind, pure]

/-- The lines of a table add its keys with their values to the open table. -/
theorem Entries.Written.lines?_append {entries : Entries} {text : List Char}
    (h : entries.Written text) (draft : Draft)
    (hnodup : (keys (draft.opened ++ entries)).Nodup) (rest : List Char) :
    Toml.lines? draft (text ++ rest) =
      Toml.lines? { draft with opened := draft.opened ++ entries } rest := by
  induction h generalizing draft with
  | nil => rw [List.nil_append, List.append_nil]
  | empty hending _ ih =>
    rw [List.append_assoc, hending.lines?]
    exact ih draft hnodup
  | @entry entries key node indent before after value ending text hindent hkey hbefore hafter
      hvalue hending _ ih =>
    have hnew : lookup key draft.opened = none := by
      rw [lookup_eq_none_iff]
      intro hmem
      rw [keys, List.map_append, List.nodup_append] at hnodup
      exact hnodup.2.2 key hmem key List.mem_cons_self rfl
    have hpair := pair?_of_written hkey hbefore hafter hvalue (hending.stops (text ++ rest))
      nestingLimit
    obtain ⟨c, name, hname, hc⟩ := hkey.head
    let line := key.toList ++ (before ++ '=' :: (after ++ value))
    have hline : line? draft (line ++ (ending ++ (text ++ rest))) = _ :=
      line?_of_pair hkey ⟨_, rfl⟩ hending (by simpa [line] using hpair) hnew
    have hfirst : line ++ (ending ++ (text ++ rest)) =
        c :: (name ++ (before ++ '=' :: (after ++ value)) ++ ending) ++ (text ++ rest) := by
      simp [line, hname]
    rw [hfirst] at hline
    have hstep := lines?_cons hindent (isBlank_of_isBareChar hc) hline
    have hrest := ih { draft with opened := draft.opened ++ [(key, node)] }
      (by simpa using hnodup)
    rw [← hfirst, hrest] at hstep
    simpa [line] using hstep

/-! ## The array -/

/-- The text is a way to write the tables, each under a header with the key. -/
inductive WrittenTables (key : String) : List Entries → List Char → Prop where
  | nil : WrittenTables key [] []
  | cons {entries : Entries} {tables : List Entries}
      {indent before after ending body text : List Char} (hindent : Blanks indent)
      (hbefore : Blanks before) (hafter : Blanks after) (hending : Ending ending)
      (hentries : entries.Written body) (h : WrittenTables key tables text) :
      WrittenTables key (entries :: tables)
        (indent ++ ('[' :: '[' ::
          (before ++ (key.toList ++ (after ++ ']' :: ']' :: (ending ++ (body ++ text)))))))

/-- The text is a way to write the array under the key, with nothing else in the document. -/
inductive WrittenArray (key : String) (tables : List Entries) : List Char → Prop where
  | mk {front text : List Char} (hfront : Entries.Written [] front)
      (h : WrittenTables key tables text) : WrittenArray key tables (front ++ text)

/-- The draft while a table of the array is open: those before it are the array so far. -/
def Draft.inArray (key : String) (before : List Entries) (opened : Entries) : Draft :=
  { closed := [(key, .tables before)], header := some ⟨[], key, true⟩, opened := opened }

theorem Draft.close_inArray (key : String) (before : List Entries) (opened : Entries) :
    (inArray key before opened).close = some [(key, .tables (before ++ [opened]))] := by
  simp [inArray, close, within, lookup, replace]

/-- The header of a table closes the one before it. -/
theorem Draft.start_inArray (key : String) (before : List Entries) (opened : Entries) :
    (inArray key before opened).start ⟨[], key, true⟩ =
      some (inArray key (before ++ [opened]) []) := by
  rw [start, close_inArray]
  simp [inArray, within, lookup]

/-- The first header opens the first table. -/
theorem Draft.start_empty (key : String) :
    ({} : Draft).start ⟨[], key, true⟩ = some (inArray key [] []) := by
  simp [start, close, inArray, within, lookup]

/-- A header of the array is read back. -/
theorem header?_of_bare {key : String} (hkey : Bare key) {before after : List Char}
    (hbefore : Blanks before) (hafter : Blanks after) (rest : List Char) :
    header? ('[' :: (before ++ (key.toList ++ (after ++ ']' :: ']' :: rest)))) =
      some (⟨[], key, true⟩, rest) := by
  have hread : key? (before ++ (key.toList ++ (after ++ ']' :: ']' :: rest))) =
      some (([], key), ']' :: ']' :: rest) :=
    key?_of_bare hkey hbefore hafter (.inr rfl)
  simp only [header?, hread, mark?, bind, Option.bind, pure, if_true]

/-- The lines of a table with its header open it and add what it holds. -/
theorem lines?_of_table {key : String} (hkey : Bare key) {draft : Draft} {tables : List Entries}
    (hstart : draft.start ⟨[], key, true⟩ = some (.inArray key tables [])) {entries : Entries}
    (hnodup : (keys entries).Nodup) {indent before after ending body : List Char}
    (hindent : Blanks indent) (hbefore : Blanks before) (hafter : Blanks after)
    (hending : Ending ending) (hentries : entries.Written body) (text : List Char) :
    lines? draft (indent ++ ('[' :: '[' ::
        (before ++ (key.toList ++ (after ++ ']' :: ']' :: (ending ++ (body ++ text))))))) =
      lines? (.inArray key tables entries) text := by
  let line := '[' :: (before ++ (key.toList ++ (after ++ ']' :: ']' :: ending)))
  have hsplit : '[' :: (before ++ (key.toList ++ (after ++ ']' :: ']' :: (ending ++
      (body ++ text))))) = line ++ (body ++ text) := by
    simp [line]
  have hline : line? draft ('[' :: line ++ (body ++ text)) =
      some (.inArray key tables [], body ++ text) := by
    have hheader := header?_of_bare hkey hbefore hafter (ending ++ (body ++ text))
    rw [List.cons_append, ← hsplit]
    simp only [line?, hheader, hending.restOfLine?, hstart, bind, Option.bind, pure]
  rw [hsplit, ← List.cons_append, lines?_cons hindent (by decide) hline]
  exact hentries.lines?_append (.inArray key tables []) hnodup text

/-- While a table of the array is open, the lines of the later ones complete the array. -/
theorem close_lines?_of_written {key : String} (hkey : Bare key) {tables : List Entries}
    {text : List Char} (h : WrittenTables key tables text)
    (hnodup : ∀ entries ∈ tables, (keys entries).Nodup) (before : List Entries)
    (opened : Entries) :
    (lines? (.inArray key before opened) text).bind Draft.close =
      some [(key, .tables (before ++ opened :: tables))] := by
  induction h generalizing before opened with
  | nil =>
    rw [lines?]
    exact Draft.close_inArray key before opened
  | cons hindent hbefore hafter hending hentries _ ih =>
    obtain ⟨hfirst, hlater⟩ := List.forall_mem_cons.1 hnodup
    have hstart := Draft.start_inArray key before opened
    rw [lines?_of_table hkey hstart hfirst hindent hbefore hafter hending hentries,
      ih hlater, List.append_assoc, List.singleton_append]

/-! ## A writer -/

/-- The values that can be written: texts, whole numbers of 64 bits, and truth values. -/
inductive Node.Plain : Node → Prop where
  | text (content : String) : Plain (.text content)
  | integer {value : Nat} (h : value ≤ 9223372036854775807) : Plain (.integer value)
  | boolean (value : Bool) : Plain (.boolean value)

/-- A value as it is written. -/
def writeNode : Node → List Char
  | .text content => '"' :: (content.toList.map letter).flatten ++ ['"']
  | .integer value => Nat.toDigits 10 value.toNat
  | .boolean true => ['t', 'r', 'u', 'e']
  | .boolean false => ['f', 'a', 'l', 's', 'e']
  | _ => []

/-- A table as it is written: a line for each key. -/
def writeEntries : Entries → List Char
  | [] => []
  | (key, node) :: rest =>
    key.toList ++ ([' '] ++ '=' :: ([' '] ++ (writeNode node ++ (['\n'] ++ writeEntries rest))))

/-- An array as it is written: a header and the lines of each table. -/
def writeTables (key : String) : List Entries → List Char
  | [] => []
  | entries :: rest =>
    '[' :: '[' :: (key.toList ++ ']' :: ']' :: (['\n'] ++
      (writeEntries entries ++ writeTables key rest)))

theorem ending_lineFeed : Ending ['\n'] := .mk blanks_nil .none .lineFeed

theorem written_writeNode {node : Node} (h : node.Plain) : node.Written (writeNode node) := by
  cases h with
  | text content =>
    refine .text ?_
    rw [List.forall₂_map_right_iff]
    exact List.forall₂_same.2 fun c _ => letter_letter c
  | integer h => exact .integer h (whole_toDigits _)
  | boolean value =>
    cases value with
    | true => exact .yes
    | false => exact .no

theorem written_writeEntries {entries : Entries}
    (h : ∀ entry ∈ entries, Bare entry.1 ∧ entry.2.Plain) :
    entries.Written (writeEntries entries) := by
  induction entries with
  | nil => exact .nil
  | cons entry rest ih =>
    obtain ⟨⟨hkey, hplain⟩, hrest⟩ := List.forall_mem_cons.1 h
    have hblank : Blanks [' '] := by decide
    exact .entry blanks_nil hkey hblank hblank (written_writeNode hplain)
      ending_lineFeed (ih hrest)

/-- An array of tables with plain values can be written. -/
theorem writtenArray_writeTables {key : String} {tables : List Entries}
    (h : ∀ entries ∈ tables, ∀ entry ∈ entries, Bare entry.1 ∧ entry.2.Plain) :
    WrittenArray key tables (writeTables key tables) := by
  have hfront : Entries.Written [] [] := .nil
  have htables : WrittenTables key tables (writeTables key tables) := by
    induction tables with
    | nil => exact .nil
    | cons entries rest ih =>
      obtain ⟨hentries, hrest⟩ := List.forall_mem_cons.1 h
      exact .cons blanks_nil blanks_nil blanks_nil ending_lineFeed
        (written_writeEntries hentries) (ih hrest)
  exact .mk hfront htables

/-! ## The document -/

/-- The array starts with no byte order mark. -/
theorem WrittenArray.skipMark {key : String} {tables : List Entries} {text : List Char}
    (h : WrittenArray key tables text) : skipMark text = text := by
  have hmarkless : ∀ {text : List Char}, (∀ c, text.head? = some c → c ≠ '\uFEFF') →
      Toml.skipMark text = text := by
    intro text hhead
    unfold Toml.skipMark
    split
    · exact absurd rfl (hhead '\uFEFF' rfl)
    · rfl
  apply hmarkless
  obtain ⟨hfront, h⟩ := h
  rintro c hc rfl
  cases hfront with
  | empty hending _ =>
    rw [List.append_assoc] at hc
    exact absurd (hending.stops _ _ hc) (by decide)
  | nil =>
    cases h with
    | nil => cases hc
    | @cons _ _ indent _ _ _ _ _ hindent =>
      cases indent with
      | nil => cases hc
      | cons first more =>
        cases hc
        exact absurd (hindent '\uFEFF' List.mem_cons_self) (by decide)

/-- What a document with nothing but the array says. Without tables there is no array. -/
def arrayDocument (key : String) : List Entries → Entries
  | [] => []
  | first :: later => [(key, .tables (first :: later))]

/-- The array is read back, however it was written. -/
theorem parse?_of_written {key : String} (hkey : Bare key) {tables : List Entries} {text : String}
    (h : WrittenArray key tables text.toList) (hnodup : ∀ entries ∈ tables, (keys entries).Nodup) :
    parse? text = some (arrayDocument key tables) := by
  have hclose : parse? text = (lines? {} text.toList).bind Draft.close := by
    rw [parse?, h.skipMark]
    cases lines? {} text.toList <;> rfl
  rw [hclose]
  generalize text.toList = text at h
  obtain ⟨hfront, h⟩ := h
  rw [hfront.lines?_append {} List.nodup_nil]
  cases h with
  | nil =>
    rw [lines?]
    rfl
  | @cons entries tables _ _ _ _ _ _ hindent hbefore hafter hending hentries h =>
    obtain ⟨hfirst, hlater⟩ := List.forall_mem_cons.1 hnodup
    have hopened := lines?_of_table hkey (Draft.start_empty key) hfirst hindent hbefore hafter
      hending hentries
    exact (congrArg (Option.bind · Draft.close) (hopened _)).trans
      (close_lines?_of_written hkey h hlater [] entries)

end FlashFleet.Toml
