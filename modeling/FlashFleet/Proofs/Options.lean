import FlashFleet.CommandLine.Parse
import FlashFleet.Proofs.Listing
/-!
# Options one after another

Behind a command, an option comes with all that it needs: alone, or with the next argument for
its value. A value that came as an argument of its own is looked at only when the next option
is given, or at the end. Where all goes well that makes no difference, so that each option can
be taken by itself, and its value at once. What the others make of their options does not
depend on the serials, and the options of the serials change nothing else.

## Main results

* `Leads.readScope` — arguments lead up to a command, whatever stands behind it.
* `finish_of_settle` — a value may be looked at early.
* `Takes.finish`, `takes_of_finish` — a command line goes on behind an option that is taken.
* `Takes.withSerials` — an option is taken whatever the serials.
-/

namespace FlashFleet.CommandLine

/-! ## One argument after another -/

/-- Reads an argument that is not the name of a command. Gives also whether no argument behind
it is an option. -/
def readArgument (scope : Scope) (given : Given) (text : String) :
    Except UsageError (Given × Bool) :=
  match Argument.ofText text with
  | .escape => .ok (given, true)
  | .long name attached => (takeLong scope given name attached).map (·, false)
  | .shorts names => (takeShorts scope given names).map (·, false)
  | .word text =>
    if given.isWaiting then .ok (given.supply text, false)
    else .error (strayWord scope false text)

/-- Arguments are read one after another, up to the name of a command. -/
theorem readScope_cons (scope : Scope) (given : Given) (escaped : Bool) (text : String)
    (rest : List String) :
    readScope scope given escaped (text :: rest) =
      if escaped then .error (strayWord scope true text)
      else if scope == .root && !given.isWaiting && isCommandWord text then
        .ok (given, text :: rest)
      else (do
        let next ← readArgument scope given text
        readScope scope next.1 next.2 rest) := by
  rw [readScope, readArgument]
  cases Argument.ofText text with
  | escape => rfl
  | long name attached =>
    dsimp only
    cases takeLong scope given name attached <;> rfl
  | shorts names =>
    dsimp only
    cases takeShorts scope given names <;> rfl
  | word text =>
    dsimp only
    cases given.isWaiting <;> rfl

/-! ## Up to the command -/

/-- The arguments lead up to the command, and give something on the way: the first word behind
them that is no option, and no value of one, is the name of the command. -/
def Leads (front : List String) (name : CommandName) (given : Given) : Prop :=
  readScope .root {} false (front ++ [name.text]) = .ok (given, [name.text])

/-- Arguments that are read up to a word at their end are read up to it whatever stands behind
it. -/
theorem readScope_append_word {given final : Given} {escaped : Bool} {front : List String}
    {word : String} (rest : List String)
    (h : readScope .root given escaped (front ++ [word]) = .ok (final, [word])) :
    readScope .root given escaped (front ++ word :: rest) = .ok (final, word :: rest) := by
  induction front generalizing given escaped with
  | nil =>
    rw [List.nil_append, readScope_cons] at h
    rw [List.nil_append, readScope_cons]
    split at h
    · cases h
    · next hescaped =>
      split at h
      · next hword =>
        cases h
        rw [if_neg hescaped, if_pos hword]
      · obtain ⟨next, _, hread⟩ := bind_eq_ok h
        cases hread
  | cons text front ih =>
    rw [List.cons_append, readScope_cons] at h
    rw [List.cons_append, readScope_cons]
    split at h
    · cases h
    · next hescaped =>
      split at h
      · have hlength := congrArg (fun read => read.2.length) (Except.ok.inj h)
        simp at hlength
      · next hword =>
        obtain ⟨next, hnext, hread⟩ := bind_eq_ok h
        rw [if_neg hescaped, if_neg hword, hnext]
        exact ih hread

theorem Leads.readScope {front : List String} {name : CommandName} {given : Given}
    (h : Leads front name given) (rest : List String) :
    readScope .root {} false (front ++ name.text :: rest) = .ok (given, name.text :: rest) :=
  readScope_append_word rest h

/-- What arguments behind a command come to. -/
def finish (name : CommandName) (given : Given) (escaped : Bool) (arguments : List String) :
    Except UsageError Given := do
  let read ← readScope (.command name) given escaped arguments
  read.1.settle

theorem parse?_text (name : CommandName) : CommandName.parse? name.text = some name := by
  cases name <;> decide

/-- What a command line comes to: the options behind the command are looked at first. -/
theorem Leads.parse {front : List String} {name : CommandName} {given : Given}
    (h : Leads front name given) (arguments : List String) :
    parse (front ++ name.text :: arguments) = (do
      let behind ← finish name {} false arguments
      let request ← request name behind
      let given ← given.settle
      return {
        verbosity := if behind.verbosity = 0 then given.verbosity else behind.verbosity
        programmer := (behind.programmer.or given.programmer).getD defaultProgrammer
        request := request }) := by
  rw [CommandLine.parse, h.readScope arguments]
  simp only [bind, Except.bind, parse?_text, finish]
  cases CommandLine.readScope (.command name) {} false arguments <;> rfl

/-! ## Behind the command -/

section

variable {name : CommandName} {given : Given}

theorem finish_nil (name : CommandName) (given : Given) (escaped : Bool) :
    finish name given escaped [] = given.settle := rfl

theorem finish_cons (name : CommandName) (given : Given) (text : String) (rest : List String) :
    finish name given false (text :: rest) = (do
      let next ← readArgument (.command name) given text
      finish name next.1 next.2 rest) := by
  rw [finish, readScope_cons]
  change (readArgument (.command name) given text >>= _) >>= _ = _
  rw [bind_assoc]
  rfl

/-! ## Values that are looked at early -/

/-- An option that waits for its value is no option that was settled. -/
theorem settle_of_pending {value : ValueOption} (h : given.pending = some (value, none)) :
    given.settle = .error .invalidValue := by
  rw [Given.settle, h]

theorem settle_of_none (h : given.pending = none) : given.settle = .ok given := by
  rw [Given.settle, h]

/-- The value of an option is taken whatever is pending, and leaves it pending. -/
theorem pending_take {value : ValueOption} {text : String} {final : Given}
    (h : given.take value text = .ok final) : final.pending = given.pending := by
  cases value <;> obtain ⟨_, _, hfinal⟩ := bind_eq_ok h <;> cases hfinal <;> rfl

theorem pending_settle {settled : Given} (h : given.settle = .ok settled) :
    settled.pending = none := by
  unfold Given.settle at h
  split at h
  · next hnone =>
    cases h
    exact hnone
  · cases h
  · exact pending_take h

variable {settled : Given}

/-- What was settled is settled. -/
theorem settle_settle (h : given.settle = .ok settled) : settled.settle = .ok settled :=
  settle_of_none (pending_settle h)

/-- An option settles what is pending before it. -/
theorem giveValue_of_settle (h : given.settle = .ok settled) (value : ValueOption)
    (attached : Option String) :
    given.giveValue value attached = settled.giveValue value attached := by
  rw [Given.giveValue, Given.giveValue, h, settle_settle h]

theorem giveFlag_of_settle (h : given.settle = .ok settled) (flag : FlagOption) :
    given.giveFlag flag = settled.giveFlag flag := by
  rw [Given.giveFlag, Given.giveFlag, h, settle_settle h]

theorem takeLong_of_settle (h : given.settle = .ok settled) (scope : Scope) (long : String)
    (attached : Option String) :
    takeLong scope given long attached = takeLong scope settled long attached := by
  simp only [takeLong, giveValue_of_settle h, giveFlag_of_settle h]

theorem takeShorts_of_settle (h : given.settle = .ok settled) (scope : Scope) {shorts : List Char}
    (hshorts : shorts ≠ []) : takeShorts scope given shorts = takeShorts scope settled shorts := by
  obtain ⟨short, rest, rfl⟩ := List.exists_cons_of_ne_nil hshorts
  simp only [takeShorts, giveValue_of_settle h, giveFlag_of_settle h]

/-- An option that is taken has settled what was pending. -/
theorem settled_of_takeLong {scope : Scope} {long : String} {attached : Option String}
    {final : Given} (h : takeLong scope given long attached = .ok final) :
    ∃ settled, given.settle = .ok settled := by
  unfold takeLong at h
  split at h
  · cases h
  · obtain ⟨settled, hsettle, _⟩ := bind_eq_ok h
    exact ⟨settled, hsettle⟩
  · split at h
    · cases h
    · obtain ⟨settled, hsettle, _⟩ := bind_eq_ok h
      exact ⟨settled, hsettle⟩

theorem settled_of_takeShorts {scope : Scope} {shorts : List Char} {final : Given}
    (hshorts : shorts ≠ []) (h : takeShorts scope given shorts = .ok final) :
    ∃ settled, given.settle = .ok settled := by
  obtain ⟨short, rest, rfl⟩ := List.exists_cons_of_ne_nil hshorts
  unfold takeShorts at h
  split at h
  · cases h
  · obtain ⟨settled, hsettle, _⟩ := bind_eq_ok h
    exact ⟨settled, hsettle⟩
  · obtain ⟨_, hflag, _⟩ := bind_eq_ok h
    obtain ⟨settled, hsettle, _⟩ := bind_eq_ok hflag
    exact ⟨settled, hsettle⟩

/-- Short options are at least one. -/
theorem shorts_ne_nil {text : String} {shorts : List Char}
    (h : Argument.ofText text = .shorts shorts) : shorts ≠ [] := by
  unfold Argument.ofText at h
  split at h
  · cases h
  · split at h <;> cases h
  · cases h
    exact List.cons_ne_nil _ _
  · cases h

theorem eq_of_word {text word : String} (h : Argument.ofText text = .word word) : word = text := by
  unfold Argument.ofText at h
  split at h
  · cases h
  · split at h <;> cases h
  · cases h
  · cases h
    rfl

theorem isWaiting_of_settle (h : given.settle = .ok settled) : given.isWaiting = false := by
  unfold Given.settle at h
  unfold Given.isWaiting
  split at h
  · next hnone => rw [hnone]
  · cases h
  · next hsome => rw [hsome]

/-- An argument that is not the two dashes is read as if what was pending had been settled. -/
theorem readArgument_of_settle (h : given.settle = .ok settled) (scope : Scope) {text : String}
    (hescape : Argument.ofText text ≠ .escape) :
    readArgument scope given text = readArgument scope settled text := by
  unfold readArgument
  cases htext : Argument.ofText text with
  | escape => exact absurd htext hescape
  | long long attached => simp only [takeLong_of_settle h]
  | shorts shorts => simp only [takeShorts_of_settle h scope (shorts_ne_nil htext)]
  | word word =>
    simp only [isWaiting_of_settle h, isWaiting_of_settle (settle_settle h), Bool.false_eq_true,
      if_false]

/-- What is pending may be settled early. -/
theorem finish_of_settle (h : given.settle = .ok settled) (escaped : Bool)
    (arguments : List String) :
    finish name given escaped arguments = finish name settled escaped arguments := by
  induction arguments generalizing escaped with
  | nil => rw [finish_nil, finish_nil, h, settle_settle h]
  | cons text rest ih =>
    cases escaped with
    | true => rfl
    | false =>
      rw [finish_cons, finish_cons]
      by_cases hescape : Argument.ofText text = .escape
      · simp only [readArgument, hescape]
        exact ih true
      · rw [readArgument_of_settle h _ hescape]

/-- After the two dashes nothing may follow. -/
theorem settle_of_finish_escaped {arguments : List String} {final : Given}
    (h : finish name given true arguments = .ok final) : given.settle = .ok final := by
  cases arguments with
  | nil => exact h
  | cons text rest => cases h

/-- What is pending is settled in the end, if it does not wait for its value. -/
theorem settled_of_finish {arguments : List String} {final : Given}
    (hwaiting : given.isWaiting = false) (h : finish name given false arguments = .ok final) :
    ∃ settled, given.settle = .ok settled := by
  cases arguments with
  | nil => exact ⟨final, h⟩
  | cons text rest =>
    rw [finish_cons] at h
    obtain ⟨next, hnext, h⟩ := bind_eq_ok h
    unfold readArgument at hnext
    split at hnext
    · cases hnext
      exact ⟨final, settle_of_finish_escaped h⟩
    · obtain ⟨_, htake, _⟩ := map_eq_ok hnext
      exact settled_of_takeLong htake
    · next htext =>
      obtain ⟨_, htake, _⟩ := map_eq_ok hnext
      exact settled_of_takeShorts (shorts_ne_nil htext) htake
    · rw [hwaiting] at hnext
      cases hnext

/-! ## Which value an argument asks for -/

/-- The option whose value is still to come, of short options written together. -/
def shortsAsk? : List Char → Option ValueOption
  | [] => none
  | short :: rest =>
    match OptionName.ofShort? short with
    | some (.value value) => if rest = [] then some value else none
    | some (.flag _) => shortsAsk? rest
    | none => none

/-- The option whose value is still to come: the next argument has to be it. -/
def Argument.asks? : Argument → Option ValueOption
  | .long text none =>
    match OptionName.ofLong? text with
    | some (.value value) => some value
    | _ => none
  | .shorts letters => shortsAsk? letters
  | _ => none

/-- The argument is the option of the serials. -/
def Argument.givesSerials : Argument → Bool
  | .long text _ => OptionName.ofLong? text == some (.value .serials)
  | _ => false

/-- An argument that asks for the value of another option is not that of the serials. -/
theorem givesSerials_of_asks? {argument : Argument} {option : ValueOption}
    (h : argument.asks? = some option) (hoption : option ≠ .serials) :
    argument.givesSerials = false := by
  cases argument with
  | long text attached =>
    refine Bool.eq_false_iff.2 fun hserials => ?_
    have htext := beq_iff_eq.1 hserials
    cases attached with
    | none =>
      simp only [Argument.asks?, htext, Option.some.injEq] at h
      exact hoption h.symm
    | some value => cases h
  | escape => rfl
  | shorts letters => rfl
  | word text => rfl

theorem giveValue_of_none (h : given.pending = none) (value : ValueOption)
    (attached : Option String) :
    given.giveValue value attached =
      match attached with
      | some text => given.take value text
      | none => .ok { given with pending := some (value, none) } := by
  rw [Given.giveValue, settle_of_none h]
  rfl

/-- An option without value leaves nothing pending. -/
theorem pending_giveFlag {flag : FlagOption} {final : Given}
    (h : given.giveFlag flag = .ok final) : final.pending = none := by
  obtain ⟨settled, hsettle, h⟩ := bind_eq_ok h
  have hnone := pending_settle hsettle
  cases flag with
  | verbose =>
    cases h
    exact hnone
  | sequential =>
    dsimp only at h
    split at h
    · cases h
    · cases h
      exact hnone
  | help => cases h
  | version => cases h

theorem pending_takeLong (hnone : given.pending = none) {scope : Scope} {long : String}
    {attached : Option String} {final : Given}
    (h : takeLong scope given long attached = .ok final) :
    final.pending = (Argument.asks? (.long long attached)).map (·, none) := by
  unfold takeLong at h
  split at h
  · cases h
  · next value hvalue =>
    have hlong := (Option.filter_eq_some_iff.1 hvalue).1
    rw [giveValue_of_none hnone] at h
    cases attached with
    | some text =>
      rw [pending_take h, hnone]
      rfl
    | none =>
      cases h
      simp only [Argument.asks?, hlong, Option.map_some]
  · next flag hflag =>
    have hlong := (Option.filter_eq_some_iff.1 hflag).1
    cases attached with
    | some text => cases h
    | none =>
      rw [pending_giveFlag h]
      simp only [Argument.asks?, hlong, Option.map_none]

theorem pending_takeShorts (hnone : given.pending = none) {scope : Scope} {shorts : List Char}
    {final : Given} (h : takeShorts scope given shorts = .ok final) :
    final.pending = (shortsAsk? shorts).map (·, none) := by
  induction shorts generalizing given with
  | nil =>
    cases h
    rw [hnone]
    rfl
  | cons short rest ih =>
    unfold takeShorts at h
    split at h
    · cases h
    · next value hvalue =>
      have hshort := (Option.filter_eq_some_iff.1 hvalue).1
      rw [giveValue_of_none hnone] at h
      rw [shortsAsk?, hshort]
      dsimp only
      split at h
      · next text hattached =>
        have hrest : rest ≠ [] := by
          rintro rfl
          cases hattached
        rw [pending_take h, hnone, if_neg hrest]
        rfl
      · next hattached =>
        have hrest : rest = [] := by
          unfold attachedValue at hattached
          split at hattached
          · rfl
          · cases hattached
          · cases hattached
        cases h
        rw [if_pos hrest]
        rfl
    · next flag hflag =>
      have hshort := (Option.filter_eq_some_iff.1 hflag).1
      obtain ⟨middle, hmiddle, h⟩ := bind_eq_ok h
      rw [shortsAsk?, hshort]
      exact ih (pending_giveFlag hmiddle) h

/-- Where nothing is pending, an argument leaves pending what it asks for. -/
theorem pending_readArgument (hnone : given.pending = none) {scope : Scope} {text : String}
    {next : Given × Bool} (hescape : Argument.ofText text ≠ .escape)
    (h : readArgument scope given text = .ok next) :
    next.1.pending = (Argument.ofText text).asks?.map (·, none) ∧ next.2 = false := by
  unfold readArgument at h
  split at h
  · next htext => exact absurd htext hescape
  · next htext =>
    obtain ⟨_, htake, rfl⟩ := map_eq_ok h
    rw [htext]
    exact ⟨pending_takeLong hnone htake, rfl⟩
  · next htext =>
    obtain ⟨_, htake, rfl⟩ := map_eq_ok h
    rw [htext]
    exact ⟨pending_takeShorts hnone htake, rfl⟩
  · rw [isWaiting_of_settle (settle_of_none hnone)] at h
    cases h

/-! ## What the serials change -/

/-- The same with other serials. -/
def Given.withSerials (given : Given) (serials : List Serial) : Given :=
  { given with serials := serials }

/-- What is made of the value of another option does not depend on the serials. -/
theorem take_withSerials {value : ValueOption} (hvalue : value ≠ .serials) {text : String}
    {final : Given} (h : given.take value text = .ok final) (serials : List Serial) :
    (given.withSerials serials).take value text = .ok (final.withSerials serials) := by
  cases value with
  | serials => exact absurd rfl hvalue
  | programmer | devices | kind | appImage | netImage =>
    obtain ⟨chosen, hchosen, hfinal⟩ := bind_eq_ok h
    cases hfinal
    simp only [Given.take, Given.withSerials, hchosen]
    rfl

theorem giveFlag_withSerials (hnone : given.pending = none) {flag : FlagOption} {final : Given}
    (h : given.giveFlag flag = .ok final) (serials : List Serial) :
    (given.withSerials serials).giveFlag flag = .ok (final.withSerials serials) := by
  have hother : (given.withSerials serials).pending = none := hnone
  simp only [Given.giveFlag, settle_of_none hnone] at h
  simp only [Given.giveFlag, settle_of_none hother]
  cases flag with
  | verbose =>
    cases h
    rfl
  | sequential =>
    simp only [bind, Except.bind] at h
    split at h
    · cases h
    · next hsequential =>
      cases h
      exact if_neg hsequential
  | help => cases h
  | version => cases h

theorem giveValue_withSerials (hnone : given.pending = none) {value : ValueOption}
    (hvalue : value ≠ .serials) {attached : Option String} {final : Given}
    (h : given.giveValue value attached = .ok final) (serials : List Serial) :
    (given.withSerials serials).giveValue value attached = .ok (final.withSerials serials) := by
  have hother : (given.withSerials serials).pending = none := hnone
  rw [giveValue_of_none hnone] at h
  rw [giveValue_of_none hother]
  cases attached with
  | some text => exact take_withSerials hvalue h serials
  | none =>
    cases h
    rfl

theorem takeLong_withSerials (hnone : given.pending = none) {scope : Scope} {long : String}
    {attached : Option String} (hlong : (Argument.long long attached).givesSerials = false)
    {final : Given} (h : takeLong scope given long attached = .ok final)
    (serials : List Serial) :
    takeLong scope (given.withSerials serials) long attached =
      .ok (final.withSerials serials) := by
  unfold takeLong at h ⊢
  split at h
  · cases h
  · next value hvalue =>
    have hother : value ≠ .serials := by
      rintro rfl
      rw [Argument.givesSerials, (Option.filter_eq_some_iff.1 hvalue).1] at hlong
      cases hlong
    exact giveValue_withSerials hnone hother h serials
  · next flag hflag =>
    cases attached with
    | some text => cases h
    | none => exact giveFlag_withSerials hnone h serials

/-- No short option is that of the serials. -/
theorem ofShort?_ne_serials (short : Char) :
    OptionName.ofShort? short ≠ some (.value .serials) := by
  unfold OptionName.ofShort?
  split <;> nofun

theorem takeShorts_withSerials (hnone : given.pending = none) {scope : Scope}
    {shorts : List Char} {final : Given} (h : takeShorts scope given shorts = .ok final)
    (serials : List Serial) :
    takeShorts scope (given.withSerials serials) shorts = .ok (final.withSerials serials) := by
  induction shorts generalizing given with
  | nil =>
    cases h
    rfl
  | cons short rest ih =>
    unfold takeShorts at h ⊢
    split at h
    · cases h
    · next value hvalue =>
      have hother : value ≠ .serials := by
        rintro rfl
        exact ofShort?_ne_serials short (Option.filter_eq_some_iff.1 hvalue).1
      exact giveValue_withSerials hnone hother h serials
    · next flag hflag =>
      obtain ⟨middle, hmiddle, h⟩ := bind_eq_ok h
      rw [giveFlag_withSerials hnone hmiddle]
      exact ih (pending_giveFlag hmiddle) h

/-- Where nothing is pending, an argument that is not the option of the serials is read whatever
the serials. -/
theorem readArgument_withSerials (hnone : given.pending = none) {scope : Scope} {text : String}
    (htext : (Argument.ofText text).givesSerials = false) {next : Given × Bool}
    (h : readArgument scope given text = .ok next) (serials : List Serial) :
    readArgument scope (given.withSerials serials) text =
      .ok (next.1.withSerials serials, next.2) := by
  unfold readArgument at h ⊢
  cases hargument : Argument.ofText text with
  | escape =>
    rw [hargument] at h
    cases h
    rfl
  | long long attached =>
    rw [hargument] at h htext
    obtain ⟨_, htake, rfl⟩ := map_eq_ok h
    dsimp only
    rw [takeLong_withSerials hnone htext htake]
    rfl
  | shorts shorts =>
    rw [hargument] at h
    obtain ⟨_, htake, rfl⟩ := map_eq_ok h
    dsimp only
    rw [takeShorts_withSerials hnone htake]
    rfl
  | word word =>
    rw [hargument] at h
    dsimp only at h
    rw [isWaiting_of_settle (settle_of_none hnone)] at h
    cases h

/-! ## Options by themselves -/

/-- The arguments are an option other than the serials, with the argument that is its value if it
asks for one. Also a word that is no value counts, although it is always refused. -/
inductive Other : List String → Prop where
  | alone {text : String} (hescape : Argument.ofText text ≠ .escape)
      (hserials : (Argument.ofText text).givesSerials = false)
      (hasks : (Argument.ofText text).asks? = none) : Other [text]
  | valued {text value : String} {option : ValueOption}
      (hasks : (Argument.ofText text).asks? = some option) (hserials : option ≠ .serials) :
      Other [text, value]

/-- What an option comes to that is taken by itself, where nothing is pending. -/
inductive Takes (name : CommandName) (given : Given) : List String → Given → Prop where
  | alone {text : String} {final : Given} (hasks : (Argument.ofText text).asks? = none)
      (h : readArgument (.command name) given text = .ok (final, false)) :
      Takes name given [text] final
  | valued {text value : String} {option : ValueOption} {waiting final : Given}
      (hasks : (Argument.ofText text).asks? = some option)
      (h : readArgument (.command name) given text = .ok (waiting, false))
      (hvalue : Argument.ofText value = .word value)
      (htake : { waiting with pending := none }.take option value = .ok final) :
      Takes name given [text, value] final

theorem not_escape_of_readArgument {text : String} {scope : Scope} {final : Given}
    (h : readArgument scope given text = .ok (final, false)) :
    Argument.ofText text ≠ .escape := by
  intro hescape
  rw [readArgument, hescape] at h
  cases h

/-- An option that is taken leaves nothing pending. -/
theorem Takes.pending (hnone : given.pending = none) {option : List String} {final : Given}
    (h : Takes name given option final) : final.pending = none := by
  cases h with
  | alone hasks h =>
    rw [(pending_readArgument hnone (not_escape_of_readArgument h) h).1, hasks]
    rfl
  | valued hasks h hvalue htake => exact pending_take htake

/-- An option that asks for its value waits until it is supplied, and then the value is pending. -/
theorem settle_supply {waiting : Given} {option : ValueOption}
    (hwaiting : waiting.pending = some (option, none)) (value : String) :
    (waiting.supply value).settle = { waiting with pending := none }.take option value := by
  simp only [Given.supply, hwaiting, Given.settle]

theorem readArgument_of_waiting {waiting : Given} {option : ValueOption}
    (hwaiting : waiting.pending = some (option, none)) {value : String}
    (hvalue : Argument.ofText value = .word value) (scope : Scope) :
    readArgument scope waiting value = .ok (waiting.supply value, false) := by
  have hasks : waiting.isWaiting = true := by rw [Given.isWaiting, hwaiting]
  simp only [readArgument, hvalue, hasks, if_true]

/-- Behind an option that is taken the command line goes on with what it came to. -/
theorem Takes.finish (hnone : given.pending = none) {option : List String} {final : Given}
    (h : Takes name given option final) (rest : List String) :
    finish name given false (option ++ rest) = finish name final false rest := by
  cases h with
  | alone hasks h =>
    rw [List.singleton_append, finish_cons, h]
    rfl
  | @valued _ value option waiting _ hasks h hvalue htake =>
    have hwaiting : waiting.pending = some (option, none) := by
      rw [(pending_readArgument hnone (not_escape_of_readArgument h) h).1, hasks]
      rfl
    rw [List.cons_append, List.singleton_append, finish_cons, h]
    change CommandLine.finish name waiting false (value :: rest) = _
    rw [finish_cons, readArgument_of_waiting hwaiting hvalue]
    change CommandLine.finish name (waiting.supply value) false rest = _
    exact finish_of_settle ((settle_supply hwaiting value).trans htake) false rest

/-- In a command line that is accepted every option is taken. -/
theorem takes_of_finish (hnone : given.pending = none) {option rest : List String}
    (hoption : Other option) {final : Given}
    (h : finish name given false (option ++ rest) = .ok final) :
    ∃ taken, Takes name given option taken := by
  cases hoption with
  | alone hescape hserials hasks =>
    rw [List.singleton_append, finish_cons] at h
    obtain ⟨⟨taken, escaped⟩, hread, _⟩ := bind_eq_ok h
    obtain ⟨_, rfl⟩ := pending_readArgument hnone hescape hread
    exact ⟨taken, .alone hasks hread⟩
  | @valued text value option hasks hserials =>
    have hescape : Argument.ofText text ≠ .escape := by
      intro heq
      rw [heq] at hasks
      cases hasks
    rw [List.cons_append, List.singleton_append, finish_cons] at h
    obtain ⟨⟨waiting, escaped⟩, hread, h⟩ := bind_eq_ok h
    obtain ⟨hpending, rfl⟩ := pending_readArgument hnone hescape hread
    rw [hasks] at hpending
    have hwaiting : waiting.pending = some (option, none) := hpending
    have hunsettled : ∀ settled, waiting.settle ≠ .ok settled := by
      intro settled hsettle
      rw [settle_of_pending hwaiting] at hsettle
      cases hsettle
    -- What comes next has to be a word: an option would find this one without its value.
    dsimp only at h
    rw [finish_cons] at h
    obtain ⟨next, hvalue, h⟩ := bind_eq_ok h
    cases hargument : Argument.ofText value with
    | word word =>
      obtain rfl := eq_of_word hargument
      rw [readArgument_of_waiting hwaiting hargument] at hvalue
      cases hvalue
      have hsupplied : (waiting.supply word).isWaiting = false := by
        simp only [Given.supply, hwaiting, Given.isWaiting]
      obtain ⟨taken, htaken⟩ := settled_of_finish hsupplied h
      rw [settle_supply hwaiting] at htaken
      exact ⟨taken, .valued hasks hread hargument htaken⟩
    | escape =>
      simp only [readArgument, hargument] at hvalue
      cases hvalue
      exact absurd (settle_of_finish_escaped h) (hunsettled _)
    | long long attached =>
      simp only [readArgument, hargument] at hvalue
      obtain ⟨_, htake, _⟩ := map_eq_ok hvalue
      obtain ⟨settled, hsettle⟩ := settled_of_takeLong htake
      exact absurd hsettle (hunsettled settled)
    | shorts shorts =>
      simp only [readArgument, hargument] at hvalue
      obtain ⟨_, htake, _⟩ := map_eq_ok hvalue
      obtain ⟨settled, hsettle⟩ := settled_of_takeShorts (shorts_ne_nil hargument) htake
      exact absurd hsettle (hunsettled settled)

/-- An option other than the serials is taken whatever the serials. -/
theorem Takes.withSerials (hnone : given.pending = none) {option : List String} {final : Given}
    (hoption : Other option) (h : Takes name given option final) (serials : List Serial) :
    Takes name (given.withSerials serials) option (final.withSerials serials) := by
  cases h with
  | alone hasks h =>
    cases hoption with
    | alone hescape hserials _ =>
      exact .alone hasks (readArgument_withSerials hnone hserials h serials)
  | valued hasks h hvalue htake =>
    cases hoption with
    | valued hasks' hserials =>
      cases hasks.symm.trans hasks'
      have htext := givesSerials_of_asks? hasks hserials
      exact .valued hasks (readArgument_withSerials hnone htext h serials) hvalue
        (take_withSerials hserials htake serials)

end

end FlashFleet.CommandLine
