import FlashFleet.Proofs.Choices
/-!
# What opening a text comes to

Between a slip on the command line and a run with the wrong backend stands only the opening of
the text that names it. A text opens a backend under one of its names if the options that the
backend heeds can be used. It heeds few keys, and what stands under others is only noted. Of
options with the same key the tool takes the last, and launches what stands there to the
letter.

## Main results

* `Choice.lastOf?_cons` — the last option of a key, from the first option on.
* `Nrfjprog.configure_eq_ok_iff` — how options leave the tool.
* `Brand.opens_heeded` — options that a backend does not heed change nothing.
* `opening_decided` — which texts open a backend, and what else is true of opening.
-/

namespace FlashFleet

open Backend

/-! ## The last option of a key -/

namespace Backend.Choice

/-- The value that the last option of a key has. -/
def lastOf? (key : String) (options : List (String × String)) : Option String :=
  options.reverse.lookup key

theorem lastOf?_append (key : String) (options more : List (String × String)) :
    lastOf? key (options ++ more) = (lastOf? key more).or (lastOf? key options) := by
  rw [lastOf?, List.reverse_append, List.lookup_append]
  rfl

/-- A first option counts if no other of its key comes behind it. -/
theorem lastOf?_cons (key : String) (option : String × String)
    (rest : List (String × String)) :
    lastOf? key (option :: rest) =
      (lastOf? key rest).or (if option.1 = key then some option.2 else none) := by
  have hfirst : lastOf? key [option] = if option.1 = key then some option.2 else none := by
    show List.lookup key [(option.1, option.2)] = _
    by_cases hkey : option.1 = key
    · rw [if_pos hkey, hkey, List.lookup_cons_self]
    · rw [if_neg hkey, List.lookup_cons, beq_false_of_ne (Ne.symm hkey)]
      rfl
  rw [← List.singleton_append, lastOf?_append, hfirst]

theorem lastOf?_eq_none_iff {key : String} {options : List (String × String)} :
    lastOf? key options = none ↔ ∀ value, (key, value) ∉ options := by
  simp only [lastOf?, List.lookup_eq_none_iff, List.mem_reverse, bne_iff_ne, Prod.forall]
  constructor
  · exact fun h value hvalue => h key value hvalue rfl
  · rintro h other value hvalue rfl
    exact h value hvalue

/-- Options of other keys do not count. -/
theorem lastOf?_filter (key : String) (options : List (String × String)) :
    lastOf? key (options.filter fun option => option.1 = key) = lastOf? key options := by
  induction options with
  | nil => rfl
  | cons option rest ih =>
    rw [lastOf?_cons]
    by_cases hkey : option.1 = key
    · rw [List.filter_cons_of_pos (by simpa using hkey), lastOf?_cons, ih]
    · rw [List.filter_cons_of_neg (by simpa using hkey), ih, if_neg hkey, Option.or_none]

end Backend.Choice

/-! ## Options that are heeded -/

namespace Backend.Brand

/-- The keys that a backend heeds. -/
def keys : Brand → List String
  | .nrfjprog => ["path"]
  | .dummy => ["fail", "delay"]

/-- The options that a backend heeds. -/
def heeded (brand : Brand) (options : List (String × String)) : List (String × String) :=
  options.filter fun option => option.1 ∈ brand.keys

end Backend.Brand

/-- Entries that leave every state as it is can be left out. -/
theorem foldlM_filter {σ α ε : Type} {step : σ → α → Except ε σ} {keep : α → Bool}
    (h : ∀ state entry, ¬ keep entry = true → step state entry = .ok state) (state : σ)
    (entries : List α) : (entries.filter keep).foldlM step state = entries.foldlM step state := by
  induction entries generalizing state with
  | nil => rfl
  | cons entry rest ih =>
    by_cases hkeep : keep entry = true
    · rw [List.filter_cons_of_pos hkeep, List.foldlM_cons, List.foldlM_cons]
      cases step state entry with
      | error error => rfl
      | ok next => exact ih next
    · rw [List.filter_cons_of_neg hkeep, List.foldlM_cons, h state entry hkeep]
      exact ih state

/-- To the tool only the options count that it heeds. -/
theorem Nrfjprog.configure_heeded (tool : Nrfjprog) (options : List (String × String)) :
    (tool.configure (Brand.nrfjprog.heeded options)).2 = (tool.configure options).2 := by
  rw [configure_eq_foldlM, configure_eq_foldlM]
  refine foldlM_filter (fun tool option hkeep => ?_) tool options
  have hkey : option.1 ≠ "path" := by simpa [Brand.keys] using hkeep
  rw [heed, if_neg hkey]

/-- So it is with the simulated programmer. -/
theorem Dummy.configure_heeded (dummy : Dummy) (options : List (String × String)) :
    (dummy.configure (Brand.dummy.heeded options)).2 = (dummy.configure options).2 := by
  rw [configure_eq_foldlM, configure_eq_foldlM]
  refine foldlM_filter (fun dummy option hkeep => ?_) dummy options
  have hkeys : option.1 ≠ "fail" ∧ option.1 ≠ "delay" := by simpa [Brand.keys] using hkeep
  rw [heed, if_neg hkeys.1, if_neg hkeys.2]

/-! ## What the backends accept -/

namespace Nrfjprog

theorem path_of_heed {tool next : Nrfjprog} {option : String × String}
    (h : tool.heed option = .ok next) :
    next.path = (if option.1 = "path" then some option.2 else none).getD tool.path := by
  rw [heed] at h
  by_cases hkey : option.1 = "path"
  · rw [if_pos hkey] at h
    by_cases hvalue : option.2 = ""
    · rw [if_pos hvalue] at h
      cases h
    · rw [if_neg hvalue] at h
      cases h
      rw [if_pos hkey]
      rfl
  · rw [if_neg hkey] at h
    cases h
    rw [if_neg hkey]
    rfl

/-- The path that options leave is the last one among them. -/
theorem path_of_configure {tool result : Nrfjprog} {options : List (String × String)}
    (h : (tool.configure options).2 = .ok result) :
    result.path = (Choice.lastOf? "path" options).getD tool.path := by
  rw [configure_eq_foldlM] at h
  induction options generalizing tool with
  | nil =>
    cases h
    rfl
  | cons option rest ih =>
    rw [List.foldlM_cons] at h
    cases hheed : tool.heed option with
    | error error =>
      rw [hheed] at h
      cases h
    | ok next =>
      rw [hheed] at h
      rw [ih h, path_of_heed hheed, Choice.lastOf?_cons]
      cases Choice.lastOf? "path" rest <;> rfl

/-- How options leave the tool: none of the paths may be empty, and the last one counts. -/
theorem configure_eq_ok_iff (tool : Nrfjprog) {options : List (String × String)}
    {result : Nrfjprog} :
    (tool.configure options).2 = .ok result ↔
      (∀ value, ("path", value) ∈ options → value ≠ "") ∧
        result = ⟨(Choice.lastOf? "path" options).getD tool.path⟩ := by
  have hpaths : (∃ result, (tool.configure options).2 = .ok result) ↔
      ∀ value, ("path", value) ∈ options → value ≠ "" := by
    rw [← wrong?_eq_none_iff, wrong?_configure, List.findSome?_eq_none_iff]
    simp only [objection?, ite_eq_right_iff, reduceCtorEq, imp_false, not_and, Prod.forall]
    constructor
    · exact fun h value hvalue => h "path" value hvalue rfl
    · rintro h key value hvalue rfl
      exact h value hvalue
  constructor
  · intro h
    exact ⟨hpaths.1 ⟨result, h⟩, congrArg Nrfjprog.mk (path_of_configure h)⟩
  · rintro ⟨hvalues, rfl⟩
    obtain ⟨result, hresult⟩ := hpaths.2 hvalues
    rw [hresult, ← path_of_configure hresult]

end Nrfjprog

namespace Dummy

/-- The value says which operation fails on which serial: the one stands before the at sign,
of which its name has none, and what is read as the other behind it. -/
def Fails (value : String) (operation : Operation) (serial : Serial) : Prop :=
  ∃ text : String, value.toList = operation.name.toList ++ '@' :: text.toList ∧
    Serial.parse text = .ok serial

theorem readFailure_eq_ok_iff_fails {value : String} {operation : Operation} {serial : Serial} :
    readFailure value = .ok (operation, serial) ↔ Fails value operation serial := by
  simp only [readFailure_eq_ok_iff, Fails, Serial.parse_eq_ok_iff]

theorem not_failsNothing_iff {value : String} :
    ¬ FailsNothing value ↔ ∃ operation serial, Fails value operation serial := by
  rw [failsNothing_iff]
  cases hread : readFailure value with
  | error error => simp [← readFailure_eq_ok_iff_fails, hread]
  | ok failure =>
    exact iff_of_true nofun
      ⟨failure.1, failure.2, readFailure_eq_ok_iff_fails.1 hread⟩

theorem not_delaysNothing_iff {value : String} :
    ¬ DelaysNothing value ↔ ∃ delay < UInt64.size, Number.Signed 10 value.toList delay := by
  have hlimit : ∀ delay, delay ≤ delayLimit ↔ delay < UInt64.size := fun delay => by
    rw [delayLimit, UInt64.size]
    omega
  simp only [DelaysNothing, hlimit, not_forall, not_not, exists_prop]

end Dummy

namespace Backend

/-- A backend can be opened for the choice: it goes by its name, and the options that it heeds
can be used. -/
inductive Accepted (choice : Choice) : Prop where
  | nrfjprog (hname : choice.name = "nrfjprog" ∨ choice.name = "jlink")
      (hpath : ∀ value, ("path", value) ∈ choice.options → value ≠ "")
  | dummy (hname : choice.name = "dummy" ∨ choice.name = "dry-run")
      (hfail : ∀ value, ("fail", value) ∈ choice.options →
        ∃ operation serial, Dummy.Fails value operation serial)
      (hdelay : ∀ value, ("delay", value) ∈ choice.options →
        ∃ delay < UInt64.size, Number.Signed 10 value.toList delay)

theorem Brand.goesBy_nrfjprog {name : String} :
    Brand.nrfjprog.GoesBy name ↔ name = "nrfjprog" ∨ name = "jlink" :=
  or_congr_right List.mem_singleton

theorem Brand.goesBy_dummy {name : String} :
    Brand.dummy.GoesBy name ↔ name = "dummy" ∨ name = "dry-run" :=
  or_congr_right List.mem_singleton

theorem not_unopened_iff {text : String} :
    ¬ Unopened text ↔ ∃ brand : Brand, brand.GoesBy (Choice.parse text).name ∧
      ∀ option ∈ (Choice.parse text).options, ¬ brand.Rejects option := by
  constructor
  · intro h
    by_cases hname : ∃ brand : Brand, brand.GoesBy (Choice.parse text).name
    · obtain ⟨brand, hgoes⟩ := hname
      exact ⟨brand, hgoes, fun option hoption hrejects => h (.option hgoes hoption hrejects)⟩
    · exact absurd (.unknown fun brand hgoes => hname ⟨brand, hgoes⟩) h
  · rintro ⟨brand, hgoes, hoptions⟩ hunopened
    cases hunopened with
    | unknown hnone => exact hnone brand hgoes
    | @option other option hother hoption hrejects =>
      have hsame : other = brand := by
        rw [← Brand.find?_eq_some_iff] at hother hgoes
        exact Option.some.inj (hother.symm.trans hgoes)
      rw [hsame] at hrejects
      exact hoptions option hoption hrejects

/-- A backend is opened for the choices that are accepted. -/
theorem openText_eq_ok_iff {text : String} :
    (∃ opened, (openText text).2 = .ok opened) ↔ Accepted (Choice.parse text) := by
  have hresult : (∃ opened, (openText text).2 = .ok opened) ↔ ¬ Unopened text := by
    rw [← openText_eq_error_iff]
    cases (openText text).2 <;> simp
  rw [hresult, not_unopened_iff]
  constructor
  · rintro ⟨brand, hgoes, hoptions⟩
    cases brand with
    | nrfjprog =>
      refine .nrfjprog (Brand.goesBy_nrfjprog.1 hgoes) fun value hvalue hempty => ?_
      exact hoptions _ hvalue ⟨rfl, hempty⟩
    | dummy =>
      refine .dummy (Brand.goesBy_dummy.1 hgoes) (fun value hvalue => ?_) fun value hvalue => ?_
      · exact Dummy.not_failsNothing_iff.1 fun h => hoptions _ hvalue (.inl ⟨rfl, h⟩)
      · exact Dummy.not_delaysNothing_iff.1 fun h => hoptions _ hvalue (.inr ⟨rfl, h⟩)
  · intro h
    cases h with
    | nrfjprog hname hpath =>
      refine ⟨.nrfjprog, Brand.goesBy_nrfjprog.2 hname, ?_⟩
      rintro ⟨key, value⟩ hoption ⟨rfl, hempty⟩
      exact hpath value hoption hempty
    | dummy hname hfail hdelay =>
      refine ⟨.dummy, Brand.goesBy_dummy.2 hname, ?_⟩
      rintro ⟨key, value⟩ hoption (⟨rfl, hnothing⟩ | ⟨rfl, hnothing⟩)
      · exact Dummy.not_failsNothing_iff.2 (hfail value hoption) hnothing
      · exact Dummy.not_delaysNothing_iff.2 (hdelay value hoption) hnothing

/-! ## What else is true of opening -/

/-- Opens a backend of a kind. -/
def Brand.opens : Brand → List (String × String) → List LogRecord × Except OpenError Opened
  | .nrfjprog => openNrfjprog
  | .dummy => openDummy

/-- Under either of its names a backend is opened with the options alone. -/
theorem Brand.GoesBy.openText {brand : Brand} {text : String}
    (h : brand.GoesBy (Choice.parse text).name) :
    openText text = brand.opens (Choice.parse text).options := by
  have hfound := Brand.find?_eq_some_iff.2 h
  cases brand <;> simp only [Backend.openText, openChoice, hfound, Brand.opens]

/-- What is opened depends on the options that the backend heeds. -/
theorem Brand.opens_heeded (brand : Brand) (options : List (String × String)) :
    (brand.opens (brand.heeded options)).2 = (brand.opens options).2 := by
  cases brand with
  | nrfjprog =>
    have hsame := Nrfjprog.configure_heeded {} options
    simp only [Brand.opens, openNrfjprog, Nrfjprog.ofOptions]
    rw [hsame]
    cases (Nrfjprog.configure {} options).2 <;> rfl
  | dummy =>
    have hsame := Dummy.configure_heeded {} options
    simp only [Brand.opens, openDummy, Dummy.ofOptions]
    rw [hsame]
    cases (Dummy.configure {} options).2 <;> rfl

theorem openNrfjprog_eq_ok_iff {options : List (String × String)} {opened : Opened} :
    (openNrfjprog options).2 = .ok opened ↔
      (∀ value, ("path", value) ∈ options → value ≠ "") ∧
        opened = .nrfjprog ⟨(Choice.lastOf? "path" options).getD "nrfjprog"⟩ := by
  have hconfigured := @Nrfjprog.configure_eq_ok_iff {} options
  simp only [openNrfjprog, Nrfjprog.ofOptions]
  cases hresult : (Nrfjprog.configure {} options).2 with
  | error error =>
    simp only [hresult, reduceCtorEq, false_iff] at hconfigured
    simp only [reduceCtorEq, false_iff]
    exact fun h => hconfigured ⟨h.1, rfl⟩
  | ok tool =>
    obtain ⟨hpaths, htool⟩ := hconfigured.1 hresult
    simp only [Except.ok.injEq, htool, and_iff_right hpaths]
    exact eq_comm

/-- Every invocation of what was opened is a launch of the path, with the arguments for it, and
succeeds if the launch ends with exit code 0. -/
structure Opened.Launches (opened : Opened) (path : String) : Prop where
  launches : ∀ calls : List Invocation,
    opened.launches calls = calls.map fun call => (path, Nrfjprog.arguments call)
  succeeds : ∀ (launcher : Launcher) (past : List Invocation) (call : Invocation),
    ((opened.programmer launcher).respond past call).outcome = .succeeded ↔
      launcher path (Nrfjprog.arguments call) = .ok (some 0)

theorem Opened.launches_nrfjprog (path : String) :
    (Opened.nrfjprog ⟨path⟩).Launches path where
  launches _ := rfl
  succeeds launcher past call := by
    simp only [Opened.programmer, Nrfjprog.programmer, Nrfjprog.respond, Nrfjprog.launch]
    cases launcher path (Nrfjprog.arguments call) with
    | error refusal => simp
    | ok code => by_cases hcode : code = some 0 <;> simp [hcode]

/-- What opening a text comes to. -/
structure Decided (text : String) : Prop where
  /-- A backend is opened for the choices that are accepted. -/
  accepted : (∃ opened, (openText text).2 = .ok opened) ↔ Accepted (Choice.parse text)
  /-- Under another name there is none, whatever the options. -/
  unknown : (Choice.parse text).name ∉ ["nrfjprog", "jlink", "dummy", "dry-run"] →
    openText text = ([], .error (.unknown (Choice.parse text).name))
  /-- It makes no difference by which of its names the backend goes. -/
  named : ∀ (brand : Brand) (other : String), brand.GoesBy (Choice.parse text).name →
    brand.GoesBy (Choice.parse other).name →
    (Choice.parse other).options = (Choice.parse text).options → openText other = openText text
  /-- Options of keys that the backend does not heed make no difference to what is opened. -/
  heeded : ∀ (brand : Brand) (other : String), brand.GoesBy (Choice.parse text).name →
    brand.GoesBy (Choice.parse other).name →
    brand.heeded (Choice.parse other).options = brand.heeded (Choice.parse text).options →
    (openText other).2 = (openText text).2
  /-- What is launched is what the last path says, or the tool's own name. -/
  launched : ∀ opened, (openText text).2 = .ok opened →
    (Choice.parse text).name = "nrfjprog" ∨ (Choice.parse text).name = "jlink" →
    opened.Launches ((Choice.lastOf? "path" (Choice.parse text).options).getD "nrfjprog")

theorem decided (text : String) : Decided text where
  accepted := openText_eq_ok_iff
  unknown := by
    intro hname
    have hnone : Brand.find? (Choice.parse text).name = none := by
      cases hfound : Brand.find? (Choice.parse text).name with
      | none => rfl
      | some brand =>
        have hgoes := Brand.find?_eq_some_iff.1 hfound
        refine absurd ?_ hname
        cases brand with
        | nrfjprog => rcases Brand.goesBy_nrfjprog.1 hgoes with heq | heq <;> simp [heq]
        | dummy => rcases Brand.goesBy_dummy.1 hgoes with heq | heq <;> simp [heq]
    simp only [openText, openChoice, hnone]
  named := by
    intro brand other hgoes hother hoptions
    rw [hgoes.openText, hother.openText, hoptions]
  heeded := by
    intro brand other hgoes hother hoptions
    rw [hgoes.openText, hother.openText, ← brand.opens_heeded, hoptions, brand.opens_heeded]
  launched := by
    intro opened hopened hname
    rw [(Brand.goesBy_nrfjprog.2 hname).openText] at hopened
    rw [(openNrfjprog_eq_ok_iff.1 hopened).2]
    exact Opened.launches_nrfjprog _

/-- Which texts open a backend, and what is opened. A path that is written last is launched to
the letter, so colons and equals signs are part of it. -/
theorem opening_decided :
    (∀ text : String, Decided text) ∧
      ∀ (name : String) (earlier : List (String × String)) (path : String),
        name = "nrfjprog" ∨ name = "jlink" → path ≠ "" →
        (∀ value, ("path", value) ∈ earlier → value ≠ "") →
        Choice.Writable ⟨name, earlier ++ [("path", path)]⟩ →
        (openText (Choice.render ⟨name, earlier ++ [("path", path)]⟩)).2 =
          .ok (.nrfjprog ⟨path⟩) := by
  refine ⟨decided, fun name earlier path hname hpath hearlier hwritable => ?_⟩
  have hparse := hwritable.parse_render
  have hgoes : Brand.nrfjprog.GoesBy
      (Choice.parse (Choice.render ⟨name, earlier ++ [("path", path)]⟩)).name := by
    rw [hparse]
    exact Brand.goesBy_nrfjprog.2 hname
  rw [hgoes.openText, hparse]
  refine openNrfjprog_eq_ok_iff.2 ⟨fun value hvalue => ?_, ?_⟩
  · rcases List.mem_append.1 hvalue with hbefore | hlast
    · exact hearlier value hbefore
    · cases List.mem_singleton.1 hlast
      exact hpath
  · rw [Choice.lastOf?_append]
    rfl

/-- A slip in a name opens nothing and a slip in a key goes unheeded. The other name of the tool
does the same, without a path the tool goes by its own name, and with two the last one counts,
to the letter. -/
theorem opening_decided_slips :
    openText "dumy:delay=5" = ([], .error (.unknown "dumy")) ∧
      (openText "dummy:dealy=5").2 = (openText "dummy").2 ∧
      openText "jlink:path=/a" = openText "nrfjprog:path=/a" ∧
      (∀ opened, (openText "jlink:color=red").2 = .ok opened → opened.Launches "nrfjprog") ∧
      (openText "nrfjprog:path=/a,path=C:/b=c").2 = .ok (.nrfjprog ⟨"C:/b=c"⟩) := by
  have hunknown := (opening_decided.1 "dumy:delay=5").unknown
  have hheeded := (opening_decided.1 "dummy").heeded .dummy "dummy:dealy=5"
  have hnamed := (opening_decided.1 "nrfjprog:path=/a").named .nrfjprog "jlink:path=/a"
  have hlaunched := (opening_decided.1 "jlink:color=red").launched
  have hlast := opening_decided.2 "nrfjprog" [("path", "/a")] "C:/b=c" (.inl rfl) (by decide)
    (fun value hvalue => by cases List.mem_singleton.1 hvalue; decide)
    ⟨by decide +kernel, by decide +kernel, by decide +kernel⟩
  have hdumy : Choice.parse "dumy:delay=5" = ⟨"dumy", [("delay", "5")]⟩ := by decide +kernel
  have hdummy : Choice.parse "dummy" = ⟨"dummy", []⟩ := by decide +kernel
  have hdealy : Choice.parse "dummy:dealy=5" = ⟨"dummy", [("dealy", "5")]⟩ := by decide +kernel
  have htool : Choice.parse "nrfjprog:path=/a" = ⟨"nrfjprog", [("path", "/a")]⟩ := by
    decide +kernel
  have hlink : Choice.parse "jlink:path=/a" = ⟨"jlink", [("path", "/a")]⟩ := by decide +kernel
  have hred : Choice.parse "jlink:color=red" = ⟨"jlink", [("color", "red")]⟩ := by
    decide +kernel
  have hwritten : Choice.render ⟨"nrfjprog", [("path", "/a"), ("path", "C:/b=c")]⟩ =
      "nrfjprog:path=/a,path=C:/b=c" := by
    decide +kernel
  rw [hdumy] at hunknown
  rw [hdummy, hdealy] at hheeded
  rw [htool, hlink] at hnamed
  rw [hred] at hlaunched
  rw [List.singleton_append, hwritten] at hlast
  exact ⟨hunknown (by decide), hheeded (.inl rfl) (.inl rfl) (by decide),
    hnamed (.inl rfl) (.inr (by decide)) rfl, fun opened hopened => hlaunched opened hopened
      (.inr rfl), hlast⟩

end Backend

end FlashFleet
