import FlashFleet.Backend.Registry
import FlashFleet.Proofs.Spelling
/-!
# Which texts open a backend

A text opens a backend if it has its name or its alias, and none of its options is one that
the backend cannot use: for the tool an empty path, for the simulated programmer a failure
that does not name an operation and spell a serial, or a delay that is no number. Options of
other keys are only noted.

## Main results

* `Dummy.readFailure_eq_ok_iff`, `Dummy.readDelay_eq_ok_iff` — which values of options are
  read.
* `wrong?_foldlM` — the first option that cannot be used decides.
* `Backend.openText_eq_error_iff` — which texts open no backend.
-/

namespace FlashFleet

/-! ## Values of options -/

theorem Operation.parse?_eq_some_iff {name : String} {operation : Operation} :
    parse? name = some operation ↔ name = operation.name := by
  constructor
  · intro h
    unfold parse? at h
    split at h
    · next hname => cases h; exact hname
    · split at h
      · next hname => cases h; exact hname
      · split at h
        · next hname => cases h; exact hname
        · split at h
          · next hname => cases h; exact hname
          · cases h
  · rintro rfl
    exact parse?_name operation

namespace Dummy

/-- A failure is the name of an operation and, behind an at sign, what spells a serial. -/
theorem readFailure_eq_ok_iff {value : String} {operation : Operation} {serial : Serial} :
    readFailure value = .ok (operation, serial) ↔
      ∃ text : String, value.toList = operation.name.toList ++ '@' :: text.toList ∧
        Serial.Spells text serial := by
  constructor
  · intro h
    unfold readFailure at h
    split at h
    · cases h
    · next name text hsplit =>
      obtain ⟨hvalue, _⟩ := Text.splitFirst_eq_some hsplit
      split at h
      · cases h
      · next probe hserial =>
        unfold readOperation at h
        split at h
        · next found hname =>
          cases h
          have hoperation := Operation.parse?_eq_some_iff.1 hname
          refine ⟨String.ofList text, ?_, Serial.parse_eq_ok_iff.1 hserial⟩
          rw [hvalue, ← hoperation, String.toList_ofList, String.toList_ofList]
        · cases h
  · rintro ⟨text, hvalue, hserial⟩
    have hname : '@' ∉ operation.name.toList := by cases operation <;> decide
    simp only [readFailure, hvalue, Text.splitFirst_append hname, String.ofList_toList,
      Serial.parse_eq_ok_iff.2 hserial, readOperation, Operation.parse?_name]
    rfl

/-- A delay is a number within the limit. -/
theorem readDelay_eq_ok_iff {value : String} {delay : Nat} :
    readDelay value = .ok delay ↔ Number.Signed 10 value.toList delay ∧ delay ≤ delayLimit := by
  rw [← Number.readWhole_eq_ok_iff (by decide)]
  unfold readDelay
  split
  · next found hfound => rw [hfound]; simp
  · next cause hcause => rw [hcause]; simp

end Dummy

/-! ## Options that cannot be used -/

namespace Dummy

/-- The value names no operation with a serial behind it. -/
def FailsNothing (value : String) : Prop :=
  ∀ (operation : Operation) (serial : Serial) (text : String),
    value.toList = operation.name.toList ++ '@' :: text.toList → ¬ Serial.Spells text serial

/-- The value is no number of milliseconds. -/
def DelaysNothing (value : String) : Prop :=
  ∀ delay ≤ delayLimit, ¬ Number.Signed 10 value.toList delay

theorem failsNothing_iff {value : String} :
    FailsNothing value ↔ ∃ error, readFailure value = .error error := by
  cases hread : readFailure value with
  | error error =>
    refine iff_of_true (fun operation serial text hvalue hspells => ?_) ⟨error, rfl⟩
    rw [readFailure_eq_ok_iff.2 ⟨text, hvalue, hspells⟩] at hread
    cases hread
  | ok failure =>
    obtain ⟨operation, serial⟩ := failure
    obtain ⟨text, hvalue, hspells⟩ := readFailure_eq_ok_iff.1 hread
    exact iff_of_false (fun h => h operation serial text hvalue hspells) nofun

theorem delaysNothing_iff {value : String} :
    DelaysNothing value ↔ ∃ error, readDelay value = .error error := by
  cases hread : readDelay value with
  | error error =>
    refine iff_of_true (fun delay hlimit hsigned => ?_) ⟨error, rfl⟩
    rw [readDelay_eq_ok_iff.2 ⟨hsigned, hlimit⟩] at hread
    cases hread
  | ok delay =>
    obtain ⟨hsigned, hlimit⟩ := readDelay_eq_ok_iff.1 hread
    exact iff_of_false (fun h => h delay hlimit hsigned) nofun

end Dummy

/-- The backend cannot be opened with an option of that key and value. -/
def Backend.Brand.Rejects : Brand → String × String → Prop
  | .nrfjprog, (key, value) => key = "path" ∧ value = ""
  | .dummy, (key, value) =>
    key = "fail" ∧ Dummy.FailsNothing value ∨ key = "delay" ∧ Dummy.DelaysNothing value

/-! ## One option after another -/

section Fold

variable {σ α ε : Type} {step : σ → α → Except ε σ}

/-- What is wrong, if anything is. -/
def wrong? : Except ε α → Option ε
  | .ok _ => none
  | .error error => some error

theorem wrong?_eq_some_iff {result : Except ε α} {error : ε} :
    wrong? result = some error ↔ result = .error error := by
  cases result <;> simp [wrong?]

theorem wrong?_eq_none_iff {result : Except ε α} :
    wrong? result = none ↔ ∃ value, result = .ok value := by
  cases result <;> simp [wrong?]

theorem isSome_wrong?_iff {result : Except ε α} :
    (wrong? result).isSome ↔ ∃ error, result = .error error := by
  cases result <;> simp [wrong?]

/-- If an entry is refused or not whatever the state, what is wrong with entries is what is wrong
with the first that is refused. -/
theorem wrong?_foldlM {objection? : α → Option ε}
    (h : ∀ state entry, wrong? (step state entry) = objection? entry) (state : σ)
    (entries : List α) : wrong? (entries.foldlM step state) = entries.findSome? objection? := by
  induction entries generalizing state with
  | nil => rfl
  | cons entry rest ih =>
    rw [List.foldlM_cons, List.findSome?_cons, ← h state]
    cases step state entry with
    | error error => rfl
    | ok next => exact ih next

end Fold

namespace Nrfjprog

/-- What one option makes of the tool. -/
def heed (tool : Nrfjprog) (option : String × String) : Except Error Nrfjprog :=
  if option.1 = "path" then
    if option.2 = "" then .error (.invalidParameter "path" "must not be empty")
    else .ok ⟨option.2⟩
  else .ok tool

theorem configure_eq_foldlM (tool : Nrfjprog) (options : List (String × String)) :
    (tool.configure options).2 = options.foldlM heed tool := by
  induction options generalizing tool with
  | nil => rfl
  | cons option rest ih =>
    obtain ⟨key, value⟩ := option
    rw [configure, List.foldlM_cons, heed]
    by_cases hkey : key = "path"
    · rw [if_pos hkey, if_pos hkey]
      by_cases hvalue : value = ""
      · rw [if_pos hvalue, if_pos hvalue]
        rfl
      · rw [if_neg hvalue, if_neg hvalue]
        exact ih _
    · rw [if_neg hkey, if_neg hkey]
      exact ih tool

/-- What is wrong with an option, if anything is. -/
def objection? (option : String × String) : Option Error :=
  if option.1 = "path" ∧ option.2 = "" then
    some (.invalidParameter "path" "must not be empty")
  else none

theorem wrong?_heed (tool : Nrfjprog) (option : String × String) :
    wrong? (tool.heed option) = objection? option := by
  rw [heed, objection?]
  by_cases hkey : option.1 = "path"
  · by_cases hvalue : option.2 = ""
    · rw [if_pos hkey, if_pos hvalue, if_pos ⟨hkey, hvalue⟩]
      rfl
    · rw [if_pos hkey, if_neg hvalue, if_neg fun h => hvalue h.2]
      rfl
  · rw [if_neg hkey, if_neg fun h => hkey h.1]
    rfl

theorem wrong?_configure (tool : Nrfjprog) (options : List (String × String)) :
    wrong? (tool.configure options).2 = options.findSome? objection? := by
  rw [configure_eq_foldlM]
  exact wrong?_foldlM wrong?_heed tool options

theorem isSome_objection?_iff {option : String × String} :
    (objection? option).isSome ↔ Backend.Brand.nrfjprog.Rejects option := by
  rw [objection?]
  split
  · next h => exact iff_of_true rfl h
  · next h => exact iff_of_false nofun h

/-- The tool is not configured exactly when an option is rejected. -/
theorem configure_eq_error_iff (tool : Nrfjprog) {options : List (String × String)} :
    (∃ error, (tool.configure options).2 = .error error) ↔
      ∃ option ∈ options, Backend.Brand.nrfjprog.Rejects option := by
  rw [← isSome_wrong?_iff, wrong?_configure, List.findSome?_isSome_iff]
  simp only [isSome_objection?_iff]

end Nrfjprog

namespace Dummy

/-- What one option makes of the simulated programmer. -/
def heed (dummy : Dummy) (option : String × String) : Except Error Dummy :=
  if option.1 = "fail" then
    (readFailure option.2).map fun failure => dummy.withFailure failure.1 failure.2
  else if option.1 = "delay" then
    (readDelay option.2).map fun delay => { dummy with delay := delay }
  else .ok dummy

theorem configure_eq_foldlM (dummy : Dummy) (options : List (String × String)) :
    (dummy.configure options).2 = options.foldlM heed dummy := by
  induction options generalizing dummy with
  | nil => rfl
  | cons option rest ih =>
    obtain ⟨key, value⟩ := option
    rw [configure, List.foldlM_cons, heed]
    by_cases hfail : key = "fail"
    · rw [if_pos hfail, if_pos hfail]
      cases readFailure value with
      | error error => rfl
      | ok failure => exact ih _
    · rw [if_neg hfail, if_neg hfail]
      by_cases hdelay : key = "delay"
      · rw [if_pos hdelay, if_pos hdelay]
        cases readDelay value with
        | error error => rfl
        | ok delay => exact ih _
      · rw [if_neg hdelay, if_neg hdelay]
        exact ih dummy

/-- What is wrong with an option, if anything is. -/
def objection? (option : String × String) : Option Error :=
  if option.1 = "fail" then wrong? (readFailure option.2)
  else if option.1 = "delay" then wrong? (readDelay option.2)
  else none

theorem wrong?_heed (dummy : Dummy) (option : String × String) :
    wrong? (dummy.heed option) = objection? option := by
  rw [heed, objection?]
  by_cases hfail : option.1 = "fail"
  · rw [if_pos hfail, if_pos hfail]
    cases readFailure option.2 <;> rfl
  · rw [if_neg hfail, if_neg hfail]
    by_cases hdelay : option.1 = "delay"
    · rw [if_pos hdelay, if_pos hdelay]
      cases readDelay option.2 <;> rfl
    · rw [if_neg hdelay, if_neg hdelay]
      rfl

theorem wrong?_configure (dummy : Dummy) (options : List (String × String)) :
    wrong? (dummy.configure options).2 = options.findSome? objection? := by
  rw [configure_eq_foldlM]
  exact wrong?_foldlM wrong?_heed dummy options

theorem isSome_objection?_iff {option : String × String} :
    (objection? option).isSome ↔ Backend.Brand.dummy.Rejects option := by
  obtain ⟨key, value⟩ := option
  have hrejects : Backend.Brand.dummy.Rejects (key, value) ↔
      (key = "fail" ∧ (wrong? (readFailure value)).isSome) ∨
        (key = "delay" ∧ (wrong? (readDelay value)).isSome) := by
    rw [isSome_wrong?_iff, isSome_wrong?_iff, ← failsNothing_iff, ← delaysNothing_iff]
    exact Iff.rfl
  rw [hrejects, objection?]
  by_cases hfail : key = "fail"
  · simp [hfail]
  · by_cases hdelay : key = "delay" <;> simp [hfail, hdelay]

/-- The simulated programmer is not configured exactly when an option is rejected. -/
theorem configure_eq_error_iff (dummy : Dummy) {options : List (String × String)} :
    (∃ error, (dummy.configure options).2 = .error error) ↔
      ∃ option ∈ options, Backend.Brand.dummy.Rejects option := by
  rw [← isSome_wrong?_iff, wrong?_configure, List.findSome?_isSome_iff]
  simp only [isSome_objection?_iff]

end Dummy

/-! ## Texts -/

namespace Backend

/-- A backend goes by its name and its aliases. -/
def Brand.GoesBy (brand : Brand) (name : String) : Prop :=
  name = brand.name ∨ name ∈ brand.aliases

theorem Brand.find?_eq_some_iff {name : String} {brand : Brand} :
    find? name = some brand ↔ brand.GoesBy name := by
  constructor
  · intro h
    have hmatches := List.find?_some h
    simp only [Bool.or_eq_true, beq_iff_eq, List.contains_iff_mem] at hmatches
    exact hmatches.imp Eq.symm id
  · rintro (rfl | hname)
    · exact find?_name brand
    · exact find?_alias hname

/-- The text opens no backend: its name is none, or an option is rejected. -/
inductive Unopened (text : String) : Prop where
  | unknown (h : ∀ brand : Brand, ¬ brand.GoesBy (Choice.parse text).name)
  | option {brand : Brand} {option : String × String}
      (hname : brand.GoesBy (Choice.parse text).name)
      (hoption : option ∈ (Choice.parse text).options) (h : brand.Rejects option)

/-- Which texts open no backend. -/
theorem openText_eq_error_iff {text : String} :
    (∃ error, (openText text).2 = .error error) ↔ Unopened text := by
  unfold openText openChoice
  generalize hchoice : Choice.parse text = choice
  cases hbrand : Brand.find? choice.name with
  | none =>
    refine iff_of_true ⟨_, rfl⟩ (.unknown fun brand hgoes => ?_)
    rw [hchoice, ← Brand.find?_eq_some_iff, hbrand] at hgoes
    cases hgoes
  | some brand =>
    have hgoes := Brand.find?_eq_some_iff.1 hbrand
    have hrejected : Unopened text ↔ ∃ option ∈ choice.options, brand.Rejects option := by
      constructor
      · intro h
        cases h with
        | unknown h => exact absurd (hchoice ▸ hgoes) (h brand)
        | option hname hoption h =>
          rw [hchoice] at hname hoption
          cases hbrand.symm.trans (Brand.find?_eq_some_iff.2 hname)
          exact ⟨_, hoption, h⟩
      · rintro ⟨option, hoption, h⟩
        exact .option (hchoice ▸ hgoes) (hchoice ▸ hoption) h
    rw [hrejected]
    cases brand with
    | nrfjprog =>
      rw [← Nrfjprog.configure_eq_error_iff {}]
      simp only [openNrfjprog, Nrfjprog.ofOptions]
      cases (Nrfjprog.configure {} choice.options).2 <;> simp
    | dummy =>
      rw [← Dummy.configure_eq_error_iff {}]
      simp only [openDummy, Dummy.ofOptions]
      cases (Dummy.configure {} choice.options).2 <;> simp

end Backend

end FlashFleet
