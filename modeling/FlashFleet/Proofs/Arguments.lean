import FlashFleet.Backend.Nrfjprog
/-!
# What the tool is told

An invocation reaches the tool as a list of arguments and nothing else. The list is read from
left to right: an argument that takes a value takes the next one, whatever that looks like, so
an image whose path is the word for another option is still an image. Numbers are in decimal,
each in one way only. So an invocation can be read back from its arguments, and no two have the
same.

## Main results

* `word?_eq_some_iff` — a word is known by its decimal digits.
* `flatMap_readArguments` — reading arguments loses none of them.
* `decode?_eq_some_iff` — what is read as an invocation are its arguments.
* `arguments_unambiguous` — arguments tell the invocation, and the probe.
-/

namespace FlashFleet.Nrfjprog

/-! ## Values -/

/-- The word that is written as the text. -/
def word? (text : String) : Option UInt32 :=
  let word := UInt32.ofNat (Nat.ofDigitChars 10 text.toList 0)
  if decimal word = text then some word else none

/-- A word is known by its decimal digits. -/
theorem word?_eq_some_iff {text : String} {word : UInt32} :
    word? text = some word ↔ text = decimal word := by
  constructor
  · intro h
    obtain ⟨htext, hword⟩ := Option.ite_none_right_eq_some.1 h
    rw [← Option.some.inj hword]
    exact htext.symm
  · rintro rfl
    have hdigits : Nat.ofDigitChars 10 (decimal word).toList 0 = word.toNat := by
      show Nat.ofDigitChars 10 word.toNat.repr.toList 0 = word.toNat
      rw [Nat.toList_repr, Nat.ofDigitChars_ten_toDigits]
    rw [word?, hdigits, UInt32.ofNat_toNat]
    exact if_pos rfl

/-- The way of erasing that an argument stands for. -/
def erase? (text : String) : Option Erase :=
  if text = "--sectorerase" then some .sectors
  else if text = "--chiperase" then some .chip
  else none

theorem erase?_eq_some_iff {text : String} {erase : Erase} :
    erase? text = some erase ↔ text = eraseArgument erase := by
  constructor
  · intro h
    unfold erase? at h
    by_cases hsectors : text = "--sectorerase"
    · rw [if_pos hsectors] at h
      cases h
      exact hsectors
    · rw [if_neg hsectors] at h
      obtain ⟨hchip, heq⟩ := Option.ite_none_right_eq_some.1 h
      cases heq
      exact hchip
  · rintro rfl
    cases erase <;> decide

/-- The core that an argument stands for. -/
def core? (text : String) : Option Core :=
  if text = "CP_APPLICATION" then some .application
  else if text = "CP_NETWORK" then some .network
  else none

theorem core?_eq_some_iff {text : String} {core : Core} :
    core? text = some core ↔ text = coreArgument core := by
  constructor
  · intro h
    unfold core? at h
    by_cases happlication : text = "CP_APPLICATION"
    · rw [if_pos happlication] at h
      cases h
      exact happlication
    · rw [if_neg happlication] at h
      obtain ⟨hnetwork, heq⟩ := Option.ite_none_right_eq_some.1 h
      cases heq
      exact hnetwork
  · rintro rfl
    cases core <;> decide

/-! ## Options -/

/-- The arguments that take the next one as their value. -/
def valued : List String := ["--program", "-f", "--snr", "--coprocessor", "--memwr", "--val"]

/-- Arguments from left to right, each with its value if it takes one. -/
def readArguments : List String → List (String × Option String)
  | [] => []
  | [word] => [(word, none)]
  | word :: value :: rest =>
    if word ∈ valued then (word, some value) :: readArguments rest
    else (word, none) :: readArguments (value :: rest)

/-- Reading arguments loses none of them. -/
theorem flatMap_readArguments (arguments : List String) :
    ((readArguments arguments).flatMap fun option => option.1 :: option.2.toList) = arguments := by
  fun_induction readArguments arguments with
  | case1 => rfl
  | case2 word => rfl
  | case3 word value rest _ ih => rw [List.flatMap_cons, ih]; rfl
  | case4 word value rest _ ih => rw [List.flatMap_cons, ih]; rfl

/-- The probe that a list of arguments addresses. -/
def addressed? (arguments : List String) : Option Serial :=
  ((readArguments arguments).lookup "--snr").join.bind word?

/-- The invocation that a list of arguments stands for. -/
def decode? (arguments : List String) : Option Invocation :=
  match readArguments arguments with
  | [("--program", some image), ("-f", some "NRF53"), ("-q", none), ("--snr", some serial),
      (erase, none), ("--coprocessor", some core)] => do
    return .program (← core? core) image (← word? serial) (← erase? erase)
  | [("--memwr", some address), ("--val", some value), ("--snr", some serial)] => do
    return .writeRegister (← word? address) (← word? value) (← word? serial)
  | [("-r", none), ("--snr", some serial)] => (word? serial).map .reset
  | _ => none

/-- The options in the arguments for an invocation. -/
theorem readArguments_arguments (call : Invocation) :
    readArguments (arguments call) =
      match call with
      | .program core image serial erase =>
        [("--program", some image), ("-f", some "NRF53"), ("-q", none),
          ("--snr", some (decimal serial)), (eraseArgument erase, none),
          ("--coprocessor", some (coreArgument core))]
      | .writeRegister address value serial =>
        [("--memwr", some (decimal address)), ("--val", some (decimal value)),
          ("--snr", some (decimal serial))]
      | .reset serial => [("-r", none), ("--snr", some (decimal serial))] := by
  cases call with
  | program core image serial erase => cases erase <;> rfl
  | writeRegister address value serial => rfl
  | reset serial => rfl

theorem decode?_eq_some_iff {words : List String} {call : Invocation} :
    decode? words = some call ↔ words = arguments call := by
  constructor
  · intro h
    have hwords := flatMap_readArguments words
    unfold decode? at h
    split at h
    · next image serial erase core hread =>
      rw [hread] at hwords
      simp only [Option.bind_eq_bind, Option.bind_eq_some_iff, Option.pure_def,
        Option.some.injEq] at h
      obtain ⟨c, hcore, s, hserial, e, herase, rfl⟩ := h
      rw [← hwords, core?_eq_some_iff.1 hcore, word?_eq_some_iff.1 hserial,
        erase?_eq_some_iff.1 herase]
      rfl
    · next address value serial hread =>
      rw [hread] at hwords
      simp only [Option.bind_eq_bind, Option.bind_eq_some_iff, Option.pure_def,
        Option.some.injEq] at h
      obtain ⟨a, haddress, v, hvalue, s, hserial, rfl⟩ := h
      rw [← hwords, word?_eq_some_iff.1 haddress, word?_eq_some_iff.1 hvalue,
        word?_eq_some_iff.1 hserial]
      rfl
    · next serial hread =>
      rw [hread] at hwords
      obtain ⟨s, hserial, rfl⟩ := Option.map_eq_some_iff.1 h
      rw [← hwords, word?_eq_some_iff.1 hserial]
      rfl
    · cases h
  · rintro rfl
    rw [decode?, readArguments_arguments]
    have hword : ∀ word, word? (decimal word) = some word := fun _ => word?_eq_some_iff.2 rfl
    cases call with
    | program core image serial erase =>
      simp only [hword, core?_eq_some_iff.2 rfl, erase?_eq_some_iff.2 rfl]
      rfl
    | writeRegister address value serial => simp [hword]
    | reset serial => simp [hword]

/-- The probe that the arguments for an invocation address is that of the invocation. -/
theorem addressed?_arguments (call : Invocation) :
    addressed? (arguments call) = some call.serial := by
  have hword : ∀ word, word? (decimal word) = some word := fun _ => word?_eq_some_iff.2 rfl
  rw [addressed?, readArguments_arguments]
  cases call with
  | program core image serial erase => cases erase <;> exact hword serial
  | writeRegister address value serial => exact hword serial
  | reset serial => exact hword serial

/-- The invocation can be read back from its arguments, and only from them. So no two have the
same arguments, and the probe that the arguments address is that of the invocation. -/
theorem arguments_unambiguous :
    (∀ (words : List String) (call : Invocation),
        decode? words = some call ↔ words = arguments call) ∧
      (∀ call other : Invocation, arguments call = arguments other ↔ call = other) ∧
      ∀ call : Invocation, addressed? (arguments call) = some call.serial := by
  refine ⟨fun words call => decode?_eq_some_iff, fun call other => ⟨fun h => ?_, congrArg _⟩,
    addressed?_arguments⟩
  have hcall : decode? (arguments call) = some call := decode?_eq_some_iff.2 rfl
  have hother : decode? (arguments call) = some other := decode?_eq_some_iff.2 h
  exact Option.some.inj (hcall.symm.trans hother)

/-- An image whose path is the word for another option is read as an image. -/
example : decode? (arguments (.program .network "--snr" 7 .sectors)) =
    some (.program .network "--snr" 7 .sectors) := by
  decide +kernel

end FlashFleet.Nrfjprog
