import FlashFleet.Proofs.Acceptance
/-!
# Options of the simulated programmer, in parts

The options of the simulated programmer are applied one after another up to the first that
cannot be used. A failure is added to a set, a delay replaces the one before it, and other
options leave the programmer as it is. So what options come to can be said without the order
in which they are applied: they fail what any of them says, and take as long as the last delay
says. From that follows what lists of options come to when they are put together or changed
into one another.

## Main results

* `ofOptions_eq_error_iff` — the error of options is that of the first that cannot be used.
* `configured_of_configure` — how options leave a programmer.
* `Reworded.restates` — changes of a list after which it says the same.
* `options_compose` — what becomes of lists that are put together or changed.
-/

namespace FlashFleet.Dummy

open Backend

variable {options others more : List (String × String)}

/-! ## The first option that cannot be used -/

theorem ofOptions_eq_error_iff {error : Error} :
    (ofOptions options).2 = .error error ↔ options.findSome? objection? = some error := by
  rw [← wrong?_eq_some_iff, ofOptions, wrong?_configure]

theorem exists_ofOptions_iff :
    (∃ result, (ofOptions options).2 = .ok result) ↔ options.findSome? objection? = none := by
  rw [← wrong?_eq_none_iff, ofOptions, wrong?_configure]

/-- What has been accepted leaves it to the options behind it what becomes of all. -/
theorem findSome?_append_of_ok {result : Dummy} (h : (ofOptions options).2 = .ok result)
    (more : List (String × String)) :
    (options ++ more).findSome? objection? = more.findSome? objection? := by
  rw [List.findSome?_append, exists_ofOptions_iff.1 ⟨result, h⟩, Option.none_or]

/-! ## What options come to -/

/-- An option says to fail the operation on the serial. -/
def Tells (options : List (String × String)) (operation : Operation) (serial : Serial) : Prop :=
  ∃ value, ("fail", value) ∈ options ∧ Fails value operation serial

theorem tells_append {operation : Operation} {serial : Serial} :
    Tells (options ++ more) operation serial ↔
      Tells options operation serial ∨ Tells more operation serial := by
  simp only [Tells, List.mem_append, or_and_right, exists_or]

theorem tells_singleton {key value : String} {operation : Operation} {serial : Serial} :
    Tells [(key, value)] operation serial ↔ key = "fail" ∧ Fails value operation serial := by
  simp only [Tells, List.mem_singleton, Prod.mk.injEq]
  constructor
  · rintro ⟨_, ⟨rfl, rfl⟩, hfails⟩
    exact ⟨rfl, hfails⟩
  · rintro ⟨rfl, hfails⟩
    exact ⟨value, ⟨rfl, rfl⟩, hfails⟩

theorem tells_cons {key value : String} {operation : Operation} {serial : Serial} :
    Tells ((key, value) :: options) operation serial ↔
      (key = "fail" ∧ Fails value operation serial) ∨ Tells options operation serial := by
  rw [← List.singleton_append, tells_append, tells_singleton]

/-- How options leave a programmer. -/
structure Configured (dummy : Dummy) (options : List (String × String)) (result : Dummy) :
    Prop where
  /-- It fails what it failed before, and what an option says. -/
  failures : ∀ operation serial, (operation, serial) ∈ result.failures ↔
    (operation, serial) ∈ dummy.failures ∨ Tells options operation serial
  /-- It takes as long as the last delay says. -/
  delayed : ∀ value, Choice.lastOf? "delay" options = some value →
    readDelay value = .ok result.delay
  /-- Without one it takes as long as before. -/
  undelayed : Choice.lastOf? "delay" options = none → result.delay = dummy.delay

theorem delay_withFailure (dummy : Dummy) (operation : Operation) (serial : Serial) :
    (dummy.withFailure operation serial).delay = dummy.delay := by
  rw [withFailure]
  split <;> rfl

theorem configured_fail {value : String} {operation : Operation} {serial : Serial}
    (h : readFailure value = .ok (operation, serial)) (dummy : Dummy) :
    Configured dummy [("fail", value)] (dummy.withFailure operation serial) where
  failures other probe := by
    have hsame : Fails value other probe ↔ (other, probe) = (operation, serial) := by
      rw [← readFailure_eq_ok_iff_fails, h, Except.ok.injEq, eq_comm]
    rw [mem_withFailure, tells_singleton, hsame, and_iff_right rfl]
  delayed := nofun
  undelayed _ := delay_withFailure dummy operation serial

theorem configured_delay {value : String} {delay : Nat} (h : readDelay value = .ok delay)
    (dummy : Dummy) : Configured dummy [("delay", value)] { dummy with delay := delay } where
  failures operation serial := by
    rw [tells_singleton, or_iff_left fun hboth => absurd hboth.1 (by decide)]
  delayed last hlast := by
    have hvalue : value = last := Option.some.inj hlast
    rw [← hvalue]
    exact h
  undelayed := nofun

theorem configured_other {key : String} (hfail : key ≠ "fail") (hdelay : key ≠ "delay")
    (value : String) (dummy : Dummy) : Configured dummy [(key, value)] dummy where
  failures operation serial := by
    rw [tells_singleton, or_iff_left fun hboth => hfail hboth.1]
  delayed last hlast := by
    rw [Choice.lastOf?_cons, if_neg hdelay] at hlast
    cases hlast
  undelayed _ := rfl

/-- What one list of options leaves, another leaves in turn. -/
theorem Configured.append {dummy middle result : Dummy} (h : Configured dummy options middle)
    (hmore : Configured middle more result) : Configured dummy (options ++ more) result where
  failures operation serial := by
    rw [hmore.failures, h.failures, tells_append, or_assoc]
  delayed value hlast := by
    rw [Choice.lastOf?_append] at hlast
    cases hmine : Choice.lastOf? "delay" more with
    | none =>
      rw [hmine, Option.none_or] at hlast
      rw [hmore.undelayed hmine]
      exact h.delayed value hlast
    | some last =>
      rw [hmine, Option.some_or] at hlast
      rw [hlast] at hmine
      exact hmore.delayed value hmine
  undelayed hnone := by
    rw [Choice.lastOf?_append, Option.or_eq_none_iff] at hnone
    rw [hmore.undelayed hnone.1, h.undelayed hnone.2]

theorem configured_of_heed {dummy next : Dummy} {option : String × String}
    (h : dummy.heed option = .ok next) : Configured dummy [option] next := by
  obtain ⟨key, value⟩ := option
  rw [heed] at h
  by_cases hfail : key = "fail"
  · subst hfail
    cases hread : readFailure value with
    | error error =>
      rw [if_pos rfl, hread] at h
      cases h
    | ok failure =>
      rw [if_pos rfl, hread] at h
      cases h
      exact configured_fail hread dummy
  · rw [if_neg hfail] at h
    by_cases hdelay : key = "delay"
    · subst hdelay
      cases hread : readDelay value with
      | error error =>
        rw [if_pos rfl, hread] at h
        cases h
      | ok delay =>
        rw [if_pos rfl, hread] at h
        cases h
        exact configured_delay hread dummy
    · rw [if_neg hdelay] at h
      cases h
      exact configured_other hfail hdelay value dummy

theorem configured_of_configure {dummy result : Dummy}
    (h : (dummy.configure options).2 = .ok result) : Configured dummy options result := by
  rw [configure_eq_foldlM] at h
  induction options generalizing dummy with
  | nil =>
    cases h
    exact ⟨by simp [Tells], nofun, fun _ => rfl⟩
  | cons option rest ih =>
    rw [List.foldlM_cons] at h
    cases hheed : dummy.heed option with
    | error error =>
      rw [hheed] at h
      cases h
    | ok next =>
      rw [hheed] at h
      exact (configured_of_heed hheed).append (ih h)

/-- Where the last delays are the same, what two lists leave takes as long. -/
theorem Configured.delay_eq {dummy start first second : Dummy}
    (h : Configured dummy options first) (hother : Configured start others second)
    (hlast : Choice.lastOf? "delay" options = Choice.lastOf? "delay" others)
    (hstart : dummy.delay = start.delay) : first.delay = second.delay := by
  cases hvalue : Choice.lastOf? "delay" others with
  | none => rw [h.undelayed (hlast.trans hvalue), hother.undelayed hvalue, hstart]
  | some value =>
    have hread := h.delayed value (hlast.trans hvalue)
    rw [hother.delayed value hvalue] at hread
    exact (Except.ok.inj hread).symm

/-! ## Lists put together -/

/-- The programmer fails what either of two fails, and takes as long as the second if that was
told a delay, and else as long as the first. -/
structure Joined (more : List (String × String)) (first second joined : Dummy) : Prop where
  failures : ∀ failure,
    failure ∈ joined.failures ↔ failure ∈ first.failures ∨ failure ∈ second.failures
  delayed : (∃ value, ("delay", value) ∈ more) → joined.delay = second.delay
  undelayed : (∀ value, ("delay", value) ∉ more) → joined.delay = first.delay

theorem joined_of_ofOptions {first second joined : Dummy}
    (hfirst : (ofOptions options).2 = .ok first) (hsecond : (ofOptions more).2 = .ok second)
    (hjoined : (ofOptions (options ++ more)).2 = .ok joined) :
    Joined more first second joined := by
  have hone := configured_of_configure hfirst
  have htwo := configured_of_configure hsecond
  have hboth := configured_of_configure hjoined
  have happend := Choice.lastOf?_append "delay" options more
  refine ⟨fun failure => ?_, fun hdelay => ?_, fun hnone => ?_⟩
  · obtain ⟨operation, serial⟩ := failure
    rw [hboth.failures, hone.failures, htwo.failures, tells_append]
    simp only [List.not_mem_nil, false_or]
  · obtain ⟨value, hvalue⟩ := hdelay
    refine hboth.delay_eq htwo ?_ rfl
    cases hlast : Choice.lastOf? "delay" more with
    | none => exact absurd hvalue (Choice.lastOf?_eq_none_iff.1 hlast value)
    | some last => rw [happend, hlast, Option.some_or]
  · refine hboth.delay_eq hone ?_ rfl
    rw [happend, Choice.lastOf?_eq_none_iff.2 hnone, Option.none_or]

/-- What two lists of options come to is what the list of both comes to. -/
structure Composes (options more : List (String × String)) : Prop where
  /-- If both can be used, so can the list of both. -/
  joined : ∀ first second, (ofOptions options).2 = .ok first → (ofOptions more).2 = .ok second →
    ∃ joined, (ofOptions (options ++ more)).2 = .ok joined ∧ Joined more first second joined
  /-- What is wrong with the first is what is wrong with both. -/
  refused : ∀ error, (ofOptions options).2 = .error error →
    (ofOptions (options ++ more)).2 = .error error
  /-- If nothing is, it is what is wrong with the second. -/
  refusedLater : ∀ first error, (ofOptions options).2 = .ok first →
    (ofOptions more).2 = .error error → (ofOptions (options ++ more)).2 = .error error

theorem composes (options more : List (String × String)) : Composes options more where
  joined first second hfirst hsecond := by
    have hnone : (options ++ more).findSome? objection? = none := by
      rw [findSome?_append_of_ok hfirst, exists_ofOptions_iff.1 ⟨second, hsecond⟩]
    obtain ⟨joined, hjoined⟩ := exists_ofOptions_iff.2 hnone
    exact ⟨joined, hjoined, joined_of_ofOptions hfirst hsecond hjoined⟩
  refused error herror := by
    rw [ofOptions_eq_error_iff, List.findSome?_append, ofOptions_eq_error_iff.1 herror,
      Option.some_or]
  refusedLater first error hfirst herror := by
    rw [ofOptions_eq_error_iff, findSome?_append_of_ok hfirst, ofOptions_eq_error_iff.1 herror]

/-! ## Lists changed into one another -/

/-- The delays among options, in order. -/
def delaysAmong (options : List (String × String)) : List (String × String) :=
  options.filter fun option => option.1 = "delay"

/-- Changes of a list of options: it is put in another order that keeps that of the delays, a
failure is left out that another option says as well, in whatever way its serial is spelled, or
an option is left out that does not exist. -/
inductive Reworded : List (String × String) → List (String × String) → Prop where
  | reordered {options others : List (String × String)} (hperm : options.Perm others)
      (hdelays : delaysAmong options = delaysAmong others) : Reworded options others
  | repeated {before after : List (String × String)} {value other : String}
      (hother : ("fail", other) ∈ before ++ after) (hsame : readFailure value = readFailure other) :
      Reworded (before ++ ("fail", value) :: after) (before ++ after)
  | unknown {before after : List (String × String)} {option : String × String}
      (hfail : option.1 ≠ "fail") (hdelay : option.1 ≠ "delay") :
      Reworded (before ++ option :: after) (before ++ after)
  | symm {options others : List (String × String)} (h : Reworded options others) :
      Reworded others options
  | trans {options others more : List (String × String)} (h : Reworded options others)
      (hmore : Reworded others more) : Reworded options more

/-- The options say the same: one list can be used if the other can, they fail the same and have
the same delays. -/
structure Restates (options others : List (String × String)) : Prop where
  usable : (∀ option ∈ options, objection? option = none) ↔
    ∀ option ∈ others, objection? option = none
  failures : ∀ operation serial, Tells options operation serial ↔ Tells others operation serial
  delays : delaysAmong options = delaysAmong others

theorem Restates.symm (h : Restates options others) : Restates others options :=
  ⟨h.usable.symm, fun operation serial => (h.failures operation serial).symm, h.delays.symm⟩

theorem Restates.trans (h : Restates options others) (hmore : Restates others more) :
    Restates options more :=
  ⟨h.usable.trans hmore.usable,
    fun operation serial => (h.failures operation serial).trans (hmore.failures operation serial),
    h.delays.trans hmore.delays⟩

theorem restates_of_perm (hperm : options.Perm others)
    (hdelays : delaysAmong options = delaysAmong others) : Restates options others where
  usable := by simp only [hperm.mem_iff]
  failures operation serial := by simp only [Tells, hperm.mem_iff]
  delays := hdelays

theorem restates_of_repeated {before after : List (String × String)} {value other : String}
    (hother : ("fail", other) ∈ before ++ after)
    (hsame : readFailure value = readFailure other) :
    Restates (before ++ ("fail", value) :: after) (before ++ after) where
  usable := by
    have hobjection : objection? ("fail", value) = objection? ("fail", other) := by
      rw [objection?, objection?, if_pos rfl, if_pos rfl, hsame]
    constructor
    · intro h option hoption
      exact h option (by grind)
    · intro h option hoption
      by_cases hvalue : option = ("fail", value)
      · rw [hvalue, hobjection]
        exact h _ hother
      · exact h option (by grind)
  failures operation serial := by
    have hfails : Fails value operation serial ↔ Fails other operation serial := by
      rw [← readFailure_eq_ok_iff_fails, ← readFailure_eq_ok_iff_fails, hsame]
    rw [tells_append, tells_cons, tells_append, and_iff_right rfl, hfails]
    constructor
    · rintro (h | h | h)
      · exact .inl h
      · exact tells_append.1 ⟨other, hother, h⟩
      · exact .inr h
    · rintro (h | h)
      · exact .inl h
      · exact .inr (.inr h)
  delays := by
    rw [delaysAmong, delaysAmong, List.filter_append, List.filter_append,
      List.filter_cons_of_neg (by simp)]

theorem restates_of_unknown {before after : List (String × String)} {option : String × String}
    (hfail : option.1 ≠ "fail") (hdelay : option.1 ≠ "delay") :
    Restates (before ++ option :: after) (before ++ after) where
  usable := by
    have hobjection : objection? option = none := by
      rw [objection?, if_neg hfail, if_neg hdelay]
    constructor
    · intro h other hother
      exact h other (by grind)
    · intro h other hother
      by_cases hsame : other = option
      · rw [hsame, hobjection]
      · exact h other (by grind)
  failures operation serial := by
    obtain ⟨key, value⟩ := option
    have hother : ¬ (key = "fail" ∧ Fails value operation serial) := fun hboth => hfail hboth.1
    rw [tells_append, tells_cons, tells_append, or_iff_right hother]
  delays := by
    rw [delaysAmong, delaysAmong, List.filter_append, List.filter_append,
      List.filter_cons_of_neg (by simpa using hdelay)]

/-- After each change a list says the same. -/
theorem Reworded.restates (h : Reworded options others) : Restates options others := by
  induction h with
  | reordered hperm hdelays => exact restates_of_perm hperm hdelays
  | repeated hother hsame => exact restates_of_repeated hother hsame
  | unknown hfail hdelay => exact restates_of_unknown hfail hdelay
  | symm _ ih => exact ih.symm
  | trans _ _ ih ihmore => exact ih.trans ihmore

/-- The programmers are told the same. -/
structure Alike (first second : Dummy) : Prop where
  failures : ∀ failure, failure ∈ first.failures ↔ failure ∈ second.failures
  delay : first.delay = second.delay

/-- Lists that say the same come to the same. -/
theorem Restates.alike (h : Restates options others) {first : Dummy}
    (hfirst : (ofOptions options).2 = .ok first) :
    ∃ second, (ofOptions others).2 = .ok second ∧ Alike first second := by
  have husable : others.findSome? objection? = none := by
    have hall := List.findSome?_eq_none_iff.1 (exists_ofOptions_iff.1 ⟨first, hfirst⟩)
    exact List.findSome?_eq_none_iff.2 (h.usable.1 hall)
  obtain ⟨second, hsecond⟩ := exists_ofOptions_iff.2 husable
  have hone := configured_of_configure hfirst
  have htwo := configured_of_configure hsecond
  have hlast : Choice.lastOf? "delay" options = Choice.lastOf? "delay" others := by
    rw [← Choice.lastOf?_filter "delay" options, ← Choice.lastOf?_filter "delay" others]
    exact congrArg (Choice.lastOf? "delay") h.delays
  refine ⟨second, hsecond, fun failure => ?_, hone.delay_eq htwo hlast rfl⟩
  rw [hone.failures failure.1 failure.2, htwo.failures failure.1 failure.2, h.failures]

/-- Programmers that are told the same answer alike. -/
theorem Alike.programmer_eq {first second : Dummy} (h : Alike first second) :
    first.programmer = second.programmer := by
  have hrespond : ∀ call, first.respond call = second.respond call := fun call => by
    simp only [respond, h.failures]
  simp only [programmer, hrespond]

/-! ## What is said of a failure -/

/-- Behind the first at sign of a failure the serial is read, and if it cannot be, that is what
is wrong. -/
theorem objection?_of_serial {name text value : String} {fault : Serial.Fault}
    (hvalue : value.toList = name.toList ++ '@' :: text.toList) (hname : '@' ∉ name.toList)
    (hserial : Serial.parse text = .error fault) :
    objection? ("fail", value) = some (.failSerial fault) := by
  rw [objection?, if_pos rfl, readFailure, hvalue, Text.splitFirst_append hname]
  simp only [String.ofList_toList, hserial, wrong?]

/-- If the serial can be read, what stands before must be the name of an operation. -/
theorem objection?_of_operation {name text value : String} {serial : Serial}
    (hvalue : value.toList = name.toList ++ '@' :: text.toList) (hname : '@' ∉ name.toList)
    (hserial : Serial.parse text = .ok serial) (hnone : ∀ operation : Operation,
      name ≠ operation.name) :
    objection? ("fail", value) = some (.unknownOperation name) := by
  have hparse : Operation.parse? name = none :=
    Option.eq_none_iff_forall_ne_some.2 fun operation hoperation =>
      hnone operation (Operation.parse?_eq_some_iff.1 hoperation)
  rw [objection?, if_pos rfl, readFailure, hvalue, Text.splitFirst_append hname]
  simp only [String.ofList_toList, hserial, readOperation, hparse]
  rfl

/-- What becomes of options that are put together is known from the parts: failures add up, the
last delay counts, and the first option that cannot be used decides. Changes of a list that keep
what it says keep what it comes to. Of a failure that cannot be used for two reasons, the serial
is the one that counts. -/
theorem options_compose :
    (∀ options more : List (String × String), Composes options more) ∧
      (∀ (options others : List (String × String)) (first : Dummy),
        (ofOptions options).2 = .ok first → Reworded options others →
          ∃ second, (ofOptions others).2 = .ok second ∧ Alike first second ∧
            first.programmer = second.programmer) ∧
      ∀ (options more : List (String × String)) (first : Dummy) (name text value : String),
        (ofOptions options).2 = .ok first →
        value.toList = name.toList ++ '@' :: text.toList → '@' ∉ name.toList →
          (∀ fault, Serial.parse text = .error fault →
            (ofOptions (options ++ ("fail", value) :: more)).2 = .error (.failSerial fault)) ∧
          ∀ serial, Serial.parse text = .ok serial →
            (∀ operation : Operation, name ≠ operation.name) →
            (ofOptions (options ++ ("fail", value) :: more)).2 =
              .error (.unknownOperation name) := by
  refine ⟨composes, fun options others first hfirst hreworded => ?_,
    fun options more first name text value hfirst hvalue hname => ⟨?_, ?_⟩⟩
  · obtain ⟨second, hsecond, halike⟩ := hreworded.restates.alike hfirst
    exact ⟨second, hsecond, halike, halike.programmer_eq⟩
  · intro fault hserial
    rw [ofOptions_eq_error_iff, findSome?_append_of_ok hfirst, List.findSome?_cons,
      objection?_of_serial hvalue hname hserial]
  · intro serial hserial hnone
    rw [ofOptions_eq_error_iff, findSome?_append_of_ok hfirst, List.findSome?_cons,
      objection?_of_operation hvalue hname hserial hnone]

/-- One failure in two spellings, with two delays and an option that does not exist. -/
def twiceToldOptions : List (String × String) :=
  [("fail", "net@16"), ("delay", "5"), ("color", "red"), ("fail", "net@0x10"), ("delay", "+7")]

theorem reworded_twiceTold :
    Reworded twiceToldOptions [("delay", "5"), ("delay", "+7"), ("fail", "net@0x10")] := by
  have hrepeated : Reworded twiceToldOptions
      [("delay", "5"), ("color", "red"), ("fail", "net@0x10"), ("delay", "+7")] :=
    @Reworded.repeated [] _ "net@16" "net@0x10" (by decide) (by decide +kernel)
  have hunknown : Reworded
      [("delay", "5"), ("color", "red"), ("fail", "net@0x10"), ("delay", "+7")]
      [("delay", "5"), ("fail", "net@0x10"), ("delay", "+7")] :=
    @Reworded.unknown [("delay", "5")] _ ("color", "red") (by decide) (by decide)
  have hreordered : Reworded [("delay", "5"), ("fail", "net@0x10"), ("delay", "+7")]
      [("delay", "5"), ("delay", "+7"), ("fail", "net@0x10")] :=
    .reordered (by decide) (by decide)
  exact (hrepeated.trans hunknown).trans hreordered

/-- The two spellings are one failure and the second delay counts, whether the options are
joined from two lists or put down more briefly. Of two reasons against the option behind them
the serial is given. -/
theorem options_compose_twiceTold :
    (∃ joined, (ofOptions twiceToldOptions).2 = .ok joined ∧ joined.delay = 7 ∧
        ∀ failure, failure ∈ joined.failures ↔ failure = (.programNet, 16)) ∧
      (∃ brief, (ofOptions [("delay", "5"), ("delay", "+7"), ("fail", "net@0x10")]).2 =
          .ok brief ∧ Alike ⟨[(.programNet, 16)], 7⟩ brief) ∧
      (ofOptions (twiceToldOptions ++ [("fail", "erase@0x"), ("delay", "soon")])).2 =
        .error (.failSerial ⟨true, .empty⟩) := by
  have hall : (ofOptions twiceToldOptions).2 = .ok ⟨[(.programNet, 16)], 7⟩ := by
    decide +kernel
  refine ⟨?_, ?_, ?_⟩
  · obtain ⟨joined, hjoined, hfailures, hdelayed, -⟩ := (options_compose.1
      [("fail", "net@16"), ("delay", "5")]
      [("color", "red"), ("fail", "net@0x10"), ("delay", "+7")]).joined
      ⟨[(.programNet, 16)], 5⟩ ⟨[(.programNet, 16)], 7⟩ (by decide +kernel) (by decide +kernel)
    exact ⟨joined, hjoined, hdelayed ⟨"+7", by decide⟩, fun failure => by simp [hfailures]⟩
  · obtain ⟨brief, hbrief, halike, -⟩ := options_compose.2.1 _ _ _ hall reworded_twiceTold
    exact ⟨brief, hbrief, halike⟩
  · exact (options_compose.2.2 twiceToldOptions [("delay", "soon")] _ "erase" "0x" "erase@0x"
      hall (by decide) (by decide)).1 ⟨true, .empty⟩ (by decide +kernel)

end FlashFleet.Dummy
