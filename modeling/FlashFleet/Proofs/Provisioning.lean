import FlashFleet.Proofs.PhaseRun
/-!
# Giving a device its identity

A worker makes the invocations that it plans in turn and stops at the first at which the
programmer does not succeed. What comes of that one, a failure or a crash, is what comes of
its work. So the identity of a device is written word by word: all of its words, or those up
to the first that could not be written, and never the serial of a headset before its channel.

## Main results

* `perform_carry` — of a worker's actions those invocations are made that can be carried out.
* `Programmer.carry_split`, `Programmer.succeeds_carry_iff` — what is made of a plan, and what
  comes of it.
* `Uicr.write_provides` — how giving a device its identity ends.
-/

namespace FlashFleet

/-! ## Plans -/

/-- What comes of two things, the second of which is only done if the first succeeds. -/
def Outcome.followedBy : Outcome → Outcome → Outcome
  | .succeeded, later => later
  | now, _ => now

theorem Outcome.followedBy_eq_succeeded_iff {now later : Outcome} :
    now.followedBy later = .succeeded ↔ now = .succeeded ∧ later = .succeeded := by
  cases now <;> simp [followedBy]

theorem Outcome.followedBy_succeeded (outcome : Outcome) :
    outcome.followedBy .succeeded = outcome := by
  cases outcome <;> rfl

namespace Programmer

/-- The programmer succeeds at each of the invocations when they are made in turn. -/
def Succeeds (programmer : Programmer) : (past calls : List Invocation) → Prop
  | _, [] => True
  | past, call :: rest =>
    (programmer.respond past call).outcome = .succeeded ∧
      programmer.Succeeds (past ++ [call]) rest

/-- The invocations of a plan that are made, and what comes of them. They are made in turn, up
to the first at which the programmer does not succeed. -/
def carry (programmer : Programmer) : (past plan : List Invocation) → List Invocation × Outcome
  | _, [] => ([], .succeeded)
  | past, call :: plan =>
    match (programmer.respond past call).outcome with
    | .succeeded =>
      let later := programmer.carry (past ++ [call]) plan
      (call :: later.1, later.2)
    | outcome => ([call], outcome)

variable {programmer : Programmer} {past plan : List Invocation} {call : Invocation}

theorem carry_of_succeeded (h : (programmer.respond past call).outcome = .succeeded) :
    programmer.carry past (call :: plan) =
      (call :: (programmer.carry (past ++ [call]) plan).1,
        (programmer.carry (past ++ [call]) plan).2) := by
  simp only [carry, h]

theorem carry_of_not_succeeded (h : (programmer.respond past call).outcome ≠ .succeeded) :
    programmer.carry past (call :: plan) = ([call], (programmer.respond past call).outcome) := by
  cases hanswer : (programmer.respond past call).outcome with
  | succeeded => exact absurd hanswer h
  | _ => simp only [carry, hanswer]

/-- What is made comes first in the plan. -/
theorem carry_prefix (programmer : Programmer) (past plan : List Invocation) :
    (programmer.carry past plan).1 <+: plan := by
  induction plan generalizing past with
  | nil => exact List.prefix_rfl
  | cons call plan ih =>
    by_cases h : (programmer.respond past call).outcome = .succeeded
    · rw [carry_of_succeeded h]
      exact List.cons_prefix_cons.2 ⟨rfl, ih _⟩
    · rw [carry_of_not_succeeded h]
      exact List.cons_prefix_cons.2 ⟨rfl, List.nil_prefix⟩

/-- Of what is made all but the last succeeded, and what came of the last is what comes of
it. -/
theorem carry_split (hplan : plan ≠ []) (past : List Invocation) :
    ∃ before call, (programmer.carry past plan).1 = before ++ [call] ∧
      programmer.Succeeds past before ∧
      (programmer.carry past plan).2 = (programmer.respond (past ++ before) call).outcome := by
  induction plan generalizing past with
  | nil => exact absurd rfl hplan
  | cons call plan ih =>
    by_cases h : (programmer.respond past call).outcome = .succeeded
    · rw [carry_of_succeeded h]
      cases plan with
      | nil => exact ⟨[], call, rfl, trivial, by rw [List.append_nil, h, carry]⟩
      | cons next plan =>
        obtain ⟨before, last, hmade, hbefore, houtcome⟩ :=
          ih (List.cons_ne_nil _ _) (past ++ [call])
        refine ⟨call :: before, last, congrArg (call :: ·) hmade, ⟨h, hbefore⟩, ?_⟩
        rw [houtcome, List.append_assoc, List.singleton_append]
    · rw [carry_of_not_succeeded h]
      exact ⟨[], call, rfl, trivial, by rw [List.append_nil]⟩

/-- A plan comes to a success if the programmer succeeds at all that is made of it. -/
theorem succeeds_carry_iff :
    programmer.Succeeds past (programmer.carry past plan).1 ↔
      (programmer.carry past plan).2 = .succeeded := by
  induction plan generalizing past with
  | nil => exact ⟨fun _ => rfl, fun _ => trivial⟩
  | cons call plan ih =>
    by_cases h : (programmer.respond past call).outcome = .succeeded
    · rw [carry_of_succeeded h, ← ih]
      exact ⟨And.right, And.intro h⟩
    · rw [carry_of_not_succeeded h]
      exact ⟨And.left, fun hanswer => absurd hanswer h⟩

/-- Then all of it is made. -/
theorem carry_eq_of_succeeded (h : (programmer.carry past plan).2 = .succeeded) :
    (programmer.carry past plan).1 = plan := by
  induction plan generalizing past with
  | nil => rfl
  | cons call plan ih =>
    by_cases hanswer : (programmer.respond past call).outcome = .succeeded
    · rw [carry_of_succeeded hanswer] at h ⊢
      exact congrArg (call :: ·) (ih h)
    · rw [carry_of_not_succeeded hanswer] at h
      exact absurd h hanswer

/-- What is made of a plan, and what comes of it, depends on the outcomes of what is made. -/
theorem carry_congr {other : Programmer}
    (h : ∀ before call, before.length < past.length + (programmer.carry past plan).1.length →
      (other.respond before call).outcome = (programmer.respond before call).outcome) :
    other.carry past plan = programmer.carry past plan := by
  induction plan generalizing past with
  | nil => rfl
  | cons call plan ih =>
    have hpos : 0 < (programmer.carry past (call :: plan)).1.length := by
      obtain ⟨before, last, hmade, _⟩ := programmer.carry_split (List.cons_ne_nil call plan) past
      rw [hmade]
      simp
    have hnow := h past call (by omega)
    by_cases hanswer : (programmer.respond past call).outcome = .succeeded
    · rw [carry_of_succeeded hanswer] at h ⊢
      have hlater : other.carry (past ++ [call]) plan = programmer.carry (past ++ [call]) plan := by
        apply ih
        intro before next hlength
        refine h before next ?_
        rw [List.length_append, List.length_singleton] at hlength
        rw [List.length_cons]
        omega
      rw [carry_of_succeeded (hnow.trans hanswer), hlater]
    · have hfailed : (other.respond past call).outcome ≠ .succeeded := by rwa [hnow]
      rw [carry_of_not_succeeded hanswer, carry_of_not_succeeded hfailed, hnow]

end Programmer

/-- Of a worker's actions those invocations are made that can be carried out. If that is all
of them, what is refused behind them is what comes of the work. -/
theorem perform_carry (programmer : Programmer) {actions : List Action}
    (hsound : Action.Sound actions) (past : List Invocation) :
    Events.invocations (perform programmer past actions).events =
        (programmer.carry past (Action.planned actions)).1 ∧
      (perform programmer past actions).outcome =
        (programmer.carry past (Action.planned actions)).2.followedBy
          (.ofFault? (Action.refusal? actions)) := by
  induction actions generalizing past with
  | nil => exact ⟨rfl, rfl⟩
  | cons action rest ih =>
    have hrest := hsound.tail
    cases action with
    | say record => exact ih hrest past
    | refuse fault => exact ⟨rfl, rfl⟩
    | crash text => exact absurd List.mem_cons_self (hsound text)
    | invoke call =>
      obtain ⟨hmade, houtcome⟩ := ih hrest (past ++ [call])
      have hcall := programmer.call_outcome past call
      simp only [perform_invoke, Action.planned, Action.refusal?]
      cases hanswer : (programmer.respond past call).outcome with
      | succeeded =>
        rw [hanswer] at hcall
        rw [Programmer.carry_of_succeeded hanswer, hcall]
        simp only [Events.invocations_append, Programmer.invocations_call, hmade]
        exact ⟨rfl, houtcome⟩
      | failed fault =>
        rw [hanswer] at hcall
        rw [Programmer.carry_of_not_succeeded (by simp [hanswer]), hcall, hanswer]
        exact ⟨programmer.invocations_call past call, hcall⟩
      | crashed text =>
        rw [hanswer] at hcall
        rw [Programmer.carry_of_not_succeeded (by simp [hanswer]), hcall, hanswer]
        exact ⟨programmer.invocations_call past call, hcall⟩

/-! ## The words of an identity -/

/-- The names that are read as channels. -/
theorem Channel.parse?_eq_some_iff {name : String} {channel : Channel} :
    parse? name = some channel ↔ name = channel.name := by
  constructor
  · intro h
    unfold parse? at h
    split at h
    · next hleft =>
      cases h
      exact hleft
    · split at h
      · next hright =>
        cases h
        exact hright
      · cases h
  · rintro rfl
    exact parse?_name channel

namespace Uicr

variable {programmer : Programmer} {past words : List Invocation} {device : Device}

/-- The words that a device is to be given, in this order: its channel, if it is a headset
with one, and the serial of its probe. -/
inductive Due (device : Device) : List Invocation → Prop where
  | headset {channel : Channel} (hkind : device.kind = .headset)
      (hchannel : device.channel = channel.name) :
      Due device
        [.writeRegister channelAddress channel.word device.serial,
          .writeRegister serialAddress device.serial device.serial]
  | gateway (hkind : device.kind = .gateway) :
      Due device [.writeRegister serialAddress device.serial device.serial]

/-- The device is a headset, and what is said of its channel is the name of none. -/
structure Channelless (device : Device) : Prop where
  kind : device.kind = .headset
  left : device.channel ≠ "left"
  right : device.channel ≠ "right"

/-- Every device is given words or is such a headset. -/
theorem due_or_channelless (device : Device) :
    Due device (Uicr.words device) ∧ objection? device = none ∨ Channelless device := by
  cases hkind : device.kind with
  | gateway =>
    left
    simp only [Uicr.words, objection?, hkind, and_true]
    exact .gateway hkind
  | headset =>
    cases hchannel : Channel.parse? device.channel with
    | none =>
      right
      have hname : ∀ channel : Channel, device.channel ≠ channel.name := by
        intro channel hname
        rw [Channel.parse?_eq_some_iff.2 hname] at hchannel
        cases hchannel
      exact ⟨hkind, hname .left, hname .right⟩
    | some channel =>
      left
      simp only [Uicr.words, objection?, hkind, hchannel, and_true]
      exact .headset hkind (Channel.parse?_eq_some_iff.1 hchannel)

theorem Channelless.parse?_eq_none (h : Channelless device) :
    Channel.parse? device.channel = none := by
  rw [Channel.parse?, if_neg h.left, if_neg h.right]

/-- A headset whose channel is none is refused before anything is asked for. -/
theorem Channelless.write (h : Channelless device) (programmer : Programmer)
    (past : List Invocation) :
    write programmer past device = ⟨[], .failed (.invalidChannel device.channel)⟩ := by
  have hactions : actions device = [.refuse (.invalidChannel device.channel)] := by
    simp only [actions, h.kind, Kind.requiresChannel, if_true, h.parse?_eq_none]
  rw [Uicr.write, hactions]
  rfl

theorem Due.ne_nil (h : Due device words) : words ≠ [] := by
  cases h <;> exact List.cons_ne_nil _ _

/-- The words are written in turn, up to the first at which the programmer does not
succeed. -/
structure Attempted (programmer : Programmer) (past words : List Invocation)
    (effect : Effect) : Prop where
  /-- Nothing is asked for but the words, from the first one on. -/
  initial : Events.invocations effect.events <+: words
  /-- At least one is asked for. All but the last succeeded, and what came of the last is what
  comes of it all. -/
  last : ∃ before call, Events.invocations effect.events = before ++ [call] ∧
    programmer.Succeeds past before ∧
    effect.outcome = (programmer.respond (past ++ before) call).outcome
  /-- It is a success if all of the words are written. -/
  complete : effect.outcome = .succeeded ↔
    Events.invocations effect.events = words ∧ programmer.Succeeds past words

/-- How giving a device its identity ends: it is refused before anything is asked for, or its
words are attempted. -/
inductive Provided (programmer : Programmer) (past : List Invocation) (device : Device)
    (effect : Effect) : Prop where
  | refused (hchannel : Channelless device)
      (heffect : effect = ⟨[], .failed (.invalidChannel device.channel)⟩)
  | attempted {words : List Invocation} (hdue : Due device words)
      (hattempted : Attempted programmer past words effect)

theorem attempted_of_carry {effect : Effect} (hne : words ≠ [])
    (hmade : Events.invocations effect.events = (programmer.carry past words).1)
    (houtcome : effect.outcome = (programmer.carry past words).2) :
    Attempted programmer past words effect := by
  refine ⟨?_, ?_, ?_⟩
  · rw [hmade]
    exact programmer.carry_prefix past words
  · rw [hmade, houtcome]
    exact programmer.carry_split hne past
  · rw [hmade, houtcome]
    constructor
    · intro hsucceeded
      have hall := Programmer.carry_eq_of_succeeded hsucceeded
      refine ⟨hall, ?_⟩
      have hmade := Programmer.succeeds_carry_iff.2 hsucceeded
      rwa [hall] at hmade
    · rintro ⟨hall, hsucceeds⟩
      rw [← hall] at hsucceeds
      exact Programmer.succeeds_carry_iff.1 hsucceeds

/-- Giving a device its identity writes its words in turn and stops at the first at which the
programmer does not succeed. A headset whose channel is none is refused. -/
theorem write_provides (programmer : Programmer) (past : List Invocation) (device : Device) :
    Provided programmer past device (write programmer past device) := by
  rcases due_or_channelless device with ⟨hdue, hnone⟩ | hchannel
  · obtain ⟨hmade, houtcome⟩ := perform_carry programmer (sound_actions device) past
    rw [planned_actions] at hmade houtcome
    rw [refusal?_actions, hnone] at houtcome
    refine .attempted hdue (attempted_of_carry hdue.ne_nil hmade (houtcome.trans ?_))
    exact Outcome.followedBy_succeeded _
  · exact .refused hchannel (hchannel.write programmer past)

end Uicr

end FlashFleet
