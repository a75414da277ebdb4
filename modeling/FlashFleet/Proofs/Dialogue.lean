import FlashFleet.Programmer
/-!
# What passes between a worker and a probe

An invocation is seen by its beginning and its end. What passes between the
program and one probe during a run is the list of beginnings and ends of the
invocations of that probe, its dialogue. Where no two invocations of a probe
overlap, the dialogue is a list of exchanges: an invocation and what came of
it.

A programmer may answer as it likes, also by what it was asked before. Two
things are asked of some programmers: that they never crash, and that what they
answer for one probe does not depend on what other probes were asked.

## Main results

* `calls_call` — what an invocation shows of itself is its outcome and nothing
  else.
* `perform_ends`, `perform_attempt` — a worker makes its invocations in order, up
  to the first that fails, or at which the programmer crashes.
* `perform_congr` — of the programmer's answers only the outcomes matter.
-/

namespace FlashFleet

/-! ## Beginnings and ends -/

/-- The invocation that begins or ends here. -/
def Event.call? : Event → Option Invocation
  | .began call => some call
  | .ended call _ => some call
  | _ => none

namespace Events

/-- The beginnings and ends of invocations. -/
def calls (events : Events) : Events := events.filter fun event => event.call?.isSome

/-- The beginnings and ends of the invocations of one probe. -/
def about (serial : Serial) (events : Events) : Events :=
  events.filter fun event => event.call?.any (·.serial == serial)

@[simp] theorem calls_nil : calls [] = [] := rfl

@[simp] theorem calls_began (call : Invocation) (events : Events) :
    calls (.began call :: events) = .began call :: calls events := rfl

@[simp] theorem calls_ended (call : Invocation) (fault : Option Fault) (events : Events) :
    calls (.ended call fault :: events) = .ended call fault :: calls events := rfl

@[simp] theorem calls_log (record : LogRecord) (events : Events) :
    calls (.log record :: events) = calls events := rfl

@[simp] theorem calls_phaseFinished (serial : Serial) (phase : Phase) (flag : Flag)
    (events : Events) : calls (.phaseFinished serial phase flag :: events) = calls events := rfl

@[simp] theorem calls_append (a b : Events) : calls (a ++ b) = calls a ++ calls b :=
  List.filter_append ..

@[simp] theorem calls_map_log (logs : List LogRecord) : calls (logs.map .log) = [] := by
  induction logs with
  | nil => rfl
  | cons record rest ih => simpa using ih

@[simp] theorem about_append (serial : Serial) (a b : Events) :
    about serial (a ++ b) = about serial a ++ about serial b :=
  List.filter_append ..

theorem about_cons_of_eq {serial : Serial} {event : Event} {call : Invocation}
    (hcall : event.call? = some call) (hserial : call.serial = serial) (events : Events) :
    about serial (event :: events) = event :: about serial events :=
  List.filter_cons_of_pos (by simp [hcall, hserial])

theorem about_cons_of_ne {serial : Serial} {event : Event} {call : Invocation}
    (hcall : event.call? = some call) (hserial : call.serial ≠ serial) (events : Events) :
    about serial (event :: events) = about serial events :=
  List.filter_cons_of_neg (by simp [hcall, hserial])

theorem about_cons_of_none {event : Event} (hcall : event.call? = none) (serial : Serial)
    (events : Events) : about serial (event :: events) = about serial events :=
  List.filter_cons_of_neg (by simp [hcall])

/-- What happens with an invocation concerns its probe. -/
theorem mem_about {serial : Serial} {events : Events} {event : Event} {call : Invocation}
    (hmem : event ∈ events) (hcall : event.call? = some call) (hserial : call.serial = serial) :
    event ∈ about serial events :=
  List.mem_filter.2 ⟨hmem, by simp [hcall, hserial]⟩

/-- Where no invocation is of a probe, there is nothing about it. -/
theorem about_eq_nil {serial : Serial} {events : Events}
    (h : ∀ event ∈ events, ∀ call, event.call? = some call → call.serial ≠ serial) :
    about serial events = [] := by
  rw [about, List.filter_eq_nil_iff]
  intro event hevent
  cases hcall : event.call? with
  | none => simp
  | some call => simpa using h event hevent call hcall

@[simp] theorem invocations_nil : invocations [] = [] := rfl

@[simp] theorem invocations_began (call : Invocation) (events : Events) :
    invocations (.began call :: events) = call :: invocations events := rfl

@[simp] theorem invocations_ended (call : Invocation) (fault : Option Fault) (events : Events) :
    invocations (.ended call fault :: events) = invocations events := rfl

@[simp] theorem invocations_log (record : LogRecord) (events : Events) :
    invocations (.log record :: events) = invocations events := rfl

@[simp] theorem invocations_phaseStarted (serial : Serial) (phase : Phase) (events : Events) :
    invocations (.phaseStarted serial phase :: events) = invocations events := rfl

@[simp] theorem invocations_append (a b : Events) :
    invocations (a ++ b) = invocations a ++ invocations b :=
  List.filterMap_append ..

/-- The invocations begun are seen in the calls. -/
theorem invocations_calls (events : Events) : invocations (calls events) = invocations events := by
  induction events with
  | nil => rfl
  | cons event rest ih =>
    cases event with
    | began call => exact congrArg (call :: ·) ih
    | _ => exact ih

end Events

@[simp] theorem Events.authoredBy_append (author : Author) (a b : Events) :
    Events.authoredBy author (a ++ b) = a.authoredBy author ++ b.authoredBy author :=
  List.map_append

@[simp] theorem Trace.events_append (a b : Trace) : events (a ++ b) = a.events ++ b.events :=
  List.map_append

@[simp] theorem Trace.events_authoredBy (author : Author) (events : Events) :
    (events.authoredBy author).events = events := by
  rw [Trace.events, Events.authoredBy, List.map_map]
  exact List.map_id' events

@[simp] theorem Trace.invocations_authoredBy (author : Author) (events : Events) :
    (events.authoredBy author).invocations = Events.invocations events := by
  rw [Trace.invocations, Trace.events_authoredBy]

/-- What was said to a probe during a run, and what it answered. -/
def Trace.dialogue (trace : Trace) (serial : Serial) : Events := Events.about serial trace.events

/-! ## Exchanges -/

/-- An invocation that came to its end, and its fault if it failed. -/
structure Exchange where
  call : Invocation
  fault : Option Fault
  deriving DecidableEq, Repr

/-- An exchange as it is seen. -/
def Exchange.events (exchange : Exchange) : Events :=
  [.began exchange.call, .ended exchange.call exchange.fault]

/-- Exchanges one after another as they are seen. -/
def shown (exchanges : List Exchange) : Events := exchanges.flatMap Exchange.events

@[simp] theorem shown_nil : shown [] = [] := rfl

@[simp] theorem shown_append (a b : List Exchange) : shown (a ++ b) = shown a ++ shown b := by
  simp [shown]

@[simp] theorem shown_cons (exchange : Exchange) (rest : List Exchange) :
    shown (exchange :: rest) =
      .began exchange.call :: .ended exchange.call exchange.fault :: shown rest := rfl

/-- The invocations of exchanges are those that were begun. -/
theorem invocations_shown (exchanges : List Exchange) :
    Events.invocations (shown exchanges) = exchanges.map Exchange.call := by
  induction exchanges with
  | nil => rfl
  | cons exchange rest ih =>
    rw [shown_cons, Events.invocations_began, Events.invocations_ended, ih, List.map_cons]

theorem began_mem_shown {exchanges : List Exchange} {call : Invocation} :
    .began call ∈ shown exchanges ↔ ∃ exchange ∈ exchanges, exchange.call = call := by
  simp [shown, Exchange.events, eq_comm]

/-- Each invocation comes to its end before the next begins; the last may be under
way. -/
def Turnwise (events : Events) : Prop :=
  ∃ (exchanges : List Exchange) (opened : Option Invocation),
    events = shown exchanges ++ opened.toList.map .began

theorem turnwise_nil : Turnwise [] := ⟨[], none, rfl⟩

/-- Exchanges before it change nothing. -/
theorem Turnwise.behind {events : Events} (h : Turnwise events) (exchanges : List Exchange) :
    Turnwise (shown exchanges ++ events) := by
  obtain ⟨later, opened, rfl⟩ := h
  exact ⟨exchanges ++ later, opened, by rw [shown_append, List.append_assoc]⟩

/-- Invocations that are planned in an order, and the exchanges they come to: all
of them, or those up to the first that fails. -/
inductive Attempt : List Invocation → List Exchange → Prop where
  | complete : Attempt [] []
  | broken (call : Invocation) (plan : List Invocation) (fault : Fault) :
      Attempt (call :: plan) [⟨call, some fault⟩]
  | continued {call : Invocation} {plan : List Invocation} {exchanges : List Exchange} :
      Attempt plan exchanges → Attempt (call :: plan) (⟨call, none⟩ :: exchanges)

/-- What is attempted was planned. -/
theorem Attempt.mem_plan {plan : List Invocation} {exchanges : List Exchange}
    (h : Attempt plan exchanges) : ∀ exchange ∈ exchanges, exchange.call ∈ plan := by
  induction h with
  | complete => exact List.forall_mem_nil _
  | broken call plan fault => simp
  | continued hrest ih =>
    intro exchange hmem
    rcases List.mem_cons.1 hmem with rfl | hmem
    · exact List.mem_cons_self
    · exact List.mem_cons_of_mem _ (ih exchange hmem)

/-- Invocations that are planned in an order, and what is seen of them when the
programmer crashes at one: those before it succeeded, and it has no end. -/
inductive Interrupted : List Invocation → Events → Prop where
  | now (call : Invocation) (plan : List Invocation) : Interrupted (call :: plan) [.began call]
  | later {call : Invocation} {plan : List Invocation} {events : Events} :
      Interrupted plan events →
      Interrupted (call :: plan) (.began call :: .ended call none :: events)

/-- The fault of the first exchange that failed. -/
def firstFault? (exchanges : List Exchange) : Option Fault := exchanges.findSome? Exchange.fault

/-! ## Programmers -/

/-- The invocations of one probe. -/
def ofProbe (serial : Serial) (calls : List Invocation) : List Invocation :=
  calls.filter (·.serial == serial)

namespace Programmer

/-- The programmer answers every invocation. -/
def NeverCrashes (programmer : Programmer) : Prop :=
  ∀ past call text, (programmer.respond past call).outcome ≠ .crashed text

/-- What comes of an invocation depends on the invocation and on the earlier
ones of the same probe alone. -/
def PerProbe (programmer : Programmer) : Prop :=
  ∀ past other call, ofProbe call.serial past = ofProbe call.serial other →
    (programmer.respond past call).outcome = (programmer.respond other call).outcome

/-- What an invocation shows of itself when it came to its end. -/
theorem calls_call (programmer : Programmer) (past : List Invocation) (call : Invocation) :
    Events.calls (programmer.call past call).events =
      .began call ::
        match (programmer.respond past call).outcome with
        | .crashed _ => []
        | outcome => [.ended call outcome.fault?] := by
  cases h : (programmer.respond past call).outcome with
  | succeeded => simp [Programmer.call, Response.opening, h]
  | failed fault => simp [Programmer.call, Response.opening, h]
  | crashed text => simp [Programmer.call, Response.opening, h]

@[simp] theorem call_outcome (programmer : Programmer) (past : List Invocation)
    (call : Invocation) :
    (programmer.call past call).outcome = (programmer.respond past call).outcome := by
  unfold Programmer.call
  cases h : (programmer.respond past call).outcome <;> simp [h]

@[simp] theorem invocations_call (programmer : Programmer) (past : List Invocation)
    (call : Invocation) :
    Events.invocations (programmer.call past call).events = [call] := by
  rw [← Events.invocations_calls, calls_call]
  cases (programmer.respond past call).outcome <;> rfl

end Programmer

/-! ## The work of one hand -/

namespace Action

/-- The invocations that actions make if none of them fails. -/
def planned : List Action → List Invocation
  | [] => []
  | .say _ :: rest => planned rest
  | .invoke call :: rest => call :: planned rest
  | .refuse _ :: _ => []
  | .crash _ :: _ => []

/-- The fault with which actions end that refuse to go on. -/
def refusal? : List Action → Option Fault
  | [] => none
  | .say _ :: rest => refusal? rest
  | .invoke _ :: rest => refusal? rest
  | .refuse fault :: _ => some fault
  | .crash _ :: _ => none

/-- The actions do not crash by themselves. -/
def Sound (actions : List Action) : Prop := ∀ text, .crash text ∉ actions

theorem Sound.tail {action : Action} {rest : List Action} (h : Sound (action :: rest)) :
    Sound rest := fun text hmem => h text (List.mem_cons_of_mem _ hmem)

end Action

/-- What a fault means for the work as a whole. -/
def Outcome.ofFault? : Option Fault → Outcome
  | none => .succeeded
  | some fault => .failed fault

/-- A worker makes its invocations in order up to the first that fails, and
succeeds if none of them fails and nothing is refused; unless the programmer
crashes at one of them. -/
theorem perform_ends (programmer : Programmer) {actions : List Action}
    (hsound : Action.Sound actions) (past : List Invocation) :
    (∃ exchanges,
      Events.calls (perform programmer past actions).events = shown exchanges ∧
      Attempt (Action.planned actions) exchanges ∧
      (perform programmer past actions).outcome =
        .ofFault? ((firstFault? exchanges).or (Action.refusal? actions))) ∨
      ∃ text, Interrupted (Action.planned actions)
          (Events.calls (perform programmer past actions).events) ∧
        (perform programmer past actions).outcome = .crashed text ∧
        ∃ before call, (programmer.respond before call).outcome = .crashed text := by
  induction actions generalizing past with
  | nil => exact .inl ⟨[], rfl, .complete, rfl⟩
  | cons action rest ih =>
    have hrest := hsound.tail
    cases action with
    | say record =>
      simp only [perform_say]
      exact ih hrest past
    | refuse fault => exact .inl ⟨[], rfl, .complete, rfl⟩
    | crash text => exact absurd List.mem_cons_self (hsound text)
    | invoke call =>
      have hcalls := programmer.calls_call past call
      have hcall := programmer.call_outcome past call
      cases hanswer : (programmer.respond past call).outcome with
      | crashed text =>
        rw [hanswer] at hcalls hcall
        right
        refine ⟨text, ?_, ?_, past, call, hanswer⟩
        · simp only [perform_invoke, hcall, hcalls]
          exact .now call _
        · simp only [perform_invoke, hcall]
      | failed fault =>
        rw [hanswer] at hcalls hcall
        left
        refine ⟨[⟨call, some fault⟩], ?_, .broken call _ fault, ?_⟩
        · simp only [perform_invoke, hcall, hcalls]
          rfl
        · simp only [perform_invoke, hcall]
          rfl
      | succeeded =>
        rw [hanswer] at hcalls hcall
        simp only [perform_invoke, hcall, Events.calls_append, hcalls]
        rcases ih hrest (past ++ [call]) with
          ⟨exchanges, hshown, hattempt, houtcome⟩ | ⟨text, hinterrupted, houtcome, hcrashed⟩
        · left
          refine ⟨⟨call, none⟩ :: exchanges, ?_, .continued hattempt, houtcome⟩
          rw [hshown]
          rfl
        · exact .inr ⟨text, .later hinterrupted, houtcome, hcrashed⟩

/-- With a programmer that never crashes the work of a worker is not
interrupted. -/
theorem perform_attempt {programmer : Programmer} (hsafe : programmer.NeverCrashes)
    {actions : List Action} (hsound : Action.Sound actions) (past : List Invocation) :
    ∃ exchanges,
      Events.calls (perform programmer past actions).events = shown exchanges ∧
      Attempt (Action.planned actions) exchanges ∧
      (perform programmer past actions).outcome =
        .ofFault? ((firstFault? exchanges).or (Action.refusal? actions)) := by
  rcases perform_ends programmer hsound past with hattempt | ⟨text, _, _, before, call, hcrashed⟩
  · exact hattempt
  · exact absurd hcrashed (hsafe before call text)

/-- Of the programmer's answers only the outcomes matter to what a worker calls
for and to what becomes of its work. -/
theorem perform_congr {programmer other : Programmer} {serial : Serial}
    (hsame : ∀ past call, call.serial = serial →
      (programmer.respond past call).outcome = (other.respond past call).outcome)
    {actions : List Action}
    (hserial : ∀ call, .invoke call ∈ actions → call.serial = serial) (past : List Invocation) :
    Events.calls (perform programmer past actions).events =
        Events.calls (perform other past actions).events ∧
      (perform programmer past actions).outcome = (perform other past actions).outcome := by
  induction actions generalizing past with
  | nil => exact ⟨rfl, rfl⟩
  | cons action rest ih =>
    have hrest : ∀ call, .invoke call ∈ rest → call.serial = serial :=
      fun call hmem => hserial call (List.mem_cons_of_mem _ hmem)
    cases action with
    | say record =>
      obtain ⟨hcalls, houtcome⟩ := ih hrest past
      simp only [perform_say]
      exact ⟨hcalls, houtcome⟩
    | refuse fault => exact ⟨rfl, rfl⟩
    | crash text => exact ⟨rfl, rfl⟩
    | invoke call =>
      have hcall := hsame past call (hserial call List.mem_cons_self)
      have hshown : Events.calls (programmer.call past call).events =
          Events.calls (other.call past call).events := by
        rw [Programmer.calls_call, Programmer.calls_call, hcall]
      obtain ⟨hcalls, houtcome⟩ := ih hrest (past ++ [call])
      simp only [perform_invoke, Programmer.call_outcome, hcall]
      cases hanswer : (other.respond past call).outcome with
      | succeeded => simp [hshown, hcalls, houtcome]
      | failed fault => simp [hshown, hcall]
      | crashed text => simp [hshown, hcall]

end FlashFleet
