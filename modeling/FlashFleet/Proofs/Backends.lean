import FlashFleet.Backend.Registry
import FlashFleet.Host.Rehearsal
import FlashFleet.Proofs.Agenda
import FlashFleet.Proofs.Agreement
import FlashFleet.Proofs.Commands
import FlashFleet.Proofs.Rehearsing
/-!
# A rehearsal is worth something

The tool and the simulated programmer are written apart from each other: one turns an
invocation into arguments and reads an exit code, the other looks the invocation up in a
list. When the tool fails what the list tells the other to fail, they agree, faults
included, and so what is rehearsed with one is what happens with the other.

## Main results

* `Nrfjprog.agrees` — a tool that obeys a list agrees with the programmer that was given it.
* `backends_agree` — runs with both end alike, and the launches of the tool are those that
  the invocations of the other stand for.
-/

namespace FlashFleet

open Backend

/-! ## The tool and the list -/

/-- The programmer for the invocations given, and another for all else. -/
def Programmer.within (programmer : Programmer) (calls : List Invocation) (other : Programmer) :
    Programmer where
  respond past call :=
    if call ∈ calls then programmer.respond past call else other.respond past call

namespace Programmer

variable {programmer other : Programmer} {calls : List Invocation} {call : Invocation}

theorem respond_within (h : call ∈ calls) (past : List Invocation) :
    (programmer.within calls other).respond past call = programmer.respond past call :=
  if_pos h

theorem respond_within_of_not_mem (h : call ∉ calls) (past : List Invocation) :
    (programmer.within calls other).respond past call = other.respond past call :=
  if_neg h

theorem respondsAs_within (programmer other : Programmer) (calls : List Invocation) :
    programmer.RespondsAs (programmer.within calls other) calls :=
  fun past _ hcall => (respond_within hcall past).symm

end Programmer

/-- The simulated programmer logs no error. -/
theorem Dummy.calmly (dummy : Dummy) (past : List Invocation) (call : Invocation) :
    ∀ record ∈ (dummy.programmer.respond past call).logs, record.level ≠ .error := by
  intro record hrecord
  rw [List.mem_singleton.1 hrecord]
  simp

namespace Nrfjprog

/-- The tool can be started for the invocations, and exits with code 1 on the arguments of those
that are listed, and with 0 on those of the others. -/
def Obeys (tool : Nrfjprog) (launcher : Launcher) (failures : List (Operation × Serial))
    (calls : List Invocation) : Prop :=
  ∀ call ∈ calls,
    ((call.operation, call.serial) ∈ failures →
      launcher tool.path (arguments call) = .ok (some 1)) ∧
    ((call.operation, call.serial) ∉ failures →
      launcher tool.path (arguments call) = .ok (some 0))

/-- Where a tool obeys a list it agrees with the programmer that was given the list. -/
theorem agrees {tool : Nrfjprog} {launcher : Launcher} {dummy : Dummy} {calls : List Invocation}
    (h : tool.Obeys launcher dummy.failures calls) :
    ((tool.programmer launcher).within calls dummy.programmer).Agrees dummy.programmer where
  outcome := by
    intro past call
    by_cases hcall : call ∈ calls
    · obtain ⟨hfails, hsucceeds⟩ := h call hcall
      rw [Programmer.respond_within hcall]
      by_cases hlisted : (call.operation, call.serial) ∈ dummy.failures
      · simp [programmer, respond, launch, hfails hlisted, Dummy.programmer, Dummy.respond,
          hlisted, Error.fault]
      · simp [programmer, respond, launch, hsucceeds hlisted, Dummy.programmer, Dummy.respond,
          hlisted]
    · rw [Programmer.respond_within_of_not_mem hcall]
  calmly := by
    intro past call record hrecord
    by_cases hcall : call ∈ calls
    · rw [Programmer.respond_within hcall] at hrecord
      rw [List.mem_singleton.1 hrecord]
      simp [launchRecord]
    · rw [Programmer.respond_within_of_not_mem hcall] at hrecord
      exact dummy.calmly past call record hrecord
  calmly' := dummy.calmly

/-- The launch of the tool that an invocation stands for. -/
def launched (tool : Nrfjprog) (call : Invocation) : String × List String :=
  (tool.path, arguments call)

end Nrfjprog

/-! ## Runs with both -/

/-- An error in the log. -/
def Event.isError : Event → Bool
  | .log record => record.level == .error
  | _ => false

/-- What is of the essence is found in the essence. -/
theorem Trace.filter_congr {a b : Trace} (h : a.essence = b.essence) {p : Event → Bool}
    (hp : ∀ event, p event = true → event.isRemark = false) :
    a.filter (fun o => p o.event) = b.filter fun o => p o.event := by
  have hkept : ∀ trace : Trace,
      trace.essence.filter (fun o => p o.event) = trace.filter fun o => p o.event := by
    intro trace
    rw [essence, List.filter_filter, List.filter_congr]
    intro o _
    cases ho : p o.event with
    | false => rfl
    | true => simp [hp o.event ho]
  rw [← hkept a, ← hkept b, h]

namespace Threads

/-- A run with the tool is what was rehearsed, up to the order in which different probes
come to their turns. -/
structure Rehearsed (tool : Nrfjprog) (real rehearsal : FleetRun) : Prop where
  /-- Neither run crashes. -/
  crash : real.crash = none ∧ rehearsal.crash = none
  /-- The devices are left as they were in the rehearsal. -/
  devices : real.devices = rehearsal.devices
  /-- The tool is launched for what was asked in the rehearsal. -/
  launches : ((Opened.nrfjprog tool).launches real.trace.invocations).Perm
    (rehearsal.trace.invocations.map tool.launched)
  /-- For each probe it is so in order. -/
  launchesOf : ∀ serial,
    (Opened.nrfjprog tool).launches (ofProbe serial real.trace.invocations) =
      (ofProbe serial rehearsal.trace.invocations).map tool.launched

/-- A run with the tool is what was rehearsed, in the same order. -/
structure RehearsedInOrder (tool : Nrfjprog) (real rehearsal : FleetRun) : Prop
    extends Rehearsed tool real rehearsal where
  /-- The same progress is reported. -/
  progress : real.trace.filter (fun o => o.event.isProgress) =
    rehearsal.trace.filter fun o => o.event.isProgress
  /-- The same errors are logged. -/
  errors : real.trace.filter (fun o => o.event.isError) =
    rehearsal.trace.filter fun o => o.event.isError
  /-- The tool is launched in the order of the rehearsal. -/
  inOrder : (Opened.nrfjprog tool).launches real.trace.invocations =
    rehearsal.trace.invocations.map tool.launched

variable {tool : Nrfjprog} {launcher : Launcher} {dummy : Dummy} {past : List Invocation}
  {devices : List Device} {real rehearsal : FleetRun}

/-- A run asks the tool for what is on the agenda, and nothing else. -/
theorem comesTo_within {programmer : Programmer} {mode : Mode}
    (h : ComesTo (.of programmer mode past devices) real) (other : Programmer) :
    ComesTo (.of (programmer.within (Fleet.agenda devices) other) mode past devices) real :=
  comesTo_congr (programmer.respondsAs_within other _) h

theorem rehearsed_of_comesTo (h : tool.Obeys launcher dummy.failures (Fleet.agenda devices))
    (hnodup : (devices.map Device.serial).Nodup) {mode mode' : Mode}
    (hreal : ComesTo (.of (tool.programmer launcher) mode past devices) real)
    (hrehearsal : ComesTo (.of dummy.programmer mode' past devices) rehearsal) :
    Rehearsed tool real rehearsal := by
  have hagrees := Nrfjprog.agrees h
  have hwithin := comesTo_within hreal dummy.programmer
  obtain ⟨hdevices, hprobes⟩ :=
    alike_of_comesTo hagrees dummy.neverCrashes dummy.perProbe hnodup hwithin hrehearsal
  have hsafe : ((tool.programmer launcher).within (Fleet.agenda devices)
      dummy.programmer).NeverCrashes := by
    intro past call text
    rw [hagrees.outcome]
    exact dummy.neverCrashes past call text
  refine ⟨⟨(specified_of_comesTo hsafe hnodup hwithin).crash,
    (specified_of_comesTo dummy.neverCrashes hnodup hrehearsal).crash⟩, hdevices, ?_, ?_⟩
  · exact (perm_of_ofProbe hprobes).map tool.launched
  · intro serial
    rw [← hprobes serial]
    rfl

theorem rehearsedInOrder_of_comesTo
    (h : tool.Obeys launcher dummy.failures (Fleet.agenda devices))
    (hnodup : (devices.map Device.serial).Nodup)
    (hreal : ComesTo (.of (tool.programmer launcher) .sequential past devices) real)
    (hrehearsal : ComesTo (.of dummy.programmer .sequential past devices) rehearsal) :
    RehearsedInOrder tool real rehearsal := by
  have hsame := (Nrfjprog.agrees h).fleet_essence past devices
  rw [eq_of_comesTo_sequential (comesTo_within hreal _), eq_of_comesTo_sequential hrehearsal]
    at hsame
  refine { rehearsed_of_comesTo h hnodup hreal hrehearsal with
    progress := Trace.filter_congr hsame.essence ?_
    errors := Trace.filter_congr hsame.essence ?_
    inOrder := ?_ }
  · intro event hevent
    cases event <;> first | rfl | cases hevent
  · intro event hevent
    cases event with
    | log record => simpa [Event.isRemark, Event.isError] using hevent
    | _ => rfl
  · rw [← Trace.invocations_congr hsame.essence]
    rfl

/-- A tool that fails what the simulated programmer is told to fail, of all that may be asked in
a run over the devices, does in every run what was rehearsed: in sequential runs in the same
order, and in all runs for each probe. In whatever order the threads move, both runs come to an
end. -/
theorem backends_agree (h : tool.Obeys launcher dummy.failures (Fleet.agenda devices))
    (hnodup : (devices.map Device.serial).Nodup) (past : List Invocation) :
    (∀ real rehearsal,
      ComesTo (.of (tool.programmer launcher) .sequential past devices) real →
      ComesTo (.of dummy.programmer .sequential past devices) rehearsal →
        RehearsedInOrder tool real rehearsal) ∧
    (∀ mode mode' real rehearsal,
      ComesTo (.of (tool.programmer launcher) mode past devices) real →
      ComesTo (.of dummy.programmer mode' past devices) rehearsal →
        Rehearsed tool real rehearsal) ∧
    ∀ mode, Ends (.of (tool.programmer launcher) mode past devices) ∧
      Ends (.of dummy.programmer mode past devices) :=
  ⟨fun _ _ => rehearsedInOrder_of_comesTo h hnodup,
    fun _ _ _ _ => rehearsed_of_comesTo h hnodup, fun _ => ⟨ends _, ends _⟩⟩

/-! ## A tool that fails at one network core -/

/-- A machine on which the tool is found by its name. It reads its arguments, and fails to
program the network core behind the first probe. -/
def choosyMachine : Rehearsal :=
  .withFiles [] "nrfjprog" fun arguments =>
    some (if arguments[6]? = some "1" ∧ arguments[9]? = some "CP_NETWORK" then 1 else 0)

/-- The tool on that machine. -/
def choosyTool : Programmer := ({} : Nrfjprog).programmer choosyMachine.host.launch

/-- The same failure for the simulated programmer. -/
def choosyDummy : Dummy := { failures := [(.programNet, 1)] }

theorem choosyMachine_obeys :
    ({} : Nrfjprog).Obeys choosyMachine.host.launch choosyDummy.failures
      (Fleet.agenda twoKits) := by
  unfold Nrfjprog.Obeys
  decide +kernel

/-- The network core of the headset fails in both runs. -/
theorem backends_agree_twoKits :
    (Fleet.run choosyTool .sequential [] twoKits).devices.map Device.netProgrammed =
        [.failed, .done] ∧
      RehearsedInOrder {} (Fleet.run choosyTool .sequential [] twoKits)
        (Fleet.run choosyDummy.programmer .sequential [] twoKits) ∧
      Rehearsed {} (Fleet.run choosyTool (.parallel Parallel.ascending) [] twoKits)
        (Fleet.run choosyDummy.programmer .sequential [] twoKits) := by
  obtain ⟨hinOrder, hany, _⟩ := backends_agree choosyMachine_obeys
    (by decide : (twoKits.map Device.serial).Nodup) []
  exact ⟨by decide +kernel, hinOrder _ _ (comesTo_run ..) (comesTo_run ..),
    hany _ _ _ _ (comesTo_run ..) (comesTo_run ..)⟩

end Threads

end FlashFleet
