import FlashFleet.Proofs.Choices
import FlashFleet.Proofs.Options
import FlashFleet.Proofs.Preparation
/-!
# Serials on the command line

The option of the serials may be given more than once, anywhere among the other options, and each
time with several serials between commas. What is asked for is the list of all of them, from left
to right, if each is spelled like a serial; one that is not, also an empty one, spoils the whole
command line. Which devices are selected depends on the list only through what is in it: neither
the order, nor a repetition, nor how serials are spelled or put together makes a difference.

## Main results

* `readSerials_eq_ok_iff`, `readSerials_eq_error_iff` — the serials that a value lists.
* `finish_strewn` — options of the serials, strewn among others that are accepted.
* `Selection.alike_of_same` — selections with the same serials in their lists are alike.
* `parse_grouped` — a command line asks for the serials that its values list.
* `parse_of_spoilt` — a command line with a spoilt value is refused, whatever the others.
* `selected_by_set` — all of this for a whole command line.
-/

namespace FlashFleet

namespace CommandLine

/-! ## One value -/

/-- The value lists the serials: piece by piece between its commas it spells them. -/
def Listed (value : String) (serials : List Serial) : Prop :=
  ∃ pieces, Text.Cut ',' value.toList pieces ∧
    List.Forall₂ (fun piece => Serial.Spells (String.ofList piece)) pieces serials

/-- A piece of the value is empty, or is refused as a serial. -/
def Spoilt (value : String) : Prop :=
  ∃ pieces, Text.Cut ',' value.toList pieces ∧
    ∃ piece ∈ pieces, piece = [] ∨ ∃ fault, Serial.parse (String.ofList piece) = .error fault

theorem readEach_eq_ok_iff {pieces : List (List Char)} {serials : List Serial} :
    Given.readEach pieces = .ok serials ↔
      List.Forall₂ (fun piece => Serial.Spells (String.ofList piece)) pieces serials := by
  induction pieces generalizing serials with
  | nil =>
    rw [List.forall₂_nil_left_iff, Given.readEach, Except.ok.injEq]
    exact eq_comm
  | cons piece rest ih =>
    rw [List.forall₂_cons_left_iff, Given.readEach]
    constructor
    · intro h
      split at h
      · cases h
      · next serial hserial =>
        obtain ⟨later, hlater, rfl⟩ := map_eq_ok h
        exact ⟨serial, later, Serial.parse_eq_ok_iff.1 hserial, ih.1 hlater, rfl⟩
    · rintro ⟨serial, later, hserial, hlater, rfl⟩
      rw [Serial.parse_eq_ok_iff.2 hserial, ih.2 hlater]
      rfl

theorem readEach_eq_error_iff {pieces : List (List Char)} {error : UsageError} :
    Given.readEach pieces = .error error ↔ error = .malformedValue ∧
      ∃ piece ∈ pieces, ∃ fault, Serial.parse (String.ofList piece) = .error fault := by
  induction pieces with
  | nil => simp [Given.readEach]
  | cons piece rest ih =>
    rw [List.exists_mem_cons_iff, Given.readEach]
    cases hserial : Serial.parse (String.ofList piece) with
    | error fault => simp [eq_comm]
    | ok serial =>
      cases hlater : Given.readEach rest with
      | error other =>
        rw [hlater] at ih
        simpa [Except.map] using ih
      | ok later =>
        rw [hlater] at ih
        simpa [Except.map] using ih

/-- What is read of a value are the serials that it lists. -/
theorem readSerials_eq_ok_iff {value : String} {serials : List Serial} :
    Given.readSerials value = .ok serials ↔ Listed value serials := by
  rw [Given.readSerials, readEach_eq_ok_iff]
  constructor
  · exact fun h => ⟨_, Text.splitAll_eq_iff.1 rfl, h⟩
  · rintro ⟨pieces, hcut, h⟩
    rwa [Text.splitAll_eq_iff.2 hcut]

/-- Nothing is refused as a serial. -/
theorem parse_empty : Serial.parse (String.ofList []) = .error ⟨false, .empty⟩ := by
  decide

/-- A value is refused for a spoilt piece. -/
theorem readSerials_eq_error_iff {value : String} {error : UsageError} :
    Given.readSerials value = .error error ↔ error = .malformedValue ∧ Spoilt value := by
  have hspoilt : Spoilt value ↔ ∃ piece ∈ Text.splitAll ',' value.toList,
      ∃ fault, Serial.parse (String.ofList piece) = .error fault := by
    constructor
    · rintro ⟨pieces, hcut, piece, hmem, hpiece⟩
      refine ⟨piece, by rwa [Text.splitAll_eq_iff.2 hcut], ?_⟩
      rcases hpiece with rfl | hfault
      · exact ⟨_, parse_empty⟩
      · exact hfault
    · rintro ⟨piece, hmem, hfault⟩
      exact ⟨_, Text.splitAll_eq_iff.1 rfl, piece, hmem, .inr hfault⟩
  rw [Given.readSerials, readEach_eq_error_iff, hspoilt]

/-! ## One value after another -/

/-- The values list the serials, one value after another. -/
inductive Grouped : List String → List Serial → Prop where
  | nil : Grouped [] []
  | cons {group : String} {groups : List String} {serials later : List Serial}
      (hgroup : Listed group serials) (h : Grouped groups later) :
      Grouped (group :: groups) (serials ++ later)

/-- Reads serials from values. -/
def readGroups : List String → Except UsageError (List Serial)
  | [] => .ok []
  | group :: groups => do
    let serials ← Given.readSerials group
    let later ← readGroups groups
    return serials ++ later

theorem readGroups_eq_ok_iff {groups : List String} {serials : List Serial} :
    readGroups groups = .ok serials ↔ Grouped groups serials := by
  constructor
  · intro h
    induction groups generalizing serials with
    | nil =>
      cases h
      exact .nil
    | cons group groups ih =>
      obtain ⟨first, hfirst, h⟩ := bind_eq_ok h
      obtain ⟨later, hlater, h⟩ := bind_eq_ok h
      cases h
      exact .cons (readSerials_eq_ok_iff.1 hfirst) (ih hlater)
  · intro h
    induction h with
    | nil => rfl
    | cons hgroup _ ih =>
      rw [readGroups, readSerials_eq_ok_iff.2 hgroup, ih]
      rfl

/-- Values are refused for a spoilt one. -/
theorem readGroups_of_spoilt {groups : List String} (h : ∃ group ∈ groups, Spoilt group) :
    readGroups groups = .error .malformedValue := by
  induction groups with
  | nil =>
    obtain ⟨group, hmem, _⟩ := h
    cases hmem
  | cons group groups ih =>
    rw [readGroups]
    cases hfirst : Given.readSerials group with
    | error error =>
      rw [(readSerials_eq_error_iff.1 hfirst).1]
      rfl
    | ok first =>
      obtain ⟨other, hmem, hspoilt⟩ := h
      have hother : other ∈ groups := by
        refine (List.mem_cons.1 hmem).resolve_left ?_
        rintro rfl
        rw [readSerials_eq_error_iff.2 ⟨rfl, hspoilt⟩] at hfirst
        cases hfirst
      rw [ih ⟨other, hother, hspoilt⟩]
      rfl

/-- Values of which there is one list some serial. -/
theorem Grouped.ne_nil {groups : List String} {serials : List Serial} (h : Grouped groups serials)
    (hgroups : groups ≠ []) : serials ≠ [] := by
  cases h with
  | nil => exact absurd rfl hgroups
  | cons hgroup _ =>
    obtain ⟨pieces, hcut, hpieces⟩ := hgroup
    intro hnil
    rw [(List.append_eq_nil_iff.1 hnil).1, List.forall₂_nil_right_iff] at hpieces
    exact hcut.nonempty hpieces

/-! ## Strewn options -/

/-- The options of the serials with these values are strewn, in this order, among the other
arguments: before, between and behind the other options, but not between an option and its
value, and not behind two dashes. -/
inductive Strewn : List String → List String → List String → Prop where
  | nil : Strewn [] [] []
  | escape : Strewn ["--"] [] ["--"]
  | serials {others groups arguments : List String} (group : String)
      (h : Strewn others groups arguments) :
      Strewn others (group :: groups) (("--snr=" ++ group) :: arguments)
  | other {option others groups arguments : List String} (hoption : Other option)
      (h : Strewn others groups arguments) :
      Strewn (option ++ others) groups (option ++ arguments)

/-- The command takes serials. -/
def CommandName.Selects (name : CommandName) : Prop := name = .program ∨ name = .reboot

theorem ofText_serials (group : String) :
    Argument.ofText ("--snr=" ++ group) = .long "snr" (some group) := by
  have htext : ("--snr=" ++ group).toList =
      '-' :: '-' :: 's' :: (['n', 'r'] ++ '=' :: group.toList) := by
    rw [String.toList_append]
    rfl
  have hname : '=' ∉ ['s', 'n', 'r'] := by decide
  have hcut : Text.splitFirst '=' ('s' :: (['n', 'r'] ++ '=' :: group.toList)) =
      some (['s', 'n', 'r'], group.toList) :=
    Text.splitFirst_append hname group.toList
  simp only [Argument.ofText, htext, hcut, String.ofList_toList]

variable {name : CommandName} {given : Given}

/-- The option of the serials adds those that its value lists. -/
theorem finish_serials (hname : name.Selects) (hnone : given.pending = none) (group : String)
    (rest : List String) :
    finish name given false (("--snr=" ++ group) :: rest) = (do
      let serials ← Given.readSerials group
      finish name (given.withSerials (given.serials ++ serials)) false rest) := by
  have hallowed : (OptionName.ofLong? "snr").filter (·.allowed (.command name)) =
      some (.value .serials) := by
    rcases hname with rfl | rfl <;> decide
  rw [finish_cons, readArgument, ofText_serials]
  simp only [takeLong, hallowed, giveValue_of_none hnone, Given.take]
  cases Given.readSerials group <;> rfl

/-- Among others that are accepted, the options of the serials add up to what they list. -/
theorem finish_strewn (hname : name.Selects) {others groups arguments : List String}
    (h : Strewn others groups arguments) (hnone : given.pending = none) {final : Given}
    (hothers : finish name given false others = .ok final) (serials : List Serial) :
    finish name (given.withSerials serials) false arguments =
      (readGroups groups).map fun later => final.withSerials (serials ++ later) := by
  have hother : (given.withSerials serials).pending = none := hnone
  induction h generalizing given serials with
  | nil =>
    rw [finish_nil, settle_of_none hnone] at hothers
    cases hothers
    rw [finish_nil, settle_of_none hother, readGroups]
    simp only [Except.map, List.append_nil]
  | escape =>
    have hsettle : given.settle = .ok final := hothers
    rw [settle_of_none hnone] at hsettle
    cases hsettle
    change (final.withSerials serials).settle = _
    rw [settle_of_none hother, readGroups]
    simp only [Except.map, List.append_nil]
  | serials group _ ih =>
    rw [finish_serials hname hother, readGroups]
    cases Given.readSerials group with
    | error error => rfl
    | ok first =>
      have hlater := ih hnone hothers (serials ++ first) hnone
      change finish name (given.withSerials (serials ++ first)) false _ = _
      rw [hlater]
      cases readGroups _ with
      | error error => rfl
      | ok later =>
        simp only [bind, Except.bind, pure, Except.pure, Except.map, List.append_assoc]
  | other hoption _ ih =>
    obtain ⟨taken, htaken⟩ := takes_of_finish hnone hoption hothers
    rw [(htaken.withSerials hnone hoption serials).finish hother]
    rw [htaken.finish hnone] at hothers
    exact ih (htaken.pending hnone) hothers serials (htaken.pending hnone)

/-- In a command line that is accepted no value is spoilt. -/
theorem readGroups_of_finish (hname : name.Selects) {others groups arguments : List String}
    (h : Strewn others groups arguments) (hnone : given.pending = none) {final : Given}
    (hfinish : finish name given false arguments = .ok final) :
    ∃ serials, readGroups groups = .ok serials := by
  induction h generalizing given with
  | nil => exact ⟨[], rfl⟩
  | escape => exact ⟨[], rfl⟩
  | serials group _ ih =>
    rw [finish_serials hname hnone] at hfinish
    obtain ⟨first, hfirst, hfinish⟩ := bind_eq_ok hfinish
    have hother : (given.withSerials (given.serials ++ first)).pending = none := hnone
    obtain ⟨later, hlater⟩ := ih hother hfinish
    refine ⟨first ++ later, ?_⟩
    rw [readGroups, hfirst, hlater]
    rfl
  | other hoption _ ih =>
    obtain ⟨taken, htaken⟩ := takes_of_finish hnone hoption hfinish
    rw [htaken.finish hnone] at hfinish
    exact ih (htaken.pending hnone) hfinish

end CommandLine

/-! ## Selections with the same serials -/

namespace Selection

/-- The selections do the same with any devices: they count, and prepare, the same ones. -/
structure Alike (a b : Selection) : Prop where
  count : ∀ devices, a.count devices = b.count devices
  program : ∀ images devices, a.forProgram images devices = b.forProgram images devices
  reboot : ∀ devices, a.forReboot devices = b.forReboot devices

variable {a b : Selection}

theorem alike_of_selects (h : a.selects = b.selects) : Alike a b where
  count devices := by rw [Selection.count, Selection.count, h]
  program images devices := by
    have hwarnings : a.warnings images = b.warnings images := by
      funext device
      rw [warnings, warnings, h]
    have hprepare : a.prepareProgram images = b.prepareProgram images := by
      funext device
      rw [prepareProgram, prepareProgram, h]
    rw [forProgram, forProgram, hwarnings, hprepare]
  reboot devices := by
    have hprepare : a.prepareReboot = b.prepareReboot := by
      funext device
      rw [prepareReboot, prepareReboot, h]
    rw [forReboot, forReboot, hprepare]

variable {kind : Option Kind} {serials others : List Serial}

/-- Where serials are given, those devices are selected that have one of them. -/
theorem selects_iff_mem (hserials : serials ≠ []) {device : Device} :
    selects ⟨kind, serials⟩ device = true ↔
      (∀ wanted ∈ kind, device.kind = wanted) ∧ device.serial ∈ serials := by
  rw [selects_iff, Matches]
  simp only [hserials, false_or, Option.mem_def]

/-- Selections of the same kind with the same serials in their lists are alike. -/
theorem alike_of_same (hserials : serials ≠ [])
    (hsame : ∀ serial, serial ∈ serials ↔ serial ∈ others) :
    Alike ⟨kind, serials⟩ ⟨kind, others⟩ := by
  have hothers : others ≠ [] := by
    obtain ⟨serial, hmem⟩ := List.exists_mem_of_ne_nil serials hserials
    exact List.ne_nil_of_mem ((hsame serial).1 hmem)
  apply alike_of_selects
  funext device
  rw [Bool.eq_iff_iff, selects_iff_mem hserials, selects_iff_mem hothers, hsame]

theorem count_eq_length_filter (hserials : serials ≠ []) (devices : List Device) :
    count ⟨kind, serials⟩ devices =
      (devices.filter fun device =>
        (∀ wanted ∈ kind, device.kind = wanted) ∧ device.serial ∈ serials).length := by
  rw [count, List.countP_eq_length_filter]
  congr 2
  funext device
  rw [Bool.eq_iff_iff, selects_iff_mem hserials, decide_eq_true_iff]

end Selection

namespace Command

variable {a b : Selection} (h : Selection.Alike a b) (host : Host) (programmer : Programmer)
  (mode : Mode) (path : String)
include h

theorem program_of_alike (images : Images) :
    program host programmer mode path a images = program host programmer mode path b images := by
  simp only [program, h.count, h.program]

theorem reboot_of_alike :
    reboot host programmer mode path a = reboot host programmer mode path b := by
  simp only [reboot, h.count, h.reboot]

end Command

/-! ## Whole command lines -/

namespace CommandLine

/-- The same target with other serials. -/
def Target.withSerials (target : Target) (serials : List Serial) : Target :=
  { target with selection := { target.selection with serials := serials } }

/-- The same request for other serials. -/
def Request.withSerials : Request → List Serial → Request
  | .program target images, serials => .program (target.withSerials serials) images
  | .reboot target, serials => .reboot (target.withSerials serials)
  | .listDevices path, _ => .listDevices path
  | .listProgrammers, _ => .listProgrammers

/-- The same with the request for other serials. -/
def Invocation.withSerials (invocation : Invocation) (serials : List Serial) : Invocation :=
  { invocation with request := invocation.request.withSerials serials }

theorem request_withSerials (name : CommandName) (given : Given) (serials : List Serial) :
    request name (given.withSerials serials) =
      (request name given).map (·.withSerials serials) := by
  cases name with
  | program =>
    simp only [request, Given.target, Given.withSerials]
    cases given.devices <;> rfl
  | reboot =>
    simp only [request, Given.target, Given.withSerials]
    cases given.devices <;> rfl
  | listDevices =>
    simp only [request, Given.withSerials]
    cases given.devices <;> rfl
  | listProgrammers => rfl

/-- With the same serials in their lists, requests do the same on every machine. -/
theorem run_of_same {serials others : List Serial} (hserials : serials ≠ [])
    (hsame : ∀ serial, serial ∈ serials ↔ serial ∈ others) (invocation : Invocation) (host : Host)
    (scheduler : Parallel.Scheduler) :
    (invocation.withSerials serials).run host scheduler =
      (invocation.withSerials others).run host scheduler := by
  obtain ⟨verbosity, programmer, request⟩ := invocation
  have halike : ∀ kind, Selection.Alike ⟨kind, serials⟩ ⟨kind, others⟩ :=
    fun _ => Selection.alike_of_same hserials hsame
  cases request with
  | program target images =>
    simp only [Invocation.run, Invocation.withSerials, Request.withSerials, Target.withSerials,
      Command.program_of_alike (halike target.selection.kind)]
    rfl
  | reboot target =>
    simp only [Invocation.run, Invocation.withSerials, Request.withSerials, Target.withSerials,
      Command.reboot_of_alike (halike target.selection.kind)]
    rfl
  | listDevices path => rfl
  | listProgrammers => rfl

variable {name : CommandName} {given : Given} {front others groups arguments : List String}

/-- A request of a command that takes serials is for devices with those that were given. -/
theorem target?_of_parse (hname : name.Selects) (hfront : Leads front name given)
    {invocation : Invocation} (h : parse (front ++ name.text :: others) = .ok invocation) :
    ∃ target, invocation.request.target? = some target := by
  rw [hfront.parse] at h
  obtain ⟨behind, _, h⟩ := bind_eq_ok h
  obtain ⟨asked, hasked, h⟩ := bind_eq_ok h
  obtain ⟨_, _, h⟩ := bind_eq_ok h
  cases h
  rcases hname with rfl | rfl
  · obtain ⟨target, _, rfl⟩ := map_eq_ok hasked
    exact ⟨target, rfl⟩
  · obtain ⟨target, _, rfl⟩ := map_eq_ok hasked
    exact ⟨target, rfl⟩

/-- A command line that is accepted without serials comes to what its values list, wherever
their options stand. -/
theorem parse_strewn (hname : name.Selects) (hfront : Leads front name given)
    (hstrewn : Strewn others groups arguments) {invocation : Invocation}
    (h : parse (front ++ name.text :: others) = .ok invocation) :
    parse (front ++ name.text :: arguments) =
      (readGroups groups).map fun serials => invocation.withSerials serials := by
  rw [hfront.parse] at h
  obtain ⟨behind, hbehind, h⟩ := bind_eq_ok h
  obtain ⟨asked, hasked, h⟩ := bind_eq_ok h
  obtain ⟨settled, hsettled, h⟩ := bind_eq_ok h
  cases h
  have hfinish := finish_strewn hname hstrewn rfl hbehind []
  rw [hfront.parse]
  change (CommandLine.finish name ((({} : Given)).withSerials []) false arguments >>= _) = _
  rw [hfinish]
  cases readGroups groups with
  | error error => rfl
  | ok serials =>
    change (request name (behind.withSerials serials) >>= _) = _
    rw [request_withSerials, hasked, hsettled]
    rfl

/-- Values that list serials, strewn in a command line that is accepted without them, ask for
these serials. -/
theorem parse_grouped (hname : name.Selects) (hfront : Leads front name given)
    (hstrewn : Strewn others groups arguments) {invocation : Invocation}
    (h : parse (front ++ name.text :: others) = .ok invocation) {serials : List Serial}
    (hgrouped : Grouped groups serials) :
    parse (front ++ name.text :: arguments) = .ok (invocation.withSerials serials) := by
  rw [parse_strewn hname hfront hstrewn h, readGroups_eq_ok_iff.2 hgrouped]
  rfl

theorem target?_withSerials (request : Request) (serials : List Serial) :
    (request.withSerials serials).target? = request.target?.map (·.withSerials serials) := by
  cases request <;> rfl

/-- With a spoilt value a command line is refused, whatever becomes of its other options. -/
theorem parse_of_spoilt (hname : name.Selects) (hfront : Leads front name given)
    (hstrewn : Strewn others groups arguments) (hspoilt : ∃ group ∈ groups, Spoilt group) :
    ∃ error, parse (front ++ name.text :: arguments) = .error error := by
  cases hparse : parse (front ++ name.text :: arguments) with
  | error error => exact ⟨error, rfl⟩
  | ok invocation =>
    rw [hfront.parse] at hparse
    obtain ⟨behind, hbehind, _⟩ := bind_eq_ok hparse
    obtain ⟨serials, hread⟩ := readGroups_of_finish hname hstrewn rfl hbehind
    rw [readGroups_of_spoilt hspoilt] at hread
    cases hread

/-- What serials on the command line select depends only on the set of their numbers. Options of
the serials that are strewn among others are accepted with these, and the serials asked for are
those that their values list, in order. Two lists with the same serials in them select, and
prepare, the same devices: those of the kind that have one of the serials. So two such command
lines do the same on every machine. With a spoilt value, whatever the others, no command runs. -/
theorem selected_by_set (hname : name.Selects) (hfront : Leads front name given)
    (hstrewn : Strewn others groups arguments) :
    (∀ invocation serials, parse (front ++ name.text :: others) = .ok invocation →
        Grouped groups serials →
        parse (front ++ name.text :: arguments) = .ok (invocation.withSerials serials) ∧
          ∃ target, (invocation.withSerials serials).request.target? = some target ∧
            target.selection.serials = serials) ∧
      (∀ (kind : Option Kind) (serials again : List Serial), serials ≠ [] →
        (∀ serial, serial ∈ serials ↔ serial ∈ again) →
        Selection.Alike ⟨kind, serials⟩ ⟨kind, again⟩ ∧
          ∀ devices, Selection.count ⟨kind, serials⟩ devices =
            (devices.filter fun device =>
              (∀ wanted ∈ kind, device.kind = wanted) ∧ device.serial ∈ serials).length) ∧
      (∀ invocation serials, parse (front ++ name.text :: others) = .ok invocation →
        groups ≠ [] → Grouped groups serials →
        ∀ regrouped rearranged again, Strewn others regrouped rearranged →
          Grouped regrouped again → (∀ serial, serial ∈ serials ↔ serial ∈ again) →
          ∀ host scheduler, run host scheduler (front ++ name.text :: arguments) =
            run host scheduler (front ++ name.text :: rearranged)) ∧
      ((∃ group ∈ groups, Spoilt group) →
        ∃ error, parse (front ++ name.text :: arguments) = .error error ∧
          (∀ host scheduler,
            run host scheduler (front ++ name.text :: arguments) = .usage error) ∧
          ∀ invocation, parse (front ++ name.text :: others) = .ok invocation →
            error = .malformedValue) := by
  refine ⟨fun invocation serials h hgrouped => ⟨parse_grouped hname hfront hstrewn h hgrouped, ?_⟩,
    fun kind serials again hserials hsame => ⟨Selection.alike_of_same hserials hsame,
      Selection.count_eq_length_filter hserials⟩, ?_, ?_⟩
  · obtain ⟨target, htarget⟩ := target?_of_parse hname hfront h
    have hlater := target?_withSerials invocation.request serials
    rw [htarget] at hlater
    exact ⟨target.withSerials serials, hlater, rfl⟩
  · intro invocation serials h hgroups hgrouped regrouped rearranged again hagain hregrouped hsame
      host scheduler
    rw [run, run, parse_grouped hname hfront hstrewn h hgrouped,
      parse_grouped hname hfront hagain h hregrouped]
    exact congrArg _ (run_of_same (hgrouped.ne_nil hgroups) hsame invocation host scheduler)
  · intro hspoilt
    obtain ⟨error, hparse⟩ := parse_of_spoilt hname hfront hstrewn hspoilt
    refine ⟨error, hparse, fun host scheduler => by rw [run, hparse], fun invocation h => ?_⟩
    rw [parse_strewn hname hfront hstrewn h, readGroups_of_spoilt hspoilt] at hparse
    exact (Except.error.inj hparse).symm

/-- Without serials: the options around which they are strewn. -/
def plainOptions : List String := ["-d", "kits.toml", "-p", "dummy"]

theorem other_plainOptions : Other ["-d", "kits.toml"] ∧ Other ["-p", "dummy"] := by
  have hdevices : (Argument.ofText "-d").asks? = some .devices := by decide
  have hprogrammer : (Argument.ofText "-p").asks? = some .programmer := by decide
  exact ⟨.valued hdevices (by decide), .valued hprogrammer (by decide)⟩

/-- Two kits, by two options and by one, in several spellings; and a list with a hole in it. -/
theorem selected_by_set_twoKits :
    parse ["-v", "reboot", "--snr= 2,0x1", "-d", "kits.toml", "--snr=1 ,+02", "-p", "dummy"] =
        .ok ⟨1, "dummy", .reboot ⟨"kits.toml", ⟨none, [2, 1, 1, 2]⟩, false⟩⟩ ∧
      (∀ host scheduler,
        run host scheduler
            ["-v", "reboot", "--snr= 2,0x1", "-d", "kits.toml", "--snr=1 ,+02", "-p", "dummy"] =
          run host scheduler ["-v", "reboot", "-d", "kits.toml", "-p", "dummy", "--snr=1,2"]) ∧
      parse ["-v", "reboot", "-d", "kits.toml", "-p", "dummy", "--snr=1,,2"] =
        .error .malformedValue := by
  have hname : CommandName.reboot.Selects := .inr rfl
  have hfront : Leads ["-v"] .reboot { verbosity := 1 } := by
    unfold Leads
    decide +kernel
  have hplain : parse (["-v"] ++ "reboot" :: plainOptions) =
      .ok ⟨1, "dummy", .reboot ⟨"kits.toml", {}, false⟩⟩ := by
    decide +kernel
  obtain ⟨hdevices, hprogrammer⟩ := other_plainOptions
  have hstrewn : Strewn plainOptions [" 2,0x1", "1 ,+02"]
      ["--snr= 2,0x1", "-d", "kits.toml", "--snr=1 ,+02", "-p", "dummy"] :=
    .serials " 2,0x1" (.other hdevices (.serials "1 ,+02" (.other hprogrammer .nil)))
  have hrearranged : Strewn plainOptions ["1,2"]
      ["-d", "kits.toml", "-p", "dummy", "--snr=1,2"] :=
    .other hdevices (.other hprogrammer (.serials "1,2" .nil))
  have hhole : Strewn plainOptions ["1,,2"] ["-d", "kits.toml", "-p", "dummy", "--snr=1,,2"] :=
    .other hdevices (.other hprogrammer (.serials "1,,2" .nil))
  have hgrouped : Grouped [" 2,0x1", "1 ,+02"] [2, 1, 1, 2] :=
    readGroups_eq_ok_iff.1 (by decide +kernel)
  have hregrouped : Grouped ["1,2"] [1, 2] := readGroups_eq_ok_iff.1 (by decide +kernel)
  have hset : ∀ serial : Serial, serial ∈ [2, 1, 1, 2] ↔ serial ∈ [1, 2] := by
    intro serial
    simp only [List.mem_cons, List.not_mem_nil, or_false]
    tauto
  have hspoilt : Spoilt "1,,2" := (readSerials_eq_error_iff.1 (by decide +kernel :
    Given.readSerials "1,,2" = .error .malformedValue)).2
  obtain ⟨haccepted, -, hsame, -⟩ := selected_by_set hname hfront hstrewn
  obtain ⟨-, -, -, hrefused⟩ := selected_by_set hname hfront hhole
  refine ⟨(haccepted _ _ hplain hgrouped).1, ?_, ?_⟩
  · exact hsame _ _ hplain (by decide) hgrouped _ _ _ hrearranged hregrouped hset
  · obtain ⟨error, hparse, -, herror⟩ := hrefused ⟨"1,,2", List.mem_singleton_self _, hspoilt⟩
    rw [← herror _ hplain]
    exact hparse

end CommandLine

end FlashFleet
