import FlashFleet.Proofs.Reports
import FlashFleet.Proofs.Specification
/-!
# The identity of a device

The configuration words of a device are what a run leaves behind in it. Erasing all
of a core erases them, whether it succeeds or not; a word is there once writing it
has succeeded; nothing else touches them. A run writes the serial word last, so
that after the erasure it stands only where the identity is complete, at every
point of the run. A device that is shown as done has its whole identity.

## Main results

* `Attempt.words` — what is seen of writes that are attempted in order is that
  some of them were made, from the first on.
* `provisioned_of_comesTo` — a run gives each device its own identity, and the serial
  word last.
-/

namespace FlashFleet

/-! ## Words -/

/-- The configuration words of a device by their addresses. A word that is erased is
not there. -/
abbrev Words := UInt32 → Option UInt32

namespace Words

/-- No word is there. -/
def erased : Words := fun _ => none

/-- The words with one more written. -/
def write (words : Words) (address value : UInt32) : Words :=
  fun other => if other = address then some value else words other

theorem write_self (words : Words) (address value : UInt32) :
    words.write address value address = some value :=
  if_pos rfl

theorem write_of_ne (words : Words) {address other : UInt32} (value : UInt32)
    (h : other ≠ address) : words.write address value other = words other :=
  if_neg h

end Words

/-- What an event makes of the words of the device behind a probe. They are erased as
soon as the erasure begins, and a word is there when its writing has succeeded. -/
def Event.alter (serial : Serial) (words : Words) : Event → Words
  | .began (.program _ _ probe .chip) => if probe = serial then .erased else words
  | .ended (.writeRegister address value probe) none =>
    if probe = serial then words.write address value else words
  | _ => words

/-- The words of the device behind a probe after some events. -/
def Events.words (serial : Serial) (initial : Words) (events : Events) : Words :=
  events.foldl (Event.alter serial) initial

/-- The words are left alone. -/
def Event.Idle (serial : Serial) (event : Event) : Prop := ∀ words, event.alter serial words = words

namespace Invocation

/-- An invocation that does not touch the words. -/
def spares : Invocation → Bool
  | .program _ _ _ .sectors => true
  | .reset _ => true
  | _ => false

/-- An invocation that writes a word. -/
def isWrite : Invocation → Bool
  | .writeRegister .. => true
  | _ => false

end Invocation

namespace Events

variable {serial : Serial} {initial : Words} {events : Events}

theorem words_append (a b : Events) :
    words serial initial (a ++ b) = words serial (words serial initial a) b :=
  List.foldl_append

theorem words_cons (event : Event) (rest : Events) :
    words serial initial (event :: rest) = words serial (event.alter serial initial) rest := rfl

theorem words_of_idle (h : ∀ event ∈ events, event.Idle serial) :
    words serial initial events = initial := by
  induction events with
  | nil => rfl
  | cons event rest ih =>
    rw [words_cons, h event List.mem_cons_self]
    exact ih fun other hmem => h other (List.mem_cons_of_mem _ hmem)

end Events

namespace Event

variable {serial : Serial} {event : Event} {call : Invocation}

/-- What concerns another probe, or none, leaves the words alone. -/
theorem idle_of_other (h : ∀ call, event.call? = some call → call.serial ≠ serial) :
    event.Idle serial := by
  intro words
  unfold alter
  split
  · next probe => exact if_neg (h _ rfl)
  · next probe => exact if_neg (h _ rfl)
  · rfl

theorem idle_of_spares (hcall : event.call? = some call) (h : call.spares = true) :
    event.Idle serial := by
  intro words
  unfold alter
  split
  · cases hcall
    cases h
  · cases hcall
    cases h
  · rfl

theorem idle_began (h : call.isWrite = true) : (Event.began call).Idle serial := by
  cases call with
  | writeRegister address value probe => exact fun _ => rfl
  | program core image probe erase => cases h
  | reset probe => cases h

theorem idle_failed (call : Invocation) (fault : Fault) :
    (Event.ended call (some fault)).Idle serial := by
  intro words
  cases call <;> rfl

end Event

/-- The words of a device depend on what was said to its probe alone. -/
theorem Events.words_about (serial : Serial) (initial : Words) (events : Events) :
    words serial initial (about serial events) = words serial initial events := by
  induction events generalizing initial with
  | nil => rfl
  | cons event rest ih =>
    by_cases hown : ∃ call, event.call? = some call ∧ call.serial = serial
    · obtain ⟨call, hcall, hserial⟩ := hown
      rw [about_cons_of_eq hcall hserial, words_cons, words_cons, ih]
    · have hother : ∀ call, event.call? = some call → call.serial ≠ serial :=
        fun call hcall hserial => hown ⟨call, hcall, hserial⟩
      have hskipped : about serial (event :: rest) = about serial rest := by
        cases hcall : event.call? with
        | none => exact about_cons_of_none hcall serial rest
        | some call => exact about_cons_of_ne hcall (hother call hcall) rest
      rw [hskipped, words_cons, Event.idle_of_other hother, ih]

/-! ## Attempts to write -/

/-- The words after writes that all succeeded. -/
def written (serial : Serial) (initial : Words) (plan : List Invocation) : Words :=
  Events.words serial initial (plan.map fun call => .ended call none)

theorem written_nil (serial : Serial) (initial : Words) : written serial initial [] = initial := rfl

theorem written_write (serial : Serial) (initial : Words) (address value : UInt32)
    (plan : List Invocation) :
    written serial initial (.writeRegister address value serial :: plan) =
      written serial (initial.write address value) plan := by
  have hwritten : Event.alter serial initial (.ended (.writeRegister address value serial) none) =
      initial.write address value := if_pos rfl
  rw [written, List.map_cons, Events.words_cons, hwritten]
  rfl

/-- A list that begins two others ends in the first, or goes on into the second. -/
theorem prefix_append_cases {α : Type} {seen a b : List α} (h : seen <+: a ++ b) :
    seen <+: a ∨ ∃ rest, seen = a ++ rest ∧ rest <+: b := by
  obtain ⟨later, hlater⟩ := h
  rcases List.append_eq_append_iff.1 hlater with ⟨rest, hrest, _⟩ | ⟨rest, hseen, hrest⟩
  · exact .inl ⟨rest, hrest.symm⟩
  · exact .inr ⟨rest, hseen, later, hrest.symm⟩

variable {plan : List Invocation} {exchanges : List Exchange} {serial : Serial}

/-- Of writes that are attempted in order some were made, from the first on, whenever
one looks. -/
theorem Attempt.words (h : Attempt plan exchanges) (hwrites : ∀ call ∈ plan, call.isWrite = true)
    {seen : Events} (hseen : seen <+: shown exchanges) (initial : Words) :
    ∃ made, made <+: plan ∧ Events.words serial initial seen = written serial initial made := by
  induction h generalizing seen initial with
  | complete =>
    rw [List.prefix_nil.1 hseen]
    exact ⟨[], List.nil_prefix, rfl⟩
  | broken call plan fault =>
    refine ⟨[], List.nil_prefix, Events.words_of_idle fun event hevent => ?_⟩
    have hmem := hseen.subset hevent
    simp only [shown_cons, shown_nil, List.mem_cons, List.not_mem_nil, or_false] at hmem
    rcases hmem with rfl | rfl
    · exact Event.idle_began (hwrites call List.mem_cons_self)
    · exact Event.idle_failed call fault
  | @continued call plan exchanges hrest ih =>
    have hbegan : (Event.began call).Idle serial :=
      Event.idle_began (hwrites call List.mem_cons_self)
    rw [shown_cons] at hseen
    rcases List.prefix_cons_iff.1 hseen with rfl | ⟨later, rfl, hlater⟩
    · exact ⟨[], List.nil_prefix, rfl⟩
    · rcases List.prefix_cons_iff.1 hlater with rfl | ⟨rest, rfl, hprefix⟩
      · exact ⟨[], List.nil_prefix, hbegan initial⟩
      · obtain ⟨made, hmade, hwords⟩ :=
          ih (fun other hmem => hwrites other (List.mem_cons_of_mem _ hmem)) hprefix
            (Event.alter serial initial (.ended call none))
        refine ⟨call :: made, List.cons_prefix_cons.2 ⟨rfl, hmade⟩, ?_⟩
        rw [Events.words_cons, hbegan, Events.words_cons, hwords]
        rfl

/-- When none of them failed all were made. -/
theorem Attempt.words_of_success (h : Attempt plan exchanges)
    (hwrites : ∀ call ∈ plan, call.isWrite = true) (hfault : firstFault? exchanges = none)
    (initial : Words) :
    Events.words serial initial (shown exchanges) = written serial initial plan := by
  induction h generalizing initial with
  | complete => rfl
  | broken call plan fault => cases hfault
  | @continued call plan exchanges hrest ih =>
    have hbegan : (Event.began call).Idle serial :=
      Event.idle_began (hwrites call List.mem_cons_self)
    rw [shown_cons, Events.words_cons, hbegan, Events.words_cons,
      ih (fun other hmem => hwrites other (List.mem_cons_of_mem _ hmem)) hfault]
    rfl

/-! ## The identity of a device -/

/-- The serial word tells the serial of the probe and, for a headset, the channel word
its channel. -/
structure Identified (device : Device) (words : Words) : Prop where
  serial : words Uicr.serialAddress = some device.serial
  channel : device.kind = .headset → ∃ channel, Channel.parse? device.channel = some channel ∧
    words Uicr.channelAddress = some channel.word

/-- Where the serial word of a headset stands, the channel word stands too. -/
def Committed (device : Device) (words : Words) : Prop :=
  device.kind = .headset → (words Uicr.serialAddress).isSome = true →
    ∃ channel, Channel.parse? device.channel = some channel ∧
      words Uicr.channelAddress = some channel.word

namespace Uicr

theorem channelAddress_ne : channelAddress ≠ serialAddress := by decide

theorem isWrite_of_mem_words {device : Device} {call : Invocation} (h : call ∈ words device) :
    call.isWrite = true := by
  obtain ⟨address, value, rfl⟩ := eq_writeRegister_of_mem_words h
  rfl

/-- The words of a headset with a valid channel. -/
theorem words_of_headset {device : Device} (hkind : device.kind = .headset) {channel : Channel}
    (hchannel : Channel.parse? device.channel = some channel) :
    words device = [.writeRegister channelAddress channel.word device.serial,
      .writeRegister serialAddress device.serial device.serial] := by
  simp [words, hkind, hchannel]

/-- The channel word comes before the serial word. -/
theorem committed_of_prefix {device : Device} {made : List Invocation}
    (h : made <+: words device) : Committed device (written device.serial .erased made) := by
  intro hkind hserial
  cases hchannel : Channel.parse? device.channel with
  | none =>
    have hnone : words device = [] := by simp [words, hkind, hchannel]
    rw [hnone] at h
    rw [List.prefix_nil.1 h] at hserial
    cases hserial
  | some channel =>
    refine ⟨channel, rfl, ?_⟩
    rw [words_of_headset hkind hchannel] at h
    rcases List.prefix_cons_iff.1 h with rfl | ⟨rest, rfl, hrest⟩
    · cases hserial
    · rcases List.prefix_cons_iff.1 hrest with rfl | ⟨last, rfl, hlast⟩
      · rw [written_write, written_nil, Words.write_of_ne _ _ channelAddress_ne.symm] at hserial
        cases hserial
      · rw [List.prefix_nil.1 hlast, written_write, written_write, written_nil,
          Words.write_of_ne _ _ channelAddress_ne, Words.write_self]

/-- All words together are the identity. -/
theorem identified_of_words {device : Device} (h : objection? device = none) :
    Identified device (written device.serial .erased (words device)) := by
  cases hkind : device.kind with
  | gateway =>
    have hwords : words device = [.writeRegister serialAddress device.serial device.serial] := by
      simp [words, hkind]
    rw [hwords, written_write, written_nil]
    refine ⟨Words.write_self .., fun hheadset => ?_⟩
    rw [hkind] at hheadset
    cases hheadset
  | headset =>
    cases hchannel : Channel.parse? device.channel with
    | none => simp [objection?, hkind, hchannel] at h
    | some channel =>
      rw [words_of_headset hkind hchannel, written_write, written_write, written_nil]
      refine ⟨Words.write_self .., fun _ => ⟨channel, hchannel, ?_⟩⟩
      rw [Words.write_of_ne _ _ channelAddress_ne, Words.write_self]

end Uicr

/-! ## The words of one device -/

variable {device : Device}

/-- Exchanges that spare the words leave them alone. -/
theorem idle_of_mem_shown (h : ∀ exchange ∈ exchanges, exchange.call.spares = true) :
    ∀ event ∈ shown exchanges, event.Idle serial := by
  intro event hevent
  obtain ⟨exchange, hexchange, hshown⟩ := List.mem_flatMap.1 hevent
  simp only [Exchange.events, List.mem_cons, List.not_mem_nil, or_false] at hshown
  rcases hshown with rfl | rfl
  · exact Event.idle_of_spares rfl (h exchange hexchange)
  · exact Event.idle_of_spares rfl (h exchange hexchange)

/-- Programming the network core spares the words. -/
theorem NetServed.spares {flag : Flag} (h : NetServed device exchanges flag) :
    ∀ exchange ∈ exchanges, exchange.call.spares = true := by
  cases h with
  | without himage => exact List.forall_mem_nil _
  | programmed himage fault last => simp [Invocation.spares]

/-- The invocations of a device's application phase before its last reset. -/
def appPlan (device : Device) (image : ImagePath) : List Invocation :=
  .program .application image device.serial .chip :: Uicr.words device

section Provisioning

variable {image : ImagePath} (hattempt : Attempt (appPlan device image) exchanges)
include hattempt

/-- Whenever one looks at a device's application phase, its words are some of its own,
from the first on. -/
theorem words_of_provisioning {last : Option Fault} {seen : Events}
    (hseen : seen <+: shown (exchanges ++ [⟨.reset device.serial, last⟩])) (hne : seen ≠ [])
    (initial : Words) :
    ∃ made, made <+: Uicr.words device ∧
      Events.words device.serial initial seen = written device.serial .erased made := by
  obtain ⟨fault, rest, rfl, hrest⟩ : ∃ fault rest,
      exchanges = ⟨.program .application image device.serial .chip, fault⟩ :: rest ∧
        ∀ seen, seen <+: shown rest → ∃ made, made <+: Uicr.words device ∧
          Events.words device.serial .erased seen = written device.serial .erased made := by
    cases hattempt with
    | broken call plan fault =>
      refine ⟨_, [], rfl, fun seen hseen => ⟨[], List.nil_prefix, ?_⟩⟩
      rw [List.prefix_nil.1 hseen]
      rfl
    | continued hwords =>
      refine ⟨_, _, rfl, fun seen hseen => ?_⟩
      exact hwords.words (fun _ hmem => Uicr.isWrite_of_mem_words hmem) hseen .erased
  rw [List.cons_append, shown_cons, shown_append] at hseen
  rcases List.prefix_cons_iff.1 hseen with rfl | ⟨later, rfl, hlater⟩
  · exact absurd rfl hne
  -- The erasure comes first, whatever becomes of it.
  have herased : Event.alter device.serial initial
      (.began (.program .application image device.serial .chip)) = .erased := if_pos rfl
  rw [Events.words_cons, herased]
  rcases List.prefix_cons_iff.1 hlater with rfl | ⟨writes, rfl, hwrites⟩
  · exact ⟨[], List.nil_prefix, rfl⟩
  rcases prefix_append_cases hwrites with hbefore | ⟨reset, rfl, hreset⟩
  · exact hrest writes hbefore
  · obtain ⟨made, hmade, hwords⟩ := hrest _ List.prefix_rfl
    refine ⟨made, hmade, ?_⟩
    rw [← hwords, Events.words_cons, Events.words_append]
    apply Events.words_of_idle
    intro event hevent
    apply idle_of_mem_shown ?_ event (hreset.subset hevent)
    simp [Invocation.spares]

/-- After an application phase without a fault all words of the device are there. -/
theorem words_of_provisioned (hfault : firstFault? exchanges = none) (last : Option Fault)
    (initial : Words) :
    Events.words device.serial initial (shown (exchanges ++ [⟨.reset device.serial, last⟩])) =
      written device.serial .erased (Uicr.words device) := by
  cases hattempt with
  | broken call plan fault => cases hfault
  | @continued _ _ wordings hwords =>
    have hall : Events.words device.serial .erased (shown wordings) =
        written device.serial .erased (Uicr.words device) :=
      hwords.words_of_success (fun _ hmem => Uicr.isWrite_of_mem_words hmem) hfault .erased
    rw [List.cons_append, shown_cons, shown_append, Events.words_cons, Events.words_cons,
      Events.words_append]
    have herased : Event.alter device.serial initial
        (.began (.program .application image device.serial .chip)) = .erased := if_pos rfl
    rw [herased, ← hall]
    apply Events.words_of_idle
    apply idle_of_mem_shown
    simp [Invocation.spares]

end Provisioning

namespace Served

variable {after : Device} (h : Served device exchanges after)
include h

/-- After the erasure the serial word of a device comes last, whenever one looks. -/
theorem committed {seen : Events} (hseen : seen <+: shown exchanges) {core : Core}
    {image : ImagePath} (herased : .began (.program core image device.serial .chip) ∈ seen)
    (initial : Words) : Committed device (Events.words device.serial initial seen) := by
  have hshown := began_mem_shown.1 (hseen.subset herased)
  cases h with
  | disconnected hconnected => simp at hshown
  | rebooted hconnected hpending fault last => simp at hshown
  | @programmed hconnected hpending net app netFlag appFlag hnet happ =>
    have hnone : .began (.program core image device.serial .chip) ∉ shown net := by
      intro hmem
      obtain ⟨exchange, hexchange, hcall⟩ := began_mem_shown.1 hmem
      have hspares := hnet.spares exchange hexchange
      rw [hcall] at hspares
      cases hspares
    rw [shown_append] at hseen
    rcases prefix_append_cases hseen with hbefore | ⟨rest, rfl, hrest⟩
    · exact absurd (hbefore.subset herased) hnone
    · have hlater := (List.mem_append.1 herased).resolve_left hnone
      cases happ with
      | without hnone =>
        rw [List.prefix_nil.1 hrest] at hlater
        cases hlater
      | programmed hselected himage hattempt last =>
        obtain ⟨made, hmade, hwords⟩ :=
          words_of_provisioning hattempt hrest (List.ne_nil_of_mem hlater)
            (Events.words device.serial initial (shown net))
        rw [Events.words_append, hwords]
        exact Uicr.committed_of_prefix hmade

/-- A device whose application phase was due and that is shown as done has its
identity. -/
theorem identified (hconnected : device.connected = true)
    (hselected : device.rebootOnly = .notSelected) (himage : device.appImage.isSome = true)
    (hdone : after.appProgrammed = .done) (initial : Words) :
    Identified device (Events.words device.serial initial (shown exchanges)) := by
  cases h with
  | disconnected hnot =>
    rw [hconnected] at hnot
    cases hnot
  | rebooted hconnected hpending fault last =>
    rw [hselected] at hpending
    cases hpending
  | programmed hconnected hpending hnet happ =>
    cases happ with
    | without hnone =>
      rcases hnone with hnot | hnot
      · exact absurd hselected hnot
      · rw [hnot] at himage
        cases himage
    | @programmed image exchanges hselected himage hattempt last =>
      have hverdict : (firstFault? exchanges).isNone = true ∧
          (Uicr.objection? device).isNone = true := by
        by_contra hnot
        rw [← Bool.and_eq_true, Bool.not_eq_true] at hnot
        rw [hnot] at hdone
        cases hdone
      rw [shown_append, Events.words_append,
        words_of_provisioned hattempt (Option.isNone_iff_eq_none.1 hverdict.1)]
      exact Uicr.identified_of_words (Option.isNone_iff_eq_none.1 hverdict.2)

/-- What is written through the probe of a device are its words. -/
theorem mem_words {address value : UInt32} {probe : Serial}
    (hwrite : .began (.writeRegister address value probe) ∈ shown exchanges) :
    .writeRegister address value probe ∈ Uicr.words device := by
  obtain ⟨exchange, hexchange, hcall⟩ := began_mem_shown.1 hwrite
  cases h with
  | disconnected hconnected => cases hexchange
  | rebooted hconnected hpending fault last =>
    simp only [List.mem_cons, List.not_mem_nil, or_false] at hexchange
    rcases hexchange with rfl | rfl <;> cases hcall
  | programmed hconnected hpending hnet happ =>
    rcases List.mem_append.1 hexchange with hexchange | hexchange
    · have hspares := hnet.spares exchange hexchange
      rw [hcall] at hspares
      cases hspares
    · cases happ with
      | without hnone => cases hexchange
      | programmed hselected himage hattempt last =>
        rcases List.mem_append.1 hexchange with hexchange | hexchange
        · have hmem := hattempt.mem_plan exchange hexchange
          rw [hcall] at hmem
          exact (List.mem_cons.1 hmem).resolve_left nofun
        · rw [List.mem_singleton.1 hexchange] at hcall
          cases hcall

end Served

/-- A word that a device is given: the serial of its probe, or the channel of a
headset. -/
inductive Uicr.Tells (device : Device) : (address value : UInt32) → Prop where
  | serial : Tells device serialAddress device.serial
  | channel {channel : Channel} (hkind : device.kind = .headset)
      (hchannel : Channel.parse? device.channel = some channel) :
      Tells device channelAddress channel.word

theorem Uicr.tells_of_mem_words {address value : UInt32} {probe : Serial}
    (h : .writeRegister address value probe ∈ words device) :
    probe = device.serial ∧ Tells device address value := by
  cases hkind : device.kind with
  | gateway =>
    simp only [words, hkind, List.mem_singleton, Invocation.writeRegister.injEq] at h
    obtain ⟨rfl, rfl, rfl⟩ := h
    exact ⟨rfl, .serial⟩
  | headset =>
    cases hchannel : Channel.parse? device.channel with
    | none => simp [words, hkind, hchannel] at h
    | some channel =>
      simp only [words_of_headset hkind hchannel, List.mem_cons, List.not_mem_nil, or_false,
        Invocation.writeRegister.injEq] at h
      rcases h with ⟨rfl, rfl, rfl⟩ | ⟨rfl, rfl, rfl⟩
      · exact ⟨rfl, .channel hkind hchannel⟩
      · exact ⟨rfl, .serial⟩

/-! ## The words after a run -/

namespace Threads

variable {programmer : Programmer} {past : List Invocation} {devices : List Device}

/-- A run leaves each device with its own identity, from whatever its words were
before. -/
structure Provisioned (initial : Serial → Words) (devices : List Device) (run : FleetRun) :
    Prop where
  /-- A device whose application phase was run and is shown as done has its identity. -/
  done : ∀ (position : Nat) (device after : Device), devices[position]? = some device →
    run.devices[position]? = some after → device.connected = true →
    .phaseStarted device.serial .app ∈ run.trace.events → after.appProgrammed = .done →
    Identified device (Events.words device.serial (initial device.serial) run.trace.events)
  /-- At every point of the run after the erasure the serial word comes last. -/
  committed : ∀ device ∈ devices, ∀ seen, seen <+: run.trace.events →
    (∃ core image, .began (.program core image device.serial .chip) ∈ seen) →
    Committed device (Events.words device.serial (initial device.serial) seen)
  /-- What is written through a probe tells of the device that it belongs to. -/
  addressed : ∀ address value probe,
    .began (.writeRegister address value probe) ∈ run.trace.events →
    ∃ device ∈ devices, device.serial = probe ∧ Uicr.Tells device address value

/-- The application phase is reported for devices that it is due for. -/
theorem due_of_report {setting : Setting} {s : State} (hreach : Reachable setting s)
    (hnodup : (setting.devices.map Device.serial).Nodup) {position : Nat} {device : Device}
    (hdevice : setting.devices[position]? = some device)
    (hreport : .phaseStarted device.serial .app ∈ s.trace.events) :
    device.rebootOnly = .notSelected ∧ device.appImage.isSome = true := by
  obtain ⟨round, place, origin, horigin, hserial, hphase, _⟩ :=
    origin_of_report hreach hreport rfl
  obtain rfl := position_of_serial hnodup horigin hdevice hserial
  rw [hdevice, Option.some.injEq] at horigin
  subst horigin
  obtain ⟨_, hdemands⟩ := Round.phase?_eq_some_iff.1 hphase
  cases round with
  | first => exact hdemands.elim
  | second => exact hdemands

theorem provisioned_of_comesTo (hsafe : programmer.NeverCrashes)
    (hnodup : (devices.map Device.serial).Nodup) (initial : Serial → Words) {mode : Mode}
    {run : FleetRun} (h : ComesTo (.of programmer mode past devices) run) :
    Provisioned initial devices run := by
  have hspecified := specified_of_comesTo hsafe hnodup h
  refine ⟨?_, ?_, ?_⟩
  · intro position device after hdevice hafter hconnected hreport hdone
    obtain ⟨s, hreach, hrun⟩ := h
    obtain ⟨_, rfl⟩ := outcome_of_neverCrashes hsafe hreach hrun
    obtain ⟨hselected, himage⟩ := due_of_report hreach hnodup hdevice hreport
    obtain ⟨left, exchanges, hleft, hshown, hserved⟩ := hspecified.served position device hdevice
    rw [hafter, Option.some.injEq] at hleft
    subst hleft
    rw [← Events.words_about]
    change Identified device
      (Events.words device.serial (initial device.serial) (Trace.dialogue _ device.serial))
    rw [hshown]
    exact hserved.identified hconnected hselected himage hdone _
  · rintro device hmem seen hseen ⟨core, image, herased⟩
    obtain ⟨after, exchanges, hshown, hserved⟩ := hspecified.of_mem hmem
    have hpart : Events.about device.serial seen <+: shown exchanges := by
      rw [← hshown]
      exact hseen.filter _
    rw [← Events.words_about]
    exact hserved.committed hpart (Events.mem_about herased rfl rfl) _
  · intro address value probe hwrite
    have hsaid : .began (.writeRegister address value probe) ∈ run.trace.dialogue probe :=
      Events.mem_about hwrite rfl rfl
    by_cases hnone : ∀ device ∈ devices, device.serial ≠ probe
    · rw [hspecified.silent probe hnone] at hsaid
      cases hsaid
    · obtain ⟨device, hmem, rfl⟩ : ∃ device ∈ devices, device.serial = probe := by
        simpa using hnone
      obtain ⟨after, exchanges, hshown, hserved⟩ := hspecified.of_mem hmem
      rw [hshown] at hsaid
      exact ⟨device, hmem, rfl, (Uicr.tells_of_mem_words (hserved.mem_words hsaid)).2⟩

/-- Whatever the programmer answers and whatever words the devices hold before, a run
gives each device its own identity, and the serial word last. In whatever order the
threads move, they come to an end. -/
theorem fleet_provisioned (hsafe : programmer.NeverCrashes)
    (hnodup : (devices.map Device.serial).Nodup) (past : List Invocation) (mode : Mode)
    (initial : Serial → Words) :
    Provisioned initial devices (Fleet.run programmer mode past devices) ∧
      Ends (.of programmer mode past devices) ∧
      ∀ run, ComesTo (.of programmer mode past devices) run → Provisioned initial devices run :=
  ⟨provisioned_of_comesTo hsafe hnodup initial (comesTo_run programmer mode past devices), ends _,
    fun _ => provisioned_of_comesTo hsafe hnodup initial⟩

/-! ## Two headsets -/

/-- A programmer that fails to write the serial of the second probe. -/
def forgetful : Programmer where
  respond _ call :=
    if call = .writeRegister Uicr.serialAddress 2 2 then
      { outcome := .failed (.toolFailed call.operation.verb call.serial none) }
    else {}

theorem forgetful_neverCrashes : forgetful.NeverCrashes := by
  intro past call text
  simp only [forgetful]
  split <;> simp

/-- Two headsets to be programmed. -/
def twoHeadsets : List Device :=
  [{ serial := 1, kind := .headset, channel := "left", appFile := some "a", netFile := some "n" },
    { serial := 2, kind := .headset, channel := "right", appFile := some "a" }]

/-- Words that were written before. -/
def formerWords : Words := fun _ => some 7

/-- The first headset is done and has its identity, the second failed and has no serial
word. -/
theorem fleet_provisioned_twoHeadsets :
    let run := Fleet.run forgetful (.parallel Parallel.ascending) [] twoHeadsets
    run.devices.map Device.appProgrammed = [.done, .failed] ∧
      Events.words 2 formerWords run.trace.events Uicr.serialAddress = none ∧
      Events.words 1 formerWords run.trace.events Uicr.serialAddress = some 1 ∧
      Provisioned (fun _ => formerWords) twoHeadsets run :=
  ⟨by decide +kernel, by decide +kernel, by decide +kernel,
    (fleet_provisioned forgetful_neverCrashes (by decide) [] (.parallel Parallel.ascending)
      fun _ => formerWords).1⟩

end Threads

end FlashFleet
