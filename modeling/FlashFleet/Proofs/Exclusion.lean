import FlashFleet.DeviceFile.Fleet
import FlashFleet.Proofs.Barrier
import FlashFleet.Selection
/-!
# One invocation for each probe at a time

A programmer may count on it that it is not asked for two things of one probe at
once. That rests on three places: a device file lists no probe twice, however
its serial is written; a selection changes what is done to devices but not which
devices there are; and a round has one worker for each device, while the rounds
do not overlap.

## Main results

* `nodup_of_parse`, `Prepared.serials` — the probes of a fleet are distinct.
* `exclusive_of_reachable` — then no probe is asked for two things at once.
* `probes_exclusive` — both together.
-/

namespace FlashFleet

/-! ## Where fleets come from -/

/-- A device file lists no probe twice. -/
theorem DeviceFile.nodup_of_parse {text : String} {devices : List Device}
    (h : DeviceFile.parse text = .ok devices) : (devices.map Device.serial).Nodup := by
  unfold DeviceFile.parse at h
  split at h
  · cases h
  · split at h
    · cases h
    · split at h
      · cases h
      · next hrepeated =>
        cases h
        exact (firstRepeated_eq_none_iff.1 hrepeated).1

/-- The devices are those that were listed, prepared for what a command does. -/
inductive Selection.Prepared (listed : List Device) : List Device → Prop where
  | program (selection : Selection) (images : Images) :
      Prepared listed (selection.forProgram images listed).2
  | reboot (selection : Selection) : Prepared listed (selection.forReboot listed)

/-- Whatever is selected, the probes stay the same. -/
theorem Selection.Prepared.serials {listed devices : List Device} (h : Prepared listed devices) :
    devices.map Device.serial = listed.map Device.serial := by
  cases h with
  | program selection images =>
    simp only [forProgram, List.map_map]
    apply List.map_congr_left
    intro device _
    simp only [Function.comp, prepareProgram]
    split <;> rfl
  | reboot selection =>
    simp only [forReboot, List.map_map]
    apply List.map_congr_left
    intro device _
    simp only [Function.comp, prepareReboot]
    split <;> rfl

namespace Threads

variable {setting : Setting} {s : State}

/-! ## One worker for each probe -/

/-- No probe is asked for two things at once. -/
structure Exclusive (setting : Setting) (s : State) : Prop where
  /-- Live workers of one probe are one worker. -/
  alone : ∀ (round now : Round) (position place : Nat) (station other : Station),
    (s.stations round)[position]? = some station → (s.stations now)[place]? = some other →
    station.stage.isLive = true → other.stage.isLive = true →
    station.device.serial = other.device.serial → round = now ∧ position = place
  /-- Invocations under way for one probe are one invocation. -/
  inFlight : ∀ (round now : Round) (position place : Nat) (station other : Station)
    (call call' : Invocation),
    (s.stations round)[position]? = some station → (s.stations now)[place]? = some other →
    station.stage.inFlight? = some call → other.stage.inFlight? = some call' →
    call.serial = call'.serial → round = now ∧ position = place ∧ call = call'
  /-- What is said to a probe is said by a worker of the first round, and then by one
  of the second. -/
  turns : ∀ (position : Nat) (origin : Device), setting.devices[position]? = some origin →
    s.trace.dialogue origin.serial =
      Events.calls (s.eventsOf (.worker .first position)) ++
        Events.calls (s.eventsOf (.worker .second position))
  /-- Every invocation for a probe comes to its end before the next begins. -/
  turnwise : ∀ serial, Turnwise (s.trace.dialogue serial)

/-- A worker brings each invocation to its end before it begins the next. -/
private theorem turnwise_of_worker (hreach : Reachable setting s) (round : Round)
    (position : Nat) : Turnwise (Events.calls (s.eventsOf (.worker round position))) := by
  by_cases hlt : position < (s.stations round).length
  · obtain ⟨_, _, _, _, hcourse⟩ := course_of_reachable hreach (List.getElem?_eq_getElem hlt)
    obtain ⟨exchanges, opened, hcalls, _⟩ := hcourse.exchanges
    exact ⟨exchanges, opened, hcalls⟩
  · rw [(orderly_of_reachable hreach).eventsOf_eq_nil (Nat.le_of_not_lt hlt)]
    exact turnwise_nil

/-- Where no probe is listed twice, none is asked for two things at once. -/
theorem exclusive_of_reachable (hnodup : (setting.devices.map Device.serial).Nodup)
    (hreach : Reachable setting s) : Exclusive setting s := by
  have horderly := orderly_of_reachable hreach
  refine { alone := ?_, inFlight := ?_, turns := ?_, turnwise := ?_ }
  · intro round now position place station other hget hget' hlive hlive' hserial
    exact alone_of_live hnodup hreach hget hget' hlive hlive' hserial
  · intro round now position place station other call call' hget hget' hflight hflight' hserial
    obtain ⟨_, _, _, _, hcourse⟩ := course_of_reachable hreach hget
    obtain ⟨_, _, _, _, hcourse'⟩ := course_of_reachable hreach hget'
    obtain ⟨hlive, hown⟩ := hcourse.serial_inFlight hflight
    obtain ⟨hlive', hown'⟩ := hcourse'.serial_inFlight hflight'
    obtain ⟨rfl, rfl⟩ := alone_of_live hnodup hreach hget hget' hlive hlive'
      (by rw [← hown, ← hown', hserial])
    rw [hget, Option.some.injEq] at hget'
    rw [← hget', hflight, Option.some.injEq] at hflight'
    exact ⟨rfl, rfl, hflight'⟩
  · intro position origin horigin
    exact dialogue_eq hnodup hreach horigin
  · intro serial
    by_cases hknown : ∃ origin ∈ setting.devices, origin.serial = serial
    · obtain ⟨origin, hmem, rfl⟩ := hknown
      obtain ⟨position, horigin⟩ := List.getElem?_of_mem hmem
      rw [dialogue_eq hnodup hreach horigin]
      cases hnow : s.post.round with
      | first =>
        have hsilent : s.eventsOf (.worker .second position) = [] := by
          apply horderly.eventsOf_eq_nil
          rw [horderly.second_eq_nil hnow]
          exact Nat.zero_le position
        rw [hsilent, Events.calls_nil, List.append_nil]
        exact turnwise_of_worker hreach .first position
      | second =>
        obtain ⟨earlier, hearlier⟩ := (firstRoundDone_of_second hreach hnow).ended position
        rw [hearlier]
        exact (turnwise_of_worker hreach .second position).behind earlier
    · rw [dialogue_eq_nil hreach fun origin hmem hserial => hknown ⟨origin, hmem, hserial⟩]
      exact turnwise_nil

/-- Whatever a device file lists, whatever a command prepares of it, and whatever
the order in which the threads of the run move, no probe is asked for two things
at once; and the run is what one of these orders comes to. -/
theorem probes_exclusive {text : String} {listed devices : List Device}
    (hparse : DeviceFile.parse text = .ok listed)
    (hprepared : Selection.Prepared listed devices) (programmer : Programmer) (mode : Mode)
    (past : List Invocation) :
    (∀ s, Reachable (.of programmer mode past devices) s →
        Exclusive (.of programmer mode past devices) s) ∧
      ComesTo (.of programmer mode past devices) (Fleet.run programmer mode past devices) := by
  have hnodup : (devices.map Device.serial).Nodup := by
    rw [hprepared.serials]
    exact DeviceFile.nodup_of_parse hparse
  exact ⟨fun _ => exclusive_of_reachable hnodup, comesTo_run programmer mode past devices⟩

/-! ## A file of two kits -/

/-- The kits as a device file lists them. -/
def twoKitsText : String :=
  "[[device]]\nsnr = \"0x1\"\nkind = \"headset\"\nchannel = \"left\"\n" ++
    "app_hex = \"a\"\nnet_hex = \"n\"\n" ++
    "[[device]]\nsnr = 2\nkind = \"gateway\"\nnet_hex = \"n\"\n"

theorem parse_twoKitsText : DeviceFile.parse twoKitsText = .ok twoKits := by
  have hread : (DeviceFile.parse twoKitsText).toOption = some twoKits := by decide +kernel
  cases hparse : DeviceFile.parse twoKitsText with
  | error error =>
    rw [hparse] at hread
    cases hread
  | ok devices =>
    rw [hparse] at hread
    exact congrArg Except.ok (Option.some.inj hread)

/-- All kits prepared for programming. -/
def preparedKits : List Device := (({} : Selection).forProgram {} twoKits).2

/-- Both workers of the first round up to an invocation under way. -/
def bothCalling : List Thread :=
  List.replicate 3 .orchestrator ++
    (List.replicate 3 [.worker .first 0, .worker .first 1]).flatten

theorem probes_exclusive_twoKits :
    ∃ s, Reachable (.of calm (.parallel Parallel.ascending) [] preparedKits) s ∧
      ((s.stations .first).map (·.stage.inFlight?) =
        [some (.program .network "n" 1 .sectors), some (.program .network "n" 2 .sectors)]) ∧
      Exclusive (.of calm (.parallel Parallel.ascending) [] preparedKits) s := by
  have hplayed : (play? (.of calm (.parallel Parallel.ascending) [] preparedKits) .start
      bothCalling).map (fun s => (s.stations .first).map (·.stage.inFlight?)) =
        some [some (.program .network "n" 1 .sectors),
          some (.program .network "n" 2 .sectors)] := by
    decide +kernel
  obtain ⟨s, hs, hflight⟩ := Option.map_eq_some_iff.1 hplayed
  have hreach : Reachable (.of calm (.parallel Parallel.ascending) [] preparedKits) s :=
    leads_of_play? hs
  exact ⟨s, hreach, hflight,
    (probes_exclusive parse_twoKitsText (.program {} {}) calm (.parallel Parallel.ascending)
      []).1 s hreach⟩

end Threads

end FlashFleet
