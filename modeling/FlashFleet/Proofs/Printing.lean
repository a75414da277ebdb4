import FlashFleet.Proofs.Commands
import FlashFleet.Proofs.Legibility
/-!
# What a command prints

A command that runs over devices prints a summary of them, once, and nothing else: an empty
line, headings and a rule, and then a row for each device in order, which begins with its serial,
kind and channel and ends with its three flags. A long channel moves the flags to the right, and a
broken one breaks its row, so that rows are found as they were printed and not as lines.

## Main results

* `summarises_summary` — what a summary shows, whatever the devices.
* `Command.concludes_runFleet` — what a command comes to that runs over devices.
-/

namespace FlashFleet

/-! ## Rows -/

/-- The flag that stands in a summary in these words. -/
def Flag.ofText? (text : String) : Option Flag :=
  [("Not selected", notSelected), ("Selected TBD", pending), ("Selected done", done),
    ("Selected ERR", failed)].lookup text

/-- Each flag is told by its words. -/
theorem Flag.ofText?_text (flag : Flag) : ofText? flag.text = some flag := by
  cases flag <;> decide

namespace Table

/-- The row shows the device: at its beginning the serial, with a star if the device is not
connected, the kind and the channel, and at its end the flags. -/
structure Shows (device : Device) (row : String) : Prop where
  serial : Text.unpad (row.toList.take 12) =
    toString device.serial.toNat ++ if device.connected then "" else "*"
  kind : Text.unpad ((row.toList.drop 13).take 10) = device.kind.name
  channel : device.channel.toList <+: row.toList.drop 24
  flags : (flagCells row).map Flag.ofText? =
    [some device.rebootOnly, some device.appProgrammed, some device.netProgrammed]

/-- The row of a device shows it. -/
theorem shows_row (device : Device) : Shows device (summaryLayout.row (summaryCells device)) := by
  obtain ⟨hserial, hserialLast⟩ := fitsIn_marked device
  obtain ⟨hkind, hkindLast⟩ := fitsIn_kind device.kind
  refine { serial := ?_, kind := ?_, channel := ?_, flags := ?_ }
  · rw [toList_row_summaryCells, hserial.unpad_take, Text.unpad_of_last hserialLast, marked]
  · rw [toList_row_summaryCells, hserial.drop_padRight, hkind.unpad_take,
      Text.unpad_of_last hkindLast]
  · have hbehind : ∀ line : List Char, line.drop 24 = (line.drop 13).drop 11 := by
      intro line
      rw [List.drop_drop]
    rw [toList_row_summaryCells, hbehind, hserial.drop_padRight, hkind.drop_padRight,
      Text.toList_padRight, List.append_assoc]
    exact List.prefix_append ..
  · simp only [flagCells_row, List.map_cons, List.map_nil, Flag.ofText?_text]

/-! ## Summaries -/

/-- The text is a summary of the devices: an empty line, headings and a rule, a row for each
device in order, and a word on the star if one is not connected. -/
structure Summarises (devices : List Device) (text : String) (rows : List String) : Prop where
  lines : text = String.join
    ((["",
        "snr          device     channel    only reboot    core app       core net      ",
        "-------------------------------------------------------------------------------"] ++
      rows ++
      if devices.any fun device => !device.connected then ["", "* not connected, skipped"]
      else []).map (· ++ "\n"))
  rows : List.Forall₂ Shows devices rows

/-- What a summary shows, whatever the devices. -/
theorem summarises_summary (devices : List Device) :
    Summarises devices ("\n" ++ summary devices)
      (devices.map fun device => summaryLayout.row (summaryCells device)) where
  lines := by
    have hheading : summaryLayout.heading =
        ["snr          device     channel    only reboot    core app       core net      ",
          "-------------------------------------------------------------------------------"] := by
      decide +kernel
    rw [summary, print, summaryLines, hheading]
    simp only [List.cons_append, List.nil_append, List.map_cons, String.join_cons]
    rfl
  rows := by
    rw [List.forall₂_map_right_iff, List.forall₂_same]
    exact fun device _ => shows_row device

end Table

/-! ## Commands -/

namespace Command

/-- The report is that of a command with this run. -/
structure Concludes (report : Report) (run : FleetRun) : Prop where
  /-- The run did not crash. -/
  crash : run.crash = none
  /-- Before the run nothing happened but log records, and behind it nothing. -/
  trace : ∃ logs, report.trace = logTrace logs ++ run.trace
  /-- What is printed is the summary, whether or not devices failed. -/
  output : report.output = "\n" ++ Table.summary run.devices
  /-- It shows each device as the run left it. -/
  printed : ∃ rows, Table.Summarises run.devices report.output rows
  error : report.error = verdict run.devices

/-- Log records before it change nothing. -/
theorem Concludes.after {report : Report} {run : FleetRun} (h : Concludes report run)
    (logs : List LogRecord) : Concludes (report.after logs) run := by
  obtain ⟨records, htrace⟩ := h.trace
  refine { h with trace := ⟨logs ++ records, ?_⟩ }
  simp only [Report.after, htrace, logTrace, Events.authoredBy, List.map_append,
    List.append_assoc]

/-- What a command comes to that runs over devices. -/
theorem concludes_runFleet {programmer : Programmer} (hsafe : programmer.NeverCrashes)
    {devices : List Device} (hnodup : (devices.map Device.serial).Nodup) {selected : Nat}
    (hselected : selected ≠ 0) (mode : Mode) :
    Concludes (runFleet programmer mode selected devices)
      (Fleet.run programmer mode [] devices) := by
  rw [runFleet_of_selected hsafe hnodup hselected]
  exact
    { crash := (Threads.specified_of_comesTo hsafe hnodup (Threads.comesTo_run ..)).crash
      trace := ⟨_, rfl⟩
      output := rfl
      printed := ⟨_, Table.summarises_summary _⟩
      error := rfl }

end Command

end FlashFleet
