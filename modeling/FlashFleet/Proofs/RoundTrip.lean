import FlashFleet.Proofs.Commands
import FlashFleet.Proofs.Loading
import FlashFleet.Proofs.Writing
/-!
# Device files that are written

A list of devices is written as an array of tables, one for each device in order. A table has
the serial as a whole number or as a text that holds it in decimal or hexadecimal, the kind,
the channel and the images as texts, and the connection as a truth value, in any order; an
empty channel and a connection may be left out, and an image that is absent is. However such a
file was written, reading it gives back the devices.

## Main results

* `says_fields` — every device can be said by a table.
* `Says.tabled` — a table that says a device is an entry with that device.
* `written_render` — every list of devices can be written.
* `round_trip` — what was written is read back.
-/

namespace FlashFleet.DeviceFile

open Toml (Node)

/-! ## Tables that say a device -/

/-- A serial is a whole number, or a text that holds it in decimal or hexadecimal. -/
inductive SaysSerial (serial : Serial) : Node → Prop where
  | integer : SaysSerial serial (.integer serial.toNat)
  | text {content : String} (h : Serial.Written content.toList serial) :
      SaysSerial serial (.text content)

/-- A field that may be left out where it has its default. -/
inductive SaysField {α : Type} (make : α → Node) (default value : α) : Option Node → Prop where
  | stated : SaysField make default value (some (make value))
  | omitted (h : value = default) : SaysField make default value none

/-- A key with what it stands for, if that is said. -/
def row (key : String) (said : Option Node) : Toml.Entries := said.toList.map (key, ·)

/-- The fields of a device in the order of their places. -/
def rows (device : Device) (serial : Node) (channel connected : Option Node) : Toml.Entries :=
  row "snr" (some serial) ++ row "kind" (some (.text device.kind.name)) ++
    row "channel" channel ++ row "connected" connected ++
    row "app_hex" (device.appFile.map .text) ++ row "net_hex" (device.netFile.map .text)

/-- The table says the device, its fields in any order. -/
inductive Says (device : Device) : Toml.Entries → Prop where
  | mk {serial : Node} {channel connected : Option Node} {entries : Toml.Entries}
      (hserial : SaysSerial device.serial serial)
      (hchannel : SaysField .text "" device.channel channel)
      (hconnected : SaysField .boolean true device.connected connected)
      (horder : entries.Perm (rows device serial channel connected)) : Says device entries

/-- The text is a way to write a device file that lists the devices. -/
def Written (devices : List Device) (text : String) : Prop :=
  ∃ tables, List.Forall₂ Says devices tables ∧ Toml.WrittenArray "device" tables text.toList

theorem keys_row (key : String) (said : Option Node) :
    (Toml.keys (row key said)).Sublist [key] := by
  cases said with
  | none => exact List.nil_sublist _
  | some node => exact List.Sublist.refl _

theorem lookup_row (key other : String) (said : Option Node) :
    Toml.lookup key (row other said) = if other = key then said else none := by
  cases said with
  | none => exact (ite_self none).symm
  | some node => rfl

/-- No field is said twice, and none is said that a device does not have. -/
theorem keys_rows (device : Device) (serial : Node) (channel connected : Option Node) :
    (Toml.keys (rows device serial channel connected)).Sublist fieldNames := by
  simp only [rows, Toml.keys, List.map_append]
  exact ((((keys_row _ _).append (keys_row _ _)).append (keys_row _ _)).append
    (keys_row _ _)).append (keys_row _ _) |>.append (keys_row _ _)

theorem SaysSerial.spells {serial : Serial} {node : Node} (h : SaysSerial serial node) :
    SpellsSerial node serial := by
  cases h with
  | integer => exact .integer serial
  | text h => exact .text ⟨[], _, [], by simp, nofun, nofun, h.spelled⟩

/-- What is said of a field, as a value that may be left out. -/
theorem SaysField.exists {α : Type} {make : α → Node} {default value : α} {said : Option Node}
    (h : SaysField make default value said) :
    ∃ field : Option α, said = field.map make ∧ field.getD default = value := by
  cases h with
  | stated => exact ⟨some value, rfl, rfl⟩
  | omitted h => exact ⟨none, rfl, h.symm⟩

theorem Says.nodup {device : Device} {entries : Toml.Entries} (h : Says device entries) :
    (Toml.keys entries).Nodup := by
  obtain ⟨_, _, _, horder⟩ := h
  have hkeys := horder.map Prod.fst
  exact hkeys.nodup_iff.2 ((by decide : fieldNames.Nodup).sublist (keys_rows ..))

/-- A table that says a device is an entry with that device. -/
theorem Says.tabled {device : Device} (hunflagged : device.Unflagged) {entries : Toml.Entries}
    (h : Says device entries) : ∃ entry, Tabled entries entry ∧ entry.device = device := by
  obtain @⟨serial, channel, connected, _, hserial, hchannel, hconnected, horder⟩ := h
  obtain ⟨channelField, rfl, hchannelValue⟩ := hchannel.exists
  obtain ⟨connectedField, rfl, hconnectedValue⟩ := hconnected.exists
  have hnodup : (Toml.keys (rows device serial (channelField.map .text)
      (connectedField.map .boolean))).Nodup :=
    (by decide : fieldNames.Nodup).sublist (keys_rows ..)
  have hlookup := Toml.lookup_of_perm horder hnodup
  have hkeys := horder.map Prod.fst
  simp only [rows, Toml.lookup_append, lookup_row] at hlookup
  refine ⟨⟨device.serial, device.kind, channelField, connectedField, device.appFile,
    device.netFile⟩, ?_, ?_⟩
  · constructor
    · intro key hkey
      exact (keys_rows ..).subset (hkeys.mem_iff.1 hkey)
    · exact ⟨serial, by simp [hlookup], hserial.spells⟩
    · exact ⟨_, by simp [hlookup], .text device.kind⟩
    · simp [hlookup]
    · simp [hlookup]
    · simp [hlookup]
    · simp [hlookup]
  · exact (carries_iff.1 ⟨rfl, rfl, hchannelValue.symm, hconnectedValue.symm, rfl, rfl,
      hunflagged.rebootOnly, hunflagged.appProgrammed, hunflagged.netProgrammed⟩).symm

/-! ## A writer -/

/-- A device as a table with all its fields in the order of their places. -/
def fields (device : Device) : Toml.Entries :=
  rows device (.integer device.serial.toNat) (some (.text device.channel))
    (some (.boolean device.connected))

/-- A device file with the devices. -/
def render (devices : List Device) : String :=
  String.ofList (Toml.writeTables "device" (devices.map fields))

theorem says_fields (device : Device) : Says device (fields device) :=
  .mk .integer .stated .stated (List.Perm.refl _)

/-- The values of a device can be written, under keys without marks. -/
theorem plain_fields (device : Device) :
    ∀ entry ∈ fields device, Toml.Bare entry.1 ∧ entry.2.Plain := by
  have hrow : ∀ {key : String} {said : Option Node}, Toml.Bare key →
      (∀ node, said = some node → node.Plain) →
        ∀ entry ∈ row key said, Toml.Bare entry.1 ∧ entry.2.Plain := by
    intro key said hkey hsaid entry hentry
    obtain ⟨node, hnode, rfl⟩ := List.mem_map.1 hentry
    exact ⟨hkey, hsaid node (Option.mem_toList.1 hnode)⟩
  have himage : ∀ (path : Option ImagePath) (node : Node), path.map Node.text = some node →
      node.Plain := by
    intro path node hnode
    obtain ⟨content, _, rfl⟩ := Option.map_eq_some_iff.1 hnode
    exact .text content
  have hserial : device.serial.toNat ≤ 9223372036854775807 := by
    have := device.serial.toNat_lt
    omega
  simp only [fields, rows, List.forall_mem_append]
  refine ⟨⟨⟨⟨⟨?_, ?_⟩, ?_⟩, ?_⟩, ?_⟩, ?_⟩
  · exact hrow (by decide) fun node hnode => Option.some.inj hnode ▸ .integer hserial
  · exact hrow (by decide) fun node hnode => Option.some.inj hnode ▸ .text _
  · exact hrow (by decide) fun node hnode => Option.some.inj hnode ▸ .text _
  · exact hrow (by decide) fun node hnode => Option.some.inj hnode ▸ .boolean _
  · exact hrow (by decide) (himage device.appFile)
  · exact hrow (by decide) (himage device.netFile)

/-- Every list of devices can be written. -/
theorem written_render (devices : List Device) : Written devices (render devices) := by
  refine ⟨devices.map fields, ?_, ?_⟩
  · rw [List.forall₂_map_right_iff]
    exact List.forall₂_same.2 fun device _ => says_fields device
  · rw [render, String.toList_ofList]
    refine Toml.writtenArray_writeTables ?_
    intro table htable
    obtain ⟨device, _, rfl⟩ := List.mem_map.1 htable
    exact plain_fields device

/-! ## Reading back -/

/-- Tables that say devices are the entries of these devices. -/
theorem exists_listed {devices : List Device} {tables : List Toml.Entries}
    (hunflagged : ∀ device ∈ devices, device.Unflagged)
    (h : List.Forall₂ Says devices tables) :
    ∃ listed, List.Forall₂ Tabled tables listed ∧ listed.map Entry.device = devices := by
  induction h with
  | nil => exact ⟨[], .nil, rfl⟩
  | cons hsaid _ ih =>
    obtain ⟨hfirst, hrest⟩ := List.forall_mem_cons.1 hunflagged
    obtain ⟨entry, htabled, rfl⟩ := hsaid.tabled hfirst
    obtain ⟨listed, hlisted, rfl⟩ := ih hrest
    exact ⟨entry :: listed, .cons htabled hlisted, rfl⟩

theorem nodup_of_tables {devices : List Device} {tables : List Toml.Entries}
    (h : List.Forall₂ Says devices tables) : ∀ table ∈ tables, (Toml.keys table).Nodup := by
  induction h with
  | nil => exact List.forall_mem_nil _
  | cons hsaid _ ih => exact List.forall_mem_cons.2 ⟨hsaid.nodup, ih⟩

theorem fits_arrayDocument {tables : List Toml.Entries} {listed : List Entry}
    (h : List.Forall₂ Tabled tables listed) : Fits (Toml.arrayDocument "device" tables) listed := by
  cases h with
  | nil => exact .nothing
  | cons hfirst hrest => exact .device (.tables (.cons hfirst hrest))

/-- Devices of distinct probes that have not been selected for anything can be written, and
whatever way they were written, they are what is read. -/
theorem round_trip {devices : List Device} (hnodup : (devices.map Device.serial).Nodup)
    (hunflagged : ∀ device ∈ devices, device.Unflagged) :
    Written devices (render devices) ∧
      ∀ text, Written devices text → parse text = .ok devices := by
  refine ⟨written_render devices, ?_⟩
  rintro text ⟨tables, hsaid, hwritten⟩
  obtain ⟨listed, hlisted, rfl⟩ := exists_listed hunflagged hsaid
  have hdocument : Toml.parse? text = some (Toml.arrayDocument "device" tables) :=
    Toml.parse?_of_written (by decide) hwritten (nodup_of_tables hsaid)
  have hserials : (listed.map Entry.device).map Device.serial = listed.map Entry.serial := by
    rw [List.map_map]
    rfl
  rw [hserials] at hnodup
  exact parse_of_nodup hdocument (fits_arrayDocument hlisted) hnodup

/-! ## A file with awkward texts -/

/-- A kit with a quote, a backslash, a line feed, a control and characters beyond ASCII in its
channel, and with an empty path. -/
def awkwardKit : Device :=
  { serial := 255, kind := .headset, channel := "\"\\\n\x01é😀", connected := false,
    appFile := some "" }

/-- A kit with nothing but a serial and a kind. -/
def barestKit : Device := { serial := 16, kind := .gateway }

/-- They are written with comments, escapes, an underscore and a serial in hexadecimal, and
their fields from the last to the first. -/
def awkwardText : String :=
  "# kits\r\n[[ device ]]\napp_hex = \"\"\n\tconnected=false\n" ++
    "channel = \"\\\"\\\\\\n\\u0001é\\U0001F600\"\nkind = \"\\u0068eadset\"\nsnr = \"0xfF\" #\n" ++
    "[[device]]\nkind = \"gateway\"\nsnr = +1_6\n"

/-- What the file says, field by field. -/
def awkwardTables : List Toml.Entries :=
  [(rows awkwardKit (.text "0xfF") (some (.text awkwardKit.channel))
      (some (.boolean false))).reverse,
    (rows barestKit (.integer 16) none none).reverse]

theorem says_awkwardTables : List.Forall₂ Says [awkwardKit, barestKit] awkwardTables := by
  have hdigits : Number.Writes 16 "fF".toList awkwardKit.serial.toNat := ⟨nofun, rfl⟩
  have hserial : Serial.Written "0xfF".toList awkwardKit.serial := .hexadecimal (.inl rfl) hdigits
  exact .cons (.mk (.text hserial) .stated .stated (List.reverse_perm _))
    (.cons (.mk .integer (.omitted rfl) (.omitted rfl) (List.reverse_perm _)) .nil)

theorem written_awkwardText : Written [awkwardKit, barestKit] awkwardText := by
  have hnone := Toml.blanks_nil
  have hblank : Toml.Blanks [' '] := by decide
  have hfeed := Toml.ending_lineFeed
  have hremark : Toml.Ending "# kits\r\n".toList :=
    .mk hnone (.remark (by decide : ∀ c ∈ " kits".toList, _)) .carriageReturn
  have hmark : Toml.Ending " #\n".toList := .mk hblank (.remark (List.forall_mem_nil _)) .lineFeed
  have hplain : ∀ content : List Char, (∀ c ∈ content, Toml.NeedsNoEscape c) →
      List.Forall₂ Toml.Letter content (content.map ([·])) := by
    intro content h
    rw [List.forall₂_map_right_iff]
    exact List.forall₂_same.2 fun c hc => .plain (h c hc)
  have hempty : List.Forall₂ Toml.Letter "".toList [] := .nil
  have hchannel : List.Forall₂ Toml.Letter awkwardKit.channel.toList
      ["\\\"".toList, "\\\\".toList, "\\n".toList, "\\u0001".toList, "é".toList,
        "\\U0001F600".toList] :=
    .cons .quote <| .cons .backslash <| .cons .lineFeed <| .cons (.four rfl ⟨nofun, rfl⟩) <|
      .cons (.plain (by decide)) <| .cons (.eight rfl ⟨nofun, rfl⟩) .nil
  have hheadset : List.Forall₂ Toml.Letter Kind.headset.name.toList
      ("\\u0068".toList :: "eadset".toList.map ([·])) :=
    .cons (.four rfl ⟨nofun, rfl⟩) (hplain "eadset".toList (by decide))
  have hgateway := hplain Kind.gateway.name.toList (by decide)
  have hserial := hplain "0xfF".toList (by decide)
  have hnumber : Toml.Whole 16 "+1_6".toList :=
    .decimal (.inr rfl) (⟨nofun, rfl⟩ : Number.Writes 10 ['1', '6'] 16) nofun
      (.underscore '6' .nil)
  have hfirst := Toml.Entries.Written.entry hnone (by decide : Toml.Bare "app_hex") hblank hblank
    (.text hempty) hfeed <|
      .entry (by decide : Toml.Blanks ['\t']) (by decide : Toml.Bare "connected") hnone hnone .no
        hfeed <|
      .entry hnone (by decide : Toml.Bare "channel") hblank hblank (.text hchannel) hfeed <|
      .entry hnone (by decide : Toml.Bare "kind") hblank hblank (.text hheadset) hfeed <|
      .entry hnone (by decide : Toml.Bare "snr") hblank hblank (.text hserial) hmark .nil
  have hsecond := Toml.Entries.Written.entry hnone (by decide : Toml.Bare "kind") hblank hblank
    (.text hgateway) hfeed <|
      .entry hnone (by decide : Toml.Bare "snr") hblank hblank (.integer (by decide) hnumber)
        hfeed .nil
  have hwritten : Toml.WrittenArray "device" awkwardTables _ :=
    .mk (.empty hremark .nil) (.cons hnone hblank hblank hfeed hfirst
      (.cons hnone hnone hnone hfeed hsecond .nil))
  have hcast : ∀ {chars : List Char}, Toml.WrittenArray "device" awkwardTables chars →
      chars = awkwardText.toList → Written [awkwardKit, barestKit] awkwardText :=
    fun h hchars => ⟨_, says_awkwardTables, hchars ▸ h⟩
  exact hcast hwritten (by decide +kernel)

theorem round_trip_awkward :
    ([awkwardKit, barestKit].map Device.serial).Nodup ∧
      (∀ device ∈ [awkwardKit, barestKit], device.Unflagged) ∧
      Written [awkwardKit, barestKit] awkwardText ∧
      parse awkwardText = .ok [awkwardKit, barestKit] ∧
      parse (render [awkwardKit, barestKit]) = .ok [awkwardKit, barestKit] := by
  have hnodup : ([awkwardKit, barestKit].map Device.serial).Nodup := by decide
  have hunflagged : ∀ device ∈ [awkwardKit, barestKit], device.Unflagged := by
    simp only [List.forall_mem_cons]
    exact ⟨⟨rfl, rfl, rfl⟩, ⟨rfl, rfl, rfl⟩, List.forall_mem_nil _⟩
  obtain ⟨hrender, hread⟩ := round_trip hnodup hunflagged
  exact ⟨hnodup, hunflagged, written_awkwardText, hread _ written_awkwardText, hread _ hrender⟩

end FlashFleet.DeviceFile
