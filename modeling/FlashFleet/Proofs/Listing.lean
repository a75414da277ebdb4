import FlashFleet.DeviceFile.Fleet
import FlashFleet.Proofs.Distinct
import FlashFleet.Proofs.Spelling
import Mathlib.Data.List.Forall2
/-!
# What a document lists

A document fits a device file when it says nothing or has one section that lists entries.
An entry is a table whose keys are among the six fields, or an array of all six. Its serial
is a number or a text that spells one, its kind a name, and of the other four each may be
left out of a table. Which entries a document lists is said here without a reader, and the
reader is shown to accept just these documents: since no key stands twice, what it makes of
a table is what each field stands for, in whatever order they come.

## Main results

* `Fields.Field.settled` — what reading a table leaves in a field.
* `ofNode_eq_ok_iff` — a node is read as the device of the entry that it describes.
* `entries_eq_ok_iff` — a document is read as the devices of the entries that it lists.
-/

namespace FlashFleet

/-- A computation that goes on with what another gives has gone through both. -/
theorem bind_eq_ok {ε α β : Type} {first : Except ε α} {rest : α → Except ε β} {result : β}
    (h : first >>= rest = .ok result) : ∃ value, first = .ok value ∧ rest value = .ok result := by
  cases first with
  | error error => cases h
  | ok value => exact ⟨value, rfl, h⟩

theorem map_eq_ok {ε α β : Type} {f : α → β} {computed : Except ε α} {result : β}
    (h : computed.map f = .ok result) : ∃ value, computed = .ok value ∧ f value = result := by
  cases computed with
  | error error => cases h
  | ok value => exact ⟨value, rfl, Except.ok.inj h⟩

namespace DeviceFile

open Toml (Node)

/-! ## Entries -/

/-- What a device file says of one device. What it leaves out is `none`. -/
structure Entry where
  serial : Serial
  kind : Kind
  channel : Option String
  connected : Option Bool
  appFile : Option ImagePath
  netFile : Option ImagePath
  deriving DecidableEq, Repr

/-- The device is as the file says, has no channel and is connected where the file says
nothing of it, and has not been selected for anything. -/
structure Carries (entry : Entry) (device : Device) : Prop where
  serial : device.serial = entry.serial
  kind : device.kind = entry.kind
  channel : device.channel = entry.channel.getD ""
  connected : device.connected = entry.connected.getD true
  appFile : device.appFile = entry.appFile
  netFile : device.netFile = entry.netFile
  rebootOnly : device.rebootOnly = .notSelected
  appProgrammed : device.appProgrammed = .notSelected
  netProgrammed : device.netProgrammed = .notSelected

/-- The device of an entry. -/
def Entry.device (entry : Entry) : Device :=
  let fields : Fields :=
    { channel := entry.channel, connected := entry.connected, appFile := entry.appFile,
      netFile := entry.netFile }
  fields.device entry.serial entry.kind

theorem carries_iff {entry : Entry} {device : Device} :
    Carries entry device ↔ device = entry.device := by
  constructor
  · intro h
    obtain ⟨serial, kind, channel, connected, _, appFile, netFile, _, _⟩ := device
    obtain ⟨rfl, rfl, rfl, rfl, rfl, rfl, rfl, rfl, rfl⟩ := h
    rfl
  · rintro rfl
    exact ⟨rfl, rfl, rfl, rfl, rfl, rfl, rfl, rfl, rfl⟩

/-! ## Values -/

/-- The value spells the serial: a whole number, or a text. -/
inductive SpellsSerial : Node → Serial → Prop where
  | integer (serial : Serial) : SpellsSerial (.integer serial.toNat) serial
  | text {content : String} {serial : Serial} (h : Serial.Spells content serial) :
      SpellsSerial (.text content) serial

/-- There is nothing in the value. -/
inductive Vacant : Node → Prop where
  | table (origin : Toml.Origin) : Vacant (.table origin [])
  | array : Vacant (.array [])
  | tables : Vacant (.tables [])

/-- The value names the kind: its name, or a table with nothing but that name. -/
inductive NamesKind : Node → Kind → Prop where
  | text (kind : Kind) : NamesKind (.text kind.name) kind
  | table (origin : Toml.Origin) (kind : Kind) {content : Node} (h : Vacant content) :
      NamesKind (.table origin [(kind.name, content)]) kind

theorem readSerial_eq_ok_iff {node : Node} {serial : Serial} :
    readSerial node = .ok serial ↔ SpellsSerial node serial := by
  constructor
  · intro h
    unfold readSerial at h
    split at h
    · next value =>
      split at h
      · next hrange =>
        cases h
        obtain ⟨size, rfl⟩ := Int.eq_ofNat_of_zero_le hrange.1
        have hsize : size < 2 ^ 32 := by
          have := hrange.2
          simp only [Serial.limit] at this
          omega
        have hvalue : (UInt32.ofNat size).toNat = size := UInt32.toNat_ofNat_of_lt' hsize
        have hspells := SpellsSerial.integer (UInt32.ofNat size)
        rw [hvalue] at hspells
        exact hspells
      · cases h
    · split at h
      · next hparse =>
        cases h
        exact .text (Serial.parse_eq_ok_iff.1 hparse)
      · cases h
    · cases h
  · intro h
    cases h with
    | integer =>
      have hrange : (0 : Int) ≤ serial.toNat ∧ (serial.toNat : Int) ≤ Serial.limit := by
        have := serial.toNat_lt
        simp only [Serial.limit]
        omega
      rw [readSerial, if_pos hrange, Int.toNat_natCast, UInt32.ofNat_toNat]
    | text h => simp only [readSerial, Serial.parse_eq_ok_iff.2 h]

theorem readNothing_eq_ok_iff {node : Node} : readNothing node = .ok () ↔ Vacant node := by
  constructor
  · intro h
    unfold readNothing at h
    split at h
    · exact .table _
    · exact .array
    · exact .tables
    all_goals cases h
  · intro h
    cases h <;> rfl

theorem readKindName_eq_ok_iff {name : String} {kind : Kind} :
    readKindName name = .ok kind ↔ name = kind.name := by
  unfold readKindName
  constructor
  · intro h
    split at h
    · next hparse =>
      cases h
      unfold Kind.parse? at hparse
      split at hparse
      · next hname =>
        cases hparse
        exact hname
      · split at hparse
        · next hname =>
          cases hparse
          exact hname
        · cases hparse
    · cases h
  · rintro rfl
    rw [Kind.parse?_name]

theorem readKind_eq_ok_iff {node : Node} {kind : Kind} :
    readKind node = .ok kind ↔ NamesKind node kind := by
  constructor
  · intro h
    unfold readKind at h
    split at h
    · rw [readKindName_eq_ok_iff.1 h]
      exact .text kind
    · cases h
    · next origin name content =>
      cases hname : readKindName name with
      | error cause =>
        rw [hname] at h
        cases h
      | ok found =>
        cases hcontent : readNothing content with
        | error cause =>
          rw [hname, hcontent] at h
          cases h
        | ok _ =>
          rw [hname, hcontent] at h
          cases h
          rw [readKindName_eq_ok_iff.1 hname]
          exact .table origin kind (readNothing_eq_ok_iff.1 hcontent)
    · cases h
    · cases h
  · intro h
    cases h with
    | text => exact readKindName_eq_ok_iff.2 rfl
    | table origin _ h =>
      simp only [readKind, readKindName_eq_ok_iff.2 rfl, readNothing_eq_ok_iff.2 h]
      rfl

theorem readText_eq_ok_iff {wanted content : String} {node : Node} :
    readText wanted node = .ok content ↔ node = .text content := by
  cases node <;> simp [readText]

theorem readBoolean_eq_ok_iff {value : Bool} {node : Node} :
    readBoolean node = .ok value ↔ node = .boolean value := by
  cases node <;> simp [readBoolean]

/-! ## Fields of a table -/

namespace Fields

/-- What reading a key with its value does to the fields: the key is that of one field, and
the value is kept there. -/
inductive Reads (fields : Fields) (key : String) (node : Node) : Fields → Prop where
  | serial {value : Serial} (hkey : key = "snr") (h : readSerial node = .ok value) :
      Reads fields key node { fields with serial := some value }
  | kind {value : Kind} (hkey : key = "kind") (h : readKind node = .ok value) :
      Reads fields key node { fields with kind := some value }
  | channel {value : String} (hkey : key = "channel") (h : readChannel node = .ok value) :
      Reads fields key node { fields with channel := some value }
  | connected {value : Bool} (hkey : key = "connected") (h : readBoolean node = .ok value) :
      Reads fields key node { fields with connected := some value }
  | appFile {value : ImagePath} (hkey : key = "app_hex") (h : readPath node = .ok value) :
      Reads fields key node { fields with appFile := some value }
  | netFile {value : ImagePath} (hkey : key = "net_hex") (h : readPath node = .ok value) :
      Reads fields key node { fields with netFile := some value }

variable {fields next result : Fields} {key : String} {node : Node} {entries : Toml.Entries}

theorem read_eq_ok_iff : fields.read key node = .ok next ↔ fields.Reads key node next := by
  constructor
  · intro h
    unfold Fields.read at h
    split at h
    case h_7 => cases h
    all_goals
      obtain ⟨value, hvalue, h⟩ := bind_eq_ok h
      cases h
    · exact .serial rfl hvalue
    · exact .kind rfl hvalue
    · exact .channel rfl hvalue
    · exact .connected rfl hvalue
    · exact .appFile rfl hvalue
    · exact .netFile rfl hvalue
  · intro h
    cases h with
    | serial hkey h | kind hkey h | channel hkey h | connected hkey h | appFile hkey h
    | netFile hkey h =>
      subst hkey
      simp only [Fields.read, h]
      rfl

/-- A field: its key, the value that is kept of it, and how that is read. Reading the key
keeps its value, and reading another leaves it as it was. -/
structure Field (α : Type) where
  key : String
  kept : Fields → Option α
  reader : Node → Except Misfit α
  own : ∀ {fields next : Fields} {node : Node}, fields.Reads key node next →
      ∃ value, reader node = .ok value ∧ kept next = some value := by
    rintro _ _ _ (_ | _ | _ | _ | _ | _) <;> first | exact ⟨_, ‹_›, rfl⟩ | contradiction
  other : ∀ {fields next : Fields} {k : String} {node : Node}, k ≠ key →
      fields.Reads k node next → kept next = kept fields := by
    rintro _ _ _ _ _ (_ | _ | _ | _ | _ | _) <;> first | rfl | contradiction
  key_mem : key ∈ fieldNames := by decide

namespace Field

def serial : Field Serial := { key := "snr", kept := Fields.serial, reader := readSerial }

def kind : Field Kind := { key := "kind", kept := Fields.kind, reader := readKind }

def channel : Field String := { key := "channel", kept := Fields.channel, reader := readChannel }

def connected : Field Bool :=
  { key := "connected", kept := Fields.connected, reader := readBoolean }

def appFile : Field ImagePath := { key := "app_hex", kept := Fields.appFile, reader := readPath }

def netFile : Field ImagePath := { key := "net_hex", kept := Fields.netFile, reader := readPath }

/-- What reading a table leaves in a field: what it was where the table does not have the
key, and else the value that the key stands for. -/
theorem settled {α : Type} (field : Field α) (hnodup : (Toml.keys entries).Nodup)
    (h : fields.readAll entries = .ok result) :
    (Toml.lookup field.key entries = none → field.kept result = field.kept fields) ∧
      ∀ node, Toml.lookup field.key entries = some node →
        ∃ value, field.reader node = .ok value ∧ field.kept result = some value := by
  induction entries generalizing fields with
  | nil =>
    cases h
    refine ⟨fun _ => rfl, fun node hnode => ?_⟩
    cases hnode
  | cons head rest ih =>
    obtain ⟨key, node⟩ := head
    obtain ⟨hfresh, hrest⟩ := List.nodup_cons.1 hnodup
    obtain ⟨next, hread, hlater⟩ := bind_eq_ok h
    have hreads := read_eq_ok_iff.1 hread
    by_cases hkey : key = field.key
    · subst hkey
      obtain ⟨value, hvalue, hkept⟩ := field.own hreads
      have hlast := (ih hrest hlater).1 (Toml.lookup_eq_none_iff.2 hfresh)
      simp only [Toml.lookup, if_true]
      refine ⟨fun hnone => ?_, fun node hnode => ?_⟩
      · cases hnone
      · exact ⟨value, Option.some.inj hnode ▸ hvalue, hlast.trans hkept⟩
    · rw [Toml.lookup, if_neg hkey, ← field.other hkey hreads]
      exact ih hrest hlater

/-- Without a value before, a field that is read back from its value is what its key stands
for. -/
theorem lookup_of_readAll {α : Type} (field : Field α) {make : α → Node}
    (hreader : ∀ node value, field.reader node = .ok value ↔ node = make value)
    (hnone : field.kept fields = none) (hnodup : (Toml.keys entries).Nodup)
    (h : fields.readAll entries = .ok result) :
    Toml.lookup field.key entries = (field.kept result).map make := by
  obtain ⟨hleft, hfound⟩ := field.settled hnodup h
  cases hlookup : Toml.lookup field.key entries with
  | none => rw [hleft hlookup, hnone, Option.map_none]
  | some node =>
    obtain ⟨value, hvalue, hkept⟩ := hfound node hlookup
    rw [hkept, Option.map_some, (hreader node value).1 hvalue]

end Field

/-- The keys of a table that is read are fields. -/
theorem known_of_readAll (h : fields.readAll entries = .ok result) :
    ∀ key ∈ Toml.keys entries, key ∈ fieldNames := by
  induction entries generalizing fields with
  | nil => exact List.forall_mem_nil _
  | cons head rest ih =>
    obtain ⟨next, hread, h⟩ := bind_eq_ok h
    refine List.forall_mem_cons.2 ⟨?_, ih h⟩
    rcases read_eq_ok_iff.1 hread with hkey | hkey | hkey | hkey | hkey | hkey <;>
      exact hkey ▸ by decide

/-- A table is read when each of its keys can be. -/
theorem exists_readAll
    (h : ∀ entry ∈ entries, ∀ fields : Fields, ∃ next, fields.read entry.1 entry.2 = .ok next)
    (fields : Fields) : ∃ result, fields.readAll entries = .ok result := by
  induction entries generalizing fields with
  | nil => exact ⟨fields, rfl⟩
  | cons head rest ih =>
    obtain ⟨hhead, hrest⟩ := List.forall_mem_cons.1 h
    obtain ⟨next, hnext⟩ := hhead fields
    obtain ⟨result, hresult⟩ := ih hrest next
    refine ⟨result, ?_⟩
    rw [Fields.readAll, hnext]
    exact hresult

end Fields

/-! ## Devices -/

/-- The table is an entry: each of its keys is a field, and what a field stands for is the
value of the entry. -/
structure Tabled (entries : Toml.Entries) (entry : Entry) : Prop where
  known : ∀ key ∈ Toml.keys entries, key ∈ fieldNames
  serial : ∃ node, Toml.lookup "snr" entries = some node ∧ SpellsSerial node entry.serial
  kind : ∃ node, Toml.lookup "kind" entries = some node ∧ NamesKind node entry.kind
  channel : Toml.lookup "channel" entries = entry.channel.map .text
  connected : Toml.lookup "connected" entries = entry.connected.map .boolean
  appFile : Toml.lookup "app_hex" entries = entry.appFile.map .text
  netFile : Toml.lookup "net_hex" entries = entry.netFile.map .text

/-- The node describes the entry: as a table, or as an array of all its fields, behind which
anything may stand. -/
inductive Describes : Node → Entry → Prop where
  | table {origin : Toml.Origin} {entries : Toml.Entries} {entry : Entry}
      (h : Tabled entries entry) : Describes (.table origin entries) entry
  | array {serialNode kindNode : Node} {serial : Serial} {kind : Kind}
      (hserial : SpellsSerial serialNode serial) (hkind : NamesKind kindNode kind)
      (channel : String) (connected : Bool) (appFile netFile : ImagePath) (more : List Node) :
      Describes
        (.array (serialNode :: kindNode :: .text channel :: .boolean connected ::
          .text appFile :: .text netFile :: more))
        { serial := serial, kind := kind, channel := some channel, connected := some connected,
          appFile := some appFile, netFile := some netFile }

theorem readChannel_eq_ok_iff (node : Node) (content : String) :
    readChannel node = .ok content ↔ node = .text content :=
  readText_eq_ok_iff

theorem readPath_eq_ok_iff (node : Node) (path : ImagePath) :
    readPath node = .ok path ↔ node = .text path :=
  readText_eq_ok_iff

/-- Each key of an entry can be read. -/
theorem Tabled.exists_read {entries : Toml.Entries} {entry : Entry} (h : Tabled entries entry)
    (hnodup : (Toml.keys entries).Nodup) :
    ∀ pair ∈ entries, ∀ fields : Fields, ∃ next, fields.read pair.1 pair.2 = .ok next := by
  rintro ⟨key, node⟩ hmem fields
  have hknown := h.known key (List.mem_map.2 ⟨_, hmem, rfl⟩)
  have hlookup := Toml.lookup_of_mem hnodup hmem
  have hoptional : ∀ {α : Type} {value : Option α} {make : α → Node},
      Toml.lookup key entries = value.map make → ∃ content, node = make content := by
    intro α value make hvalue
    rw [hlookup] at hvalue
    obtain ⟨content, _, hnode⟩ := Option.map_eq_some_iff.1 hvalue.symm
    exact ⟨content, hnode.symm⟩
  simp only [fieldNames, List.mem_cons, List.not_mem_nil, or_false] at hknown
  rcases hknown with rfl | rfl | rfl | rfl | rfl | rfl
  · obtain ⟨found, hfound, hspells⟩ := h.serial
    rw [hlookup] at hfound
    cases hfound
    exact ⟨_, Fields.read_eq_ok_iff.2 (.serial rfl (readSerial_eq_ok_iff.2 hspells))⟩
  · obtain ⟨found, hfound, hnames⟩ := h.kind
    rw [hlookup] at hfound
    cases hfound
    exact ⟨_, Fields.read_eq_ok_iff.2 (.kind rfl (readKind_eq_ok_iff.2 hnames))⟩
  · obtain ⟨content, hnode⟩ := hoptional h.channel
    exact ⟨_, Fields.read_eq_ok_iff.2 (.channel rfl ((readChannel_eq_ok_iff _ _).2 hnode))⟩
  · obtain ⟨value, hnode⟩ := hoptional h.connected
    exact ⟨_, Fields.read_eq_ok_iff.2 (.connected rfl (readBoolean_eq_ok_iff.2 hnode))⟩
  · obtain ⟨path, hnode⟩ := hoptional h.appFile
    exact ⟨_, Fields.read_eq_ok_iff.2 (.appFile rfl ((readPath_eq_ok_iff _ _).2 hnode))⟩
  · obtain ⟨path, hnode⟩ := hoptional h.netFile
    exact ⟨_, Fields.read_eq_ok_iff.2 (.netFile rfl ((readPath_eq_ok_iff _ _).2 hnode))⟩

/-- What a required field was read from. -/
theorem Fields.Field.exists_of_readAll {α : Type} (field : Fields.Field α)
    {entries : Toml.Entries} {fields : Fields} {value : α} (hnodup : (Toml.keys entries).Nodup)
    (hnone : field.kept {} = none) (h : ({} : Fields).readAll entries = .ok fields)
    (hvalue : field.kept fields = some value) :
    ∃ node, Toml.lookup field.key entries = some node ∧ field.reader node = .ok value := by
  obtain ⟨hleft, hfound⟩ := field.settled hnodup h
  cases hlookup : Toml.lookup field.key entries with
  | none =>
    rw [hleft hlookup, hnone] at hvalue
    cases hvalue
  | some node =>
    obtain ⟨found, hread, hkept⟩ := hfound node hlookup
    rw [hkept] at hvalue
    cases hvalue
    exact ⟨node, rfl, hread⟩

/-- What is read from a table is an entry. -/
theorem tabled_of_ofTable {entries : Toml.Entries} {device : Device}
    (hnodup : (Toml.keys entries).Nodup) (h : ofTable entries = .ok device) :
    ∃ entry, Tabled entries entry ∧ device = entry.device := by
  obtain ⟨fields, hread, hcomplete⟩ := bind_eq_ok h
  unfold Fields.complete at hcomplete
  split at hcomplete
  · cases hcomplete
  · cases hcomplete
  · next serial kind hserial hkind =>
    cases hcomplete
    obtain ⟨serialNode, hserialNode, hserialRead⟩ :=
      Fields.Field.serial.exists_of_readAll hnodup rfl hread hserial
    obtain ⟨kindNode, hkindNode, hkindRead⟩ :=
      Fields.Field.kind.exists_of_readAll hnodup rfl hread hkind
    exact ⟨⟨serial, kind, fields.channel, fields.connected, fields.appFile, fields.netFile⟩,
      { known := Fields.known_of_readAll hread
        serial := ⟨serialNode, hserialNode, readSerial_eq_ok_iff.1 hserialRead⟩
        kind := ⟨kindNode, hkindNode, readKind_eq_ok_iff.1 hkindRead⟩
        channel := Fields.Field.channel.lookup_of_readAll readChannel_eq_ok_iff rfl hnodup hread
        connected :=
          Fields.Field.connected.lookup_of_readAll (fun _ _ => readBoolean_eq_ok_iff) rfl hnodup
            hread
        appFile := Fields.Field.appFile.lookup_of_readAll readPath_eq_ok_iff rfl hnodup hread
        netFile := Fields.Field.netFile.lookup_of_readAll readPath_eq_ok_iff rfl hnodup hread },
      rfl⟩

theorem SpellsSerial.unique {node : Node} {serial other : Serial} (h : SpellsSerial node serial)
    (hother : SpellsSerial node other) : serial = other :=
  Except.ok.inj ((readSerial_eq_ok_iff.2 h).symm.trans (readSerial_eq_ok_iff.2 hother))

theorem NamesKind.unique {node : Node} {kind other : Kind} (h : NamesKind node kind)
    (hother : NamesKind node other) : kind = other :=
  Except.ok.inj ((readKind_eq_ok_iff.2 h).symm.trans (readKind_eq_ok_iff.2 hother))

/-- A table is one entry. -/
theorem Tabled.unique {entries : Toml.Entries} {entry other : Entry} (h : Tabled entries entry)
    (hother : Tabled entries other) : entry = other := by
  have htext : Function.Injective (Option.map Node.text) :=
    Option.map_injective fun _ _ heq => Node.text.inj heq
  have hboolean : Function.Injective (Option.map Node.boolean) :=
    Option.map_injective fun _ _ heq => Node.boolean.inj heq
  have hserial : entry.serial = other.serial := by
    obtain ⟨node, hnode, hspells⟩ := h.serial
    obtain ⟨found, hfound, hspelled⟩ := hother.serial
    cases hnode.symm.trans hfound
    exact hspells.unique hspelled
  have hkind : entry.kind = other.kind := by
    obtain ⟨node, hnode, hnames⟩ := h.kind
    obtain ⟨found, hfound, hnamed⟩ := hother.kind
    cases hnode.symm.trans hfound
    exact hnames.unique hnamed
  have hchannel := htext (h.channel.symm.trans hother.channel)
  have hconnected := hboolean (h.connected.symm.trans hother.connected)
  have happ := htext (h.appFile.symm.trans hother.appFile)
  have hnet := htext (h.netFile.symm.trans hother.netFile)
  cases entry
  cases other
  congr

/-- A table that is an entry is read. -/
theorem Tabled.exists_ofTable {entries : Toml.Entries} {entry : Entry} (h : Tabled entries entry)
    (hnodup : (Toml.keys entries).Nodup) : ∃ device, ofTable entries = .ok device := by
  obtain ⟨fields, hread⟩ := Fields.exists_readAll (h.exists_read hnodup) {}
  obtain ⟨serialNode, hserialNode, _⟩ := h.serial
  obtain ⟨serial, _, hserial⟩ := (Fields.Field.serial.settled hnodup hread).2 _ hserialNode
  obtain ⟨kindNode, hkindNode, _⟩ := h.kind
  obtain ⟨kind, _, hkind⟩ := (Fields.Field.kind.settled hnodup hread).2 _ hkindNode
  have hserial : fields.serial = some serial := hserial
  have hkind : fields.kind = some kind := hkind
  refine ⟨fields.device serial kind, ?_⟩
  rw [ofTable, hread]
  simp only [bind, Except.bind, Fields.complete, hserial, hkind]

/-- A table is read as the device of its entry. -/
theorem ofTable_eq_ok_iff {entries : Toml.Entries} {device : Device}
    (hnodup : (Toml.keys entries).Nodup) :
    ofTable entries = .ok device ↔ ∃ entry, Tabled entries entry ∧ device = entry.device := by
  refine ⟨tabled_of_ofTable hnodup, ?_⟩
  rintro ⟨entry, htabled, rfl⟩
  obtain ⟨device, hread⟩ := htabled.exists_ofTable hnodup
  obtain ⟨other, hother, rfl⟩ := tabled_of_ofTable hnodup hread
  rwa [htabled.unique hother]

/-- An array is read as the device of its entry. -/
theorem ofArray_eq_ok_iff {items : List Node} {device : Device} :
    ofArray items = .ok device ↔
      ∃ entry, Describes (.array items) entry ∧ device = entry.device := by
  constructor
  · intro h
    obtain ⟨serial, hserial, h⟩ := bind_eq_ok h
    obtain ⟨kind, hkind, h⟩ := bind_eq_ok h
    obtain ⟨channel, hchannel, h⟩ := bind_eq_ok h
    obtain ⟨connected, hconnected, h⟩ := bind_eq_ok h
    obtain ⟨appFile, happ, h⟩ := bind_eq_ok h
    obtain ⟨netFile, hnet, h⟩ := bind_eq_ok h
    cases h
    match items with
    | serialNode :: kindNode :: channelNode :: connectedNode :: appNode :: netNode :: more =>
      obtain ⟨content, hcontent, rfl⟩ := map_eq_ok hchannel
      obtain ⟨value, hvalue, rfl⟩ := map_eq_ok hconnected
      cases (readChannel_eq_ok_iff _ _).1 hcontent
      cases readBoolean_eq_ok_iff.1 hvalue
      cases (readPath_eq_ok_iff _ _).1 happ
      cases (readPath_eq_ok_iff _ _).1 hnet
      exact ⟨_, .array (readSerial_eq_ok_iff.1 hserial) (readKind_eq_ok_iff.1 hkind) content value
        appFile netFile more, rfl⟩
    -- With less than six items there is nothing at the last place.
    | [] | [_] | [_, _] | [_, _, _] | [_, _, _, _] | [_, _, _, _, _] => cases hnet
  · rintro ⟨entry, hdescribes, rfl⟩
    cases hdescribes with
    | array hserial hkind channel connected appFile netFile more =>
      have hserial := readSerial_eq_ok_iff.2 hserial
      have hkind := readKind_eq_ok_iff.2 hkind
      simp only [ofArray, required, optional, List.getElem?_cons_zero, List.getElem?_cons_succ,
        hserial, hkind]
      rfl

/-- A node is read as the device of the entry that it describes. -/
theorem ofNode_eq_ok_iff {node : Node} {device : Device} (hnode : node.Distinct) :
    ofNode node = .ok device ↔ ∃ entry, Describes node entry ∧ device = entry.device := by
  cases node with
  | table origin entries =>
    refine (ofTable_eq_ok_iff hnode.entries.keys).trans (exists_congr fun entry => ?_)
    refine and_congr_left fun _ => ⟨.table, fun h => ?_⟩
    cases h with
    | table h => exact h
  | array items => exact ofArray_eq_ok_iff
  | text | integer | float | boolean | moment | tables =>
    refine ⟨nofun, ?_⟩
    rintro ⟨entry, hdescribes, _⟩
    cases hdescribes

/-! ## Documents -/

/-- The section lists the entries: as tables with a header each, or as the items of an
array. -/
inductive Lists : Node → List Entry → Prop where
  | tables {items : List Toml.Entries} {listed : List Entry}
      (h : List.Forall₂ Tabled items listed) : Lists (.tables items) listed
  | array {items : List Node} {listed : List Entry} (h : List.Forall₂ Describes items listed) :
      Lists (.array items) listed

/-- The document fits a device file and lists the entries: it has no key but that of the
section, and without the section there are none. -/
inductive Fits : Toml.Entries → List Entry → Prop where
  | nothing : Fits [] []
  | device {node : Node} {listed : List Entry} (h : Lists node listed) :
      Fits [("device", node)] listed

/-- Nodes are read one by one as the devices of their entries. -/
theorem readEach_eq_ok_iff {α : Type} {read : α → Except Misfit Device} {tells : α → Entry → Prop}
    {items : List α} {devices : List Device}
    (hread : ∀ item ∈ items, ∀ device,
      read item = .ok device ↔ ∃ entry, tells item entry ∧ device = entry.device) :
    readEach read items = .ok devices ↔
      ∃ listed, List.Forall₂ tells items listed ∧ devices = listed.map Entry.device := by
  induction items generalizing devices with
  | nil =>
    constructor
    · intro h
      cases h
      exact ⟨[], .nil, rfl⟩
    · rintro ⟨listed, hlisted, rfl⟩
      cases hlisted
      rfl
  | cons item rest ih =>
    obtain ⟨hitem, hrest⟩ := List.forall_mem_cons.1 hread
    constructor
    · intro h
      obtain ⟨device, hdevice, h⟩ := bind_eq_ok h
      obtain ⟨later, hlater, h⟩ := bind_eq_ok h
      cases h
      obtain ⟨entry, htells, rfl⟩ := (hitem device).1 hdevice
      obtain ⟨listed, hlisted, rfl⟩ := (ih hrest).1 hlater
      exact ⟨entry :: listed, .cons htells hlisted, rfl⟩
    · rintro ⟨listed, hlisted, rfl⟩
      cases hlisted with
      | @cons _ entry _ listed htells hlisted =>
        have hdevice := (hitem entry.device).2 ⟨entry, htells, rfl⟩
        have hlater := (ih hrest).2 ⟨listed, hlisted, rfl⟩
        simp only [readEach, hdevice, hlater]
        rfl

theorem ofSection_eq_ok_iff {node : Node} {devices : List Device} (hnode : node.Distinct) :
    ofSection node = .ok devices ↔
      ∃ listed, Lists node listed ∧ devices = listed.map Entry.device := by
  cases node with
  | tables items =>
    have hitems := hnode.of_tables
    refine (readEach_eq_ok_iff fun item hitem device =>
      ofTable_eq_ok_iff (hitems item hitem).keys).trans (exists_congr fun listed => ?_)
    refine and_congr_left fun _ => ⟨.tables, fun h => ?_⟩
    cases h with
    | tables h => exact h
  | array items =>
    have hitems : ∀ item ∈ items, item.Distinct := by
      cases hnode with
      | array hitems => exact hitems
    refine (readEach_eq_ok_iff fun item hitem device =>
      ofNode_eq_ok_iff (hitems item hitem)).trans (exists_congr fun listed => ?_)
    refine and_congr_left fun _ => ⟨.array, fun h => ?_⟩
    cases h with
    | array h => exact h
  | text | integer | float | boolean | moment | table =>
    refine ⟨nofun, ?_⟩
    rintro ⟨listed, hlists, _⟩
    cases hlists

/-- A document is read as the devices of the entries that it lists. -/
theorem entries_eq_ok_iff {document : Toml.Entries} {devices : List Device}
    (hdocument : document.Distinct) :
    entries document = .ok devices ↔
      ∃ listed, Fits document listed ∧ devices = listed.map Entry.device := by
  match document with
  | [] =>
    constructor
    · intro h
      cases h
      exact ⟨[], .nothing, rfl⟩
    · rintro ⟨listed, hfits, rfl⟩
      cases hfits
      rfl
  | [(key, node)] =>
    have hnode := hdocument.nodes _ List.mem_cons_self
    constructor
    · intro h
      rw [entries, ofSections] at h
      split at h
      · next hkey =>
        obtain ⟨read, hread, h⟩ := bind_eq_ok h
        cases h
        obtain ⟨listed, hlists, hdevices⟩ := (ofSection_eq_ok_iff hnode).1 hread
        exact ⟨listed, hkey ▸ .device hlists, hdevices⟩
      · cases h
    · rintro ⟨listed, hfits, hdevices⟩
      cases hfits with
      | device hlists =>
        have hread := (ofSection_eq_ok_iff hnode).2 ⟨listed, hlists, hdevices⟩
        simp only [entries, ofSections, if_true, hread]
        rfl
  | (key, node) :: (other, more) :: rest =>
    refine ⟨fun h => ?_, fun ⟨listed, hfits, _⟩ => nomatch hfits⟩
    -- Both keys would be that of the section, but no key stands twice.
    have hdistinct : key ≠ other := fun heq =>
      (List.nodup_cons.1 hdocument.keys).1 (heq ▸ List.mem_cons_self)
    rw [entries, ofSections] at h
    split at h
    · next hkey =>
      obtain ⟨read, _, h⟩ := bind_eq_ok h
      rw [ofSections, if_neg (fun heq => hdistinct (hkey.trans heq.symm))] at h
      cases h
    · cases h

end DeviceFile

end FlashFleet
