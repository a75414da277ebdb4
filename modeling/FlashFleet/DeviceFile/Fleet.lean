import FlashFleet.DeviceFile.Entry
import FlashFleet.Toml.Document
/-!
# Device files

A device file is a document with one section, `device`, that lists the
development kits attached to the host. No probe may be listed twice, however
its serial is written; that is checked after the whole file was accepted.

## Main results

* `firstRepeated_eq_none_iff` — nothing is repeated exactly when the serials
  are pairwise distinct.
* `firstRepeated_eq_some` — the serial reported is that of the earliest entry
  whose serial came before.
-/

namespace FlashFleet.DeviceFile

/-- Why a device file is refused. -/
inductive Error where
  | unreadable (path source : String)
  | notDocument
  | misfit (cause : Misfit)
  | repeated (serial : Serial)
  deriving DecidableEq, Repr

/-- The wording of a refusal. -/
def Error.message : Error → String
  | .unreadable path source => s!"Failed to read {path}: {source}"
  | .notDocument => "invalid TOML document"
  | .misfit cause => cause.message
  | .repeated serial =>
    misconfiguration ("probe serial " ++ toString serial.toNat ++ " listed more than once")

/-! ## The list of devices -/

/-- Reads the devices one after another. -/
def readEach (read : α → Except Misfit Device) : List α → Except Misfit (List Device)
  | [] => .ok []
  | item :: rest => do
    let device ← read item
    let devices ← readEach read rest
    return device :: devices

/-- Reads the devices of the section. -/
def ofSection : Toml.Node → Except Misfit (List Device)
  | .tables items => readEach ofTable items
  | .array items => readEach ofNode items
  | node => .error (mismatch node "a sequence")

/-- Reads the sections of a document after devices read before. -/
def ofSections (devices : List Device) : Toml.Entries → Except Misfit (List Device)
  | [] => .ok devices
  | (key, node) :: rest =>
    if key = "device" then do
      let devices ← ofSection node
      ofSections devices rest
    else .error (.unknownSection key)

/-- The devices that a document lists, whether or not a probe is listed
twice. -/
def entries (document : Toml.Entries) : Except Misfit (List Device) := ofSections [] document

/-! ## Repeated serials -/

/-- The serial of the earliest entry whose serial was seen before. -/
def firstRepeated (seen : List Serial) : List Serial → Option Serial
  | [] => none
  | serial :: rest =>
    if serial ∈ seen then some serial else firstRepeated (serial :: seen) rest

/-- Reads a device file. -/
def parse (text : String) : Except Error (List Device) :=
  match Toml.parse? text with
  | none => .error .notDocument
  | some document =>
    match entries document with
    | .error cause => .error (.misfit cause)
    | .ok devices =>
      match firstRepeated [] (devices.map Device.serial) with
      | some serial => .error (.repeated serial)
      | none => .ok devices

/-- Nothing is repeated exactly when the serials are new and distinct. -/
theorem firstRepeated_eq_none_iff {seen serials : List Serial} :
    firstRepeated seen serials = none ↔ serials.Nodup ∧ ∀ serial ∈ serials, serial ∉ seen := by
  induction serials generalizing seen with
  | nil => simp [firstRepeated]
  | cons serial rest ih =>
    by_cases h : serial ∈ seen
    · simp [firstRepeated, h]
    · simp only [firstRepeated, h, if_false, ih, List.nodup_cons, List.mem_cons]
      grind

/-- The serial reported is the first one that came before. -/
theorem firstRepeated_eq_some {seen serials : List Serial} {serial : Serial}
    (h : firstRepeated seen serials = some serial) :
    ∃ before after, serials = before ++ serial :: after ∧ (serial ∈ seen ∨ serial ∈ before) ∧
      before.Nodup ∧ ∀ s ∈ before, s ∉ seen := by
  induction serials generalizing seen with
  | nil => simp [firstRepeated] at h
  | cons first rest ih =>
    by_cases hseen : first ∈ seen
    · simp only [firstRepeated, hseen, if_true, Option.some.injEq] at h
      subst h
      exact ⟨[], rest, rfl, .inl hseen, by simp, by simp⟩
    · simp only [firstRepeated, hseen, if_false] at h
      obtain ⟨before, after, rfl, hbefore, hnodup, hnew⟩ := ih h
      refine ⟨first :: before, after, rfl, ?_, ?_, ?_⟩
      · grind
      · grind
      · grind

end FlashFleet.DeviceFile
