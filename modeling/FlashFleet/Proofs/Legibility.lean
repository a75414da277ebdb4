import FlashFleet.Proofs.Choices
import FlashFleet.Proofs.Summary
import Mathlib.Data.List.Forall2
import Mathlib.Data.Nat.Digits.Defs
/-!
# Tables, measured and read back

A row is as wide as its columns and the spaces between them, if no cell is wider than its
column. Then the columns of all rows stand below each other, and a row that is cut where the
columns begin gives back its cells, but for spaces at the end of a cell, which cannot be told
from those that fill the column. A serial with its star, the name of a kind and the wording of
a flag fit and end in no space whatever the device; a channel and a path may be too long, or
may hold a line break.

The rule of the summary is as wide as its rows. That of the listing is not: it is one dash
short of them.

## Main results

* `Layout.length_row`, `Layout.readRow_row` — a row is measured, and read back.
* `readLines_print` — an output is read back line by line.
* `tables_legible` — both tables for all devices whose texts fit.
-/

namespace FlashFleet

namespace Text

/-! ## Texts in columns -/

/-- The text fits into a column: it is not too long, and it is not broken. -/
structure FitsIn (width : Nat) (text : String) : Prop where
  length : text.length ≤ width
  unbroken : '\n' ∉ text.toList

instance (width : Nat) (text : String) : Decidable (FitsIn width text) :=
  decidable_of_iff (text.length ≤ width ∧ '\n' ∉ text.toList)
    ⟨fun ⟨length, unbroken⟩ => ⟨length, unbroken⟩, fun h => ⟨h.length, h.unbroken⟩⟩

/-- A text that fits fills its column. -/
theorem FitsIn.length_padRight {width : Nat} {text : String} (h : FitsIn width text) :
    (padRight width text).toList.length = width := by
  have hlength := h.length
  rw [← String.length_toList] at hlength
  exact Text.length_padRight hlength

theorem FitsIn.unbroken_padRight {width : Nat} {text : String} (h : FitsIn width text) :
    '\n' ∉ (padRight width text).toList := by
  rw [toList_padRight, List.mem_append, not_or]
  exact ⟨h.unbroken, fun hmem => absurd (List.eq_of_mem_replicate hmem) (by decide)⟩

/-- A column that stands first is cut off and gives back its text, but for spaces at the end. -/
theorem FitsIn.unpad_take {width : Nat} {text : String} (h : FitsIn width text)
    (behind : List Char) :
    unpad (((padRight width text).toList ++ behind).take width) = unpad text.toList := by
  rw [List.take_left' h.length_padRight, toList_padRight, unpad_append_replicate]

/-- Behind it is what stands behind the next space. -/
theorem FitsIn.drop_padRight {width : Nat} {text : String} (h : FitsIn width text)
    (behind : List Char) :
    ((padRight width text).toList ++ ' ' :: behind).drop (width + 1) = behind := by
  rw [← List.drop_drop, List.drop_left' h.length_padRight]
  rfl

/-- Spaces between texts are separators like any others. -/
theorem joinWith_eq_intercalate (sep : Char) (pieces : List (List Char)) :
    joinWith sep pieces = [sep].intercalate pieces := by
  induction pieces with
  | nil => rfl
  | cons piece rest ih =>
    cases rest with
    | nil => simp [joinWith, List.intercalate]
    | cons next rest =>
      rw [joinWith, ih, List.intercalate, List.intercalate, List.intersperse_cons_cons]
      · simp
      · exact List.cons_ne_nil next rest

end Text

namespace Table

/-! ## Rows -/

namespace Layout

/-- The columns of these widths together, with a space between neighbours. -/
def span : List Nat → Nat
  | [] => 0
  | [width] => width
  | width :: rest => width + 1 + span rest

/-- Each cell fits into its column. -/
def Fits (layout : Layout) (cells : List String) : Prop :=
  List.Forall₂ Text.FitsIn (layout.columns.map Prod.fst) cells

instance (layout : Layout) (cells : List String) : Decidable (layout.Fits cells) :=
  inferInstanceAs (Decidable (List.Forall₂ _ _ _))

/-- A line cut where the columns begin, each piece without the spaces at its end. -/
def readCells : List Nat → List Char → List String
  | [], _ => []
  | width :: rest, line => Text.unpad (line.take width) :: readCells rest (line.drop (width + 1))

/-- The cells of a row. -/
def readRow (layout : Layout) (row : String) : List String :=
  readCells (layout.columns.map Prod.fst) row.toList

variable {layout : Layout} {cells : List String}

theorem toList_row (layout : Layout) (cells : List String) :
    (layout.row cells).toList =
      Text.joinWith ' ' ((setCells (layout.columns.map Prod.fst) cells).map String.toList) := by
  rw [row, String.toList_intercalate, Text.joinWith_eq_intercalate]
  rfl

/-- A row is as wide as its columns with the spaces between them. -/
theorem length_row (h : layout.Fits cells) :
    (layout.row cells).length = span (layout.columns.map Prod.fst) := by
  rw [← String.length_toList, toList_row]
  unfold Fits at h
  generalize layout.columns.map Prod.fst = widths at h
  induction h with
  | nil => rfl
  | cons hcell hrest ih =>
    cases hrest with
    | nil => exact hcell.length_padRight
    | cons hnext hlater =>
      simp only [setCells, List.map_cons, Text.joinWith, span, List.length_append,
        List.length_cons, hcell.length_padRight] at ih ⊢
      omega

/-- A row whose cells are not broken is not broken either. -/
theorem unbroken_row (h : layout.Fits cells) : '\n' ∉ (layout.row cells).toList := by
  rw [toList_row]
  unfold Fits at h
  generalize layout.columns.map Prod.fst = widths at h
  induction h with
  | nil => exact List.not_mem_nil
  | cons hcell hrest ih =>
    cases hrest with
    | nil => exact hcell.unbroken_padRight
    | cons hnext hlater =>
      simp only [setCells, List.map_cons, Text.joinWith, List.mem_append, List.mem_cons,
        not_or] at ih ⊢
      exact ⟨hcell.unbroken_padRight, by decide, ih⟩

/-- Cells that are set side by side are found again, but for the spaces at their ends. -/
theorem readCells_setCells {widths : List Nat} (h : List.Forall₂ Text.FitsIn widths cells) :
    readCells widths (Text.joinWith ' ' ((setCells widths cells).map String.toList)) =
      cells.map fun cell => Text.unpad cell.toList := by
  induction h with
  | nil => rfl
  | @cons width cell widths cells hcell hrest ih =>
    cases hrest with
    | nil =>
      have hlone := hcell.unpad_take []
      rw [List.append_nil] at hlone
      simp only [setCells, List.map_cons, List.map_nil, Text.joinWith, readCells, hlone]
    | cons hnext hlater =>
      simp only [setCells, List.map_cons, Text.joinWith, readCells, hcell.unpad_take] at ih ⊢
      rw [hcell.drop_padRight, ih]

/-- A row gives back its cells, but for the spaces at their ends. -/
theorem readRow_row (h : layout.Fits cells) :
    layout.readRow (layout.row cells) = cells.map fun cell => Text.unpad cell.toList := by
  rw [readRow, toList_row, readCells_setCells h]

end Layout

/-! ## Lines -/

/-- The lines of an output, each of which ends with a line break. -/
def readLines (output : String) : List String :=
  (Text.splitAll '\n' output.toList).dropLast.map String.ofList

/-- An output is read back line by line, if no line is broken. -/
theorem readLines_print {lines : List String} (h : ∀ line ∈ lines, '\n' ∉ line.toList) :
    readLines (print lines) = lines := by
  have hcut : Text.Cut '\n' (print lines).toList (lines.map String.toList ++ [[]]) := by
    refine ⟨by simp, ?_, ?_⟩
    · rw [print]
      clear h
      induction lines with
      | nil => rfl
      | cons line rest ih =>
        cases hrest : rest.map String.toList ++ [[]] with
        | nil => simp at hrest
        | cons next later =>
          rw [hrest] at ih
          simp only [List.map_cons, List.cons_append, hrest, Text.joinWith, ih, String.join_cons]
          simp
    · exact List.forall_mem_append.2
        ⟨List.forall_mem_map.2 h, List.forall_mem_singleton.2 List.not_mem_nil⟩
  rw [readLines, Text.splitAll_eq_iff.2 hcut, List.dropLast_concat, List.map_map]
  simp

/-! ## Tables -/

/-- What an output shows of devices: a line of headings and a rule below it, then a row for each
of them in their order, and a footer. Headings and rows are as wide as the table, and cut where
the columns begin they give back their cells. -/
structure Legible (layout : Layout) (breadth ruled : Nat) (shown : Device → List String)
    (devices : List Device) (footer : List String) (output : String) (rows : List String) :
    Prop where
  /-- The output, line by line. -/
  lines : readLines output = layout.row (layout.columns.map Prod.snd) ::
    String.ofList (List.replicate ruled '-') :: (rows ++ footer)
  /-- The headings are as wide as the table. -/
  measure : (layout.row (layout.columns.map Prod.snd)).length = breadth
  /-- They stand above their columns. -/
  headings : layout.readRow (layout.row (layout.columns.map Prod.snd)) =
    layout.columns.map Prod.snd
  /-- Each device has its row, as wide as the table, from which its cells are read. -/
  rows : List.Forall₂ (fun device row => row.length = breadth ∧ layout.readRow row = shown device)
    devices rows

/-- A table is legible if its headings and all of its cells fit, and its footer is not broken. -/
theorem legible_print {layout : Layout} {cells shown : Device → List String}
    {devices : List Device} {footer : List String}
    (hheadings : layout.Fits (layout.columns.map Prod.snd))
    (hread : layout.readRow (layout.row (layout.columns.map Prod.snd)) =
      layout.columns.map Prod.snd)
    (hcells : ∀ device ∈ devices, layout.Fits (cells device))
    (hshown : ∀ device ∈ devices,
      ((cells device).map fun cell => Text.unpad cell.toList) = shown device)
    (hfooter : ∀ line ∈ footer, '\n' ∉ line.toList) :
    Legible layout (Layout.span (layout.columns.map Prod.fst)) layout.rule shown devices footer
      (print (layout.heading ++ devices.map (fun device => layout.row (cells device)) ++ footer))
      (devices.map fun device => layout.row (cells device)) := by
  refine ⟨readLines_print ?_, Layout.length_row hheadings, hread, ?_⟩
  · simp only [Layout.heading, List.forall_mem_append, List.forall_mem_cons,
      List.forall_mem_map, String.toList_ofList]
    refine ⟨⟨⟨Layout.unbroken_row hheadings, ?_, List.forall_mem_nil _⟩,
      fun device hdevice => Layout.unbroken_row (hcells device hdevice)⟩, hfooter⟩
    exact fun hmem => absurd (List.eq_of_mem_replicate hmem) (by decide)
  · rw [List.forall₂_map_right_iff, List.forall₂_same]
    intro device hdevice
    exact ⟨Layout.length_row (hcells device hdevice),
      (Layout.readRow_row (hcells device hdevice)).trans (hshown device hdevice)⟩

/-! ## Cells -/

/-- The serial of a probe has ten digits at most. -/
theorem length_serial (serial : Serial) : (toString serial.toNat).length ≤ 10 :=
  Nat.repr_length _ 10 (by decide) (Nat.lt_of_lt_of_le serial.toNat_lt (by decide))

/-- A serial is written without blanks and breaks. -/
theorem isAlphanum_serial (serial : Serial) :
    ∀ c ∈ (toString serial.toNat).toList, c.isAlphanum = true := by
  rw [Nat.toString_eq_ofList_toDigits, String.toList_ofList]
  exact (Number.writes_toDigits (by decide) (by decide) _).isAlphanum

theorem toList_marked (device : Device) :
    (marked device).toList =
      (toString device.serial.toNat).toList ++ if device.connected then [] else ['*'] := by
  rw [marked, String.toList_append]
  cases device.connected <;> rfl

/-- A serial with its star fits, and does not end in a space. -/
theorem fitsIn_marked (device : Device) :
    Text.FitsIn 12 (marked device) ∧ (marked device).toList.getLast? ≠ some ' ' := by
  have hserial := length_serial device.serial
  have hplain : ∀ c ∈ (marked device).toList, c.isAlphanum = true ∨ c = '*' := by
    rw [toList_marked]
    refine List.forall_mem_append.2 ⟨fun c hc => .inl (isAlphanum_serial _ c hc), ?_⟩
    cases device.connected
    · exact List.forall_mem_singleton.2 (.inr rfl)
    · exact List.forall_mem_nil _
  refine ⟨⟨?_, fun hmem => ?_⟩, fun hlast => ?_⟩
  · rw [← String.length_toList, toList_marked, List.length_append, String.length_toList]
    cases device.connected <;> simp only [Bool.false_eq_true, if_true, if_false,
      List.length_nil, List.length_singleton] <;> omega
  · exact absurd (hplain _ hmem) (by decide)
  · exact absurd (hplain _ (List.mem_of_getLast? hlast)) (by decide)

theorem fitsIn_serial (serial : Serial) :
    Text.FitsIn 12 (toString serial.toNat) ∧
      (toString serial.toNat).toList.getLast? ≠ some ' ' := by
  refine ⟨⟨Nat.le_trans (length_serial serial) (by decide), fun hmem => ?_⟩, fun hlast => ?_⟩
  · exact absurd (isAlphanum_serial serial _ hmem) (by decide)
  · exact absurd (isAlphanum_serial serial _ (List.mem_of_getLast? hlast)) (by decide)

theorem fitsIn_kind (kind : Kind) :
    Text.FitsIn 10 kind.name ∧ kind.name.toList.getLast? ≠ some ' ' := by
  cases kind <;> decide

theorem fitsIn_flag (flag : Flag) :
    Text.FitsIn 14 flag.text ∧ flag.text.toList.getLast? ≠ some ' ' := by
  cases flag <;> decide

/-! ## Both tables -/

/-- What the summary shows of a device, its channel without spaces at the end. -/
def summaryShown (device : Device) : List String :=
  [toString device.serial.toNat ++ (if device.connected then "" else "*"), device.kind.name,
    Text.unpad device.channel.toList, device.rebootOnly.text, device.appProgrammed.text,
    device.netProgrammed.text]

/-- What the listing shows of a device, its texts without spaces at the end. -/
def listingShown (device : Device) : List String :=
  [toString device.serial.toNat, device.kind.name, Text.unpad device.channel.toList,
    if device.connected then "yes" else "no", Text.unpad (device.appImage.getD "").toList,
    Text.unpad (device.netImage.getD "").toList]

/-- Every text of the device that the listing shows fits. -/
structure FitsListing (device : Device) : Prop where
  channel : Text.FitsIn 10 device.channel
  appImage : ∀ path ∈ device.appImage, Text.FitsIn 24 path
  netImage : ∀ path ∈ device.netImage, Text.FitsIn 24 path

theorem fits_summaryCells {device : Device} (h : Text.FitsIn 10 device.channel) :
    summaryLayout.Fits (summaryCells device) :=
  .cons (fitsIn_marked device).1 (.cons (fitsIn_kind device.kind).1 (.cons h
    (.cons (fitsIn_flag device.rebootOnly).1 (.cons (fitsIn_flag device.appProgrammed).1
      (.cons (fitsIn_flag device.netProgrammed).1 .nil)))))

theorem unpad_summaryCells (device : Device) :
    ((summaryCells device).map fun cell => Text.unpad cell.toList) = summaryShown device := by
  simp only [summaryCells, summaryShown, List.map_cons, List.map_nil,
    Text.unpad_of_last (fitsIn_marked device).2, Text.unpad_of_last (fitsIn_kind _).2,
    Text.unpad_of_last (fitsIn_flag _).2]
  rfl

/-- The word for whether a device is connected fits. -/
private theorem fitsIn_connected (connected : Bool) :
    Text.FitsIn 10 (if connected then "yes" else "no") ∧
      (if connected then "yes" else "no").toList.getLast? ≠ some ' ' := by
  cases connected <;> decide

/-- Where there is no image there is nothing to show. -/
private theorem fitsIn_getD {image : Option ImagePath} (h : ∀ path ∈ image, Text.FitsIn 24 path) :
    Text.FitsIn 24 (image.getD "") := by
  cases image with
  | none => decide
  | some path => exact h path rfl

theorem fits_listingCells {device : Device} (h : FitsListing device) :
    listingLayout.Fits (listingCells device) :=
  .cons (fitsIn_serial device.serial).1 (.cons (fitsIn_kind device.kind).1 (.cons h.channel
    (.cons (fitsIn_connected device.connected).1 (.cons (fitsIn_getD h.appImage)
      (.cons (fitsIn_getD h.netImage) .nil)))))

theorem unpad_listingCells (device : Device) :
    ((listingCells device).map fun cell => Text.unpad cell.toList) = listingShown device := by
  simp only [listingCells, listingShown, List.map_cons, List.map_nil,
    Text.unpad_of_last (fitsIn_serial _).2, Text.unpad_of_last (fitsIn_kind _).2,
    Text.unpad_of_last (fitsIn_connected _).2]

theorem fits_headings :
    summaryLayout.Fits (summaryLayout.columns.map Prod.snd) ∧
      listingLayout.Fits (listingLayout.columns.map Prod.snd) := by
  decide

/-- The headings of both tables fit, and are read back as they are. -/
theorem readRow_headings :
    summaryLayout.readRow (summaryLayout.row (summaryLayout.columns.map Prod.snd)) =
        summaryLayout.columns.map Prod.snd ∧
      listingLayout.readRow (listingLayout.row (listingLayout.columns.map Prod.snd)) =
        listingLayout.columns.map Prod.snd := by
  rw [Layout.readRow_row fits_headings.1, Layout.readRow_row fits_headings.2]
  decide +kernel

/-- The summary is legible if the channels fit. -/
theorem legible_summary {devices : List Device}
    (h : ∀ device ∈ devices, Text.FitsIn 10 device.channel) :
    Legible summaryLayout 79 79 summaryShown devices
      (if devices.any fun device => !device.connected then ["", "* not connected, skipped"]
        else [])
      (summary devices) (devices.map fun device => summaryLayout.row (summaryCells device)) := by
  refine legible_print fits_headings.1 readRow_headings.1
    (fun device hdevice => fits_summaryCells (h device hdevice))
    (fun device _ => unpad_summaryCells device) ?_
  split <;> decide

/-- The listing is legible if the channels and the paths fit. -/
theorem legible_listing {devices : List Device} (h : ∀ device ∈ devices, FitsListing device) :
    Legible listingLayout 95 94 listingShown devices
      ["", toString devices.length ++ " device(s)"] (listing devices)
      (devices.map fun device => listingLayout.row (listingCells device)) := by
  refine legible_print fits_headings.2 readRow_headings.2
    (fun device hdevice => fits_listingCells (h device hdevice))
    (fun device _ => unpad_listingCells device) ?_
  refine List.forall_mem_cons.2 ⟨by decide, List.forall_mem_singleton.2 fun hmem => ?_⟩
  rw [Nat.toString_eq_ofList_toDigits, String.toList_append, String.toList_ofList] at hmem
  rcases List.mem_append.1 hmem with hdigit | hword
  · exact absurd ((Number.writes_toDigits (by decide) (by decide) _).isAlphanum _ hdigit)
      (by decide)
  · exact absurd hword (by decide)

/-- No width is that of all lines of the listing: the rule is shorter than the headings. -/
theorem not_legible_listing {devices : List Device} (h : ∀ device ∈ devices, FitsListing device) :
    ¬ ∃ breadth rows, Legible listingLayout breadth breadth listingShown devices
      ["", toString devices.length ++ " device(s)"] (listing devices) rows := by
  rintro ⟨breadth, rows, haligned⟩
  have hlegible := legible_listing h
  have hbreadth : breadth = 95 := haligned.measure.symm.trans hlegible.measure
  have hlines := haligned.lines.symm.trans hlegible.lines
  have hrule := congrArg List.length
    (String.ofList_injective (List.cons.inj (List.cons.inj hlines).2).1)
  rw [List.length_replicate, List.length_replicate] at hrule
  omega

/-- Whatever devices are shown, if their channels fit, the lines of the summary are all of one
width, and the lines of the listing too if the paths of their images fit, except for the rule,
which is one dash short, so that no width is that of all lines. Below the rule stands a row for
each device in order, and what is cut from a row where the columns begin is what it shows, but
for spaces at the end of a text. -/
theorem tables_legible {devices : List Device}
    (h : ∀ device ∈ devices, Text.FitsIn 10 device.channel) :
    (∃ rows, Legible summaryLayout 79 79 summaryShown devices
      (if devices.any fun device => !device.connected then ["", "* not connected, skipped"]
        else []) (summary devices) rows) ∧
      ((∀ device ∈ devices, FitsListing device) →
        (∃ rows, Legible listingLayout 95 94 listingShown devices
          ["", toString devices.length ++ " device(s)"] (listing devices) rows) ∧
        ¬ ∃ breadth rows, Legible listingLayout breadth breadth listingShown devices
          ["", toString devices.length ++ " device(s)"] (listing devices) rows) ∧
      ∀ text : String, text.toList.getLast? ≠ some ' ' → Text.unpad text.toList = text :=
  ⟨⟨_, legible_summary h⟩, fun hlisting => ⟨⟨_, legible_listing hlisting⟩,
    not_legible_listing hlisting⟩, fun _ => Text.unpad_of_last⟩

/-- A headset and a gateway with texts as wide as they may be, one with spaces at its end. -/
def widestKits : List Device :=
  [{ serial := 4294967295, kind := .headset, channel := "left right", connected := false,
     rebootOnly := .done, appProgrammed := .failed },
   { serial := 1, kind := .gateway, appFile := some "build/gateway/firmwa.hex",
     netFile := some "build/gateway/network   " }]

theorem tables_legible_widestKits :
    widestKits.map summaryShown =
        [["4294967295*", "headset", "left right", "Selected done", "Selected ERR",
            "Not selected"],
          ["1", "gateway", "", "Not selected", "Not selected", "Not selected"]] ∧
      widestKits.map listingShown =
        [["4294967295", "headset", "left right", "no", "", ""],
          ["1", "gateway", "", "yes", "build/gateway/firmwa.hex", "build/gateway/network"]] ∧
      (∃ rows, Legible summaryLayout 79 79 summaryShown widestKits
        ["", "* not connected, skipped"] (summary widestKits) rows) ∧
      ∃ rows, Legible listingLayout 95 94 listingShown widestKits ["", "2 device(s)"]
        (listing widestKits) rows := by
  have hchannels : ∀ device ∈ widestKits, Text.FitsIn 10 device.channel := by decide
  have hlisting : ∀ device ∈ widestKits, FitsListing device :=
    List.forall_mem_cons.2 ⟨⟨by decide, nofun, nofun⟩, List.forall_mem_singleton.2
      ⟨by decide, by rintro _ ⟨⟩; decide, by rintro _ ⟨⟩; decide⟩⟩
  obtain ⟨hsummary, hlegible, -⟩ := tables_legible hchannels
  exact ⟨by decide +kernel, by decide +kernel, hsummary, (hlegible hlisting).1⟩

/-- The listing does not keep to one width, not even where no device is shown: its rule is
shorter than the headings above it. -/
theorem listing_misaligned :
    ¬ ∀ devices : List Device, (∀ device ∈ devices, FitsListing device) →
      ∃ breadth, ∀ line ∈ (readLines (listing devices)).take (devices.length + 2),
        line.length = breadth := by
  intro h
  obtain ⟨breadth, hbreadth⟩ := h [] (List.forall_mem_nil _)
  have hlegible := legible_listing (List.forall_mem_nil FitsListing)
  rw [hlegible.lines] at hbreadth
  obtain ⟨hheadings, hrest⟩ := List.forall_mem_cons.1 hbreadth
  have hrule := (List.forall_mem_cons.1 hrest).1
  rw [hlegible.measure] at hheadings
  rw [← String.length_toList, String.toList_ofList, List.length_replicate] at hrule
  omega

end Table

end FlashFleet
