import FlashFleet.Device
import FlashFleet.Text.Column
/-!
# Tables of devices

Two tables show a fleet: the summary tells what became of each device, and the
listing what the device file says about it. Cells are set on the left of
columns of fixed widths with one space between neighbours; a rule of dashes
stands under the headings.
-/

namespace FlashFleet.Table

/-- The layout of a table: the widths and headings of its columns, and the
length of the rule. -/
structure Layout where
  columns : List (Nat × String)
  rule : Nat
  deriving DecidableEq, Repr

namespace Layout

/-- Cells set in columns of the given widths. -/
def setCells : List Nat → List String → List String
  | width :: widths, cell :: cells => Text.padRight width cell :: setCells widths cells
  | _, _ => []

/-- The line of a row. -/
def row (layout : Layout) (cells : List String) : String :=
  String.intercalate " " (setCells (layout.columns.map Prod.fst) cells)

/-- The line of headings and the rule under it. -/
def heading (layout : Layout) : List String :=
  [layout.row (layout.columns.map Prod.snd), String.ofList (List.replicate layout.rule '-')]

end Layout

/-- Lines as they are printed, each with a line break. -/
def print (lines : List String) : String := String.join (lines.map (· ++ "\n"))

/-! ## The summary -/

/-- The layout of the summary. -/
def summaryLayout : Layout where
  columns :=
    [(12, "snr"), (10, "device"), (10, "channel"), (14, "only reboot"), (14, "core app"),
      (14, "core net")]
  rule := 79

/-- The serial with a star on a device that is not connected. -/
def marked (device : Device) : String :=
  toString device.serial.toNat ++ if device.connected then "" else "*"

/-- The cells of a device in the summary. -/
def summaryCells (device : Device) : List String :=
  [marked device, device.kind.name, device.channel, device.rebootOnly.text,
    device.appProgrammed.text, device.netProgrammed.text]

/-- The lines of the summary. The star is explained where it occurs. -/
def summaryLines (devices : List Device) : List String :=
  summaryLayout.heading ++ devices.map (fun device => summaryLayout.row (summaryCells device)) ++
    if devices.any fun device => !device.connected then ["", "* not connected, skipped"] else []

/-- The summary as it is printed. -/
def summary (devices : List Device) : String := print (summaryLines devices)

/-! ## The listing -/

/-- The layout of the listing. -/
def listingLayout : Layout where
  columns :=
    [(12, "snr"), (10, "device"), (10, "channel"), (10, "connected"), (24, "app hex"),
      (24, "net hex")]
  rule := 94

/-- The cells of a device in the listing. -/
def listingCells (device : Device) : List String :=
  [toString device.serial.toNat, device.kind.name, device.channel,
    if device.connected then "yes" else "no", device.appImage.getD "", device.netImage.getD ""]

/-- The lines of the listing, with the number of devices at the end. -/
def listingLines (devices : List Device) : List String :=
  listingLayout.heading ++ devices.map (fun device => listingLayout.row (listingCells device)) ++
    ["", toString devices.length ++ " device(s)"]

/-- The listing as it is printed. -/
def listing (devices : List Device) : String := print (listingLines devices)

end FlashFleet.Table
