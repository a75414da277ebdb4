import FlashFleet.Proofs.Listing
import Mathlib
/-!
# What becomes of a text

A text is refused when it is no document, when the document does not fit a device file, and
when the entries that it lists repeat a serial. The last is a question about numbers, after
the document was accepted: how a serial is written plays no part in it, and a document that
does not fit is refused as such, whatever it repeats. Else the devices are those of the
entries, in order.

## Main results

* `parse_of_fits` — what becomes of a document that lists entries.
* `parse_of_not_nodup` — entries that repeat a serial are refused for the earliest such.
* `parse_exact` — what becomes of every text.
-/

namespace FlashFleet.DeviceFile

/-! ## The three refusals -/

theorem parse_of_no_document {text : String} (h : Toml.parse? text = none) :
    parse text = .error .notDocument := by
  simp only [parse, h]

/-- A document that lists no entries is refused for the first thing that does not fit. -/
theorem parse_of_misfit {text : String} {document : Toml.Entries}
    (hdocument : Toml.parse? text = some document) (h : ∀ listed, ¬ Fits document listed) :
    ∃ cause, parse text = .error (.misfit cause) := by
  cases hentries : entries document with
  | error cause =>
    refine ⟨cause, ?_⟩
    simp only [parse, hdocument, hentries]
  | ok devices =>
    obtain ⟨listed, hfits, _⟩ :=
      (entries_eq_ok_iff (Toml.distinct_of_parse hdocument)).1 hentries
    exact absurd hfits (h listed)

/-- A document that lists entries is refused for a repeated serial, or read as their
devices. -/
theorem parse_of_fits {text : String} {document : Toml.Entries} {listed : List Entry}
    (hdocument : Toml.parse? text = some document) (hfits : Fits document listed) :
    parse text =
      match firstRepeated [] (listed.map Entry.serial) with
      | some serial => .error (.repeated serial)
      | none => .ok (listed.map Entry.device) := by
  have hentries : entries document = .ok (listed.map Entry.device) :=
    (entries_eq_ok_iff (Toml.distinct_of_parse hdocument)).2 ⟨listed, hfits, rfl⟩
  have hserials : (listed.map Entry.device).map Device.serial = listed.map Entry.serial := by
    rw [List.map_map]
    rfl
  cases hrepeated : firstRepeated [] (listed.map Entry.serial) with
  | none => simp only [parse, hdocument, hentries, hserials, hrepeated]
  | some serial => simp only [parse, hdocument, hentries, hserials, hrepeated]

/-- Entries of distinct probes are read as their devices. -/
theorem parse_of_nodup {text : String} {document : Toml.Entries} {listed : List Entry}
    (hdocument : Toml.parse? text = some document) (hfits : Fits document listed)
    (hnodup : (listed.map Entry.serial).Nodup) : parse text = .ok (listed.map Entry.device) := by
  have hnone : firstRepeated [] (listed.map Entry.serial) = none :=
    firstRepeated_eq_none_iff.2 ⟨hnodup, fun _ _ => List.not_mem_nil⟩
  rw [parse_of_fits hdocument hfits, hnone]

/-- Entries that repeat a serial are refused for the earliest whose serial came before. -/
theorem parse_of_not_nodup {text : String} {document : Toml.Entries} {listed : List Entry}
    (hdocument : Toml.parse? text = some document) (hfits : Fits document listed)
    (hrepeats : ¬ (listed.map Entry.serial).Nodup) :
    ∃ before entry after, listed = before ++ entry :: after ∧
      (before.map Entry.serial).Nodup ∧ entry.serial ∈ before.map Entry.serial ∧
      parse text = .error (.repeated entry.serial) := by
  cases hfirst : firstRepeated [] (listed.map Entry.serial) with
  | none => exact absurd (firstRepeated_eq_none_iff.1 hfirst).1 hrepeats
  | some serial =>
    obtain ⟨before, after, hsplit, hbefore, hnodup, _⟩ := firstRepeated_eq_some hfirst
    obtain ⟨earlier, rest, rfl, rfl, hrest⟩ := List.map_eq_append_iff.1 hsplit
    obtain ⟨entry, later, rfl, rfl, rfl⟩ := List.map_eq_cons_iff.1 hrest
    refine ⟨earlier, entry, later, rfl, hnodup, ?_, ?_⟩
    · exact hbefore.resolve_left List.not_mem_nil
    · rw [parse_of_fits hdocument hfits, hfirst]

/-! ## Every text -/

/-- What becomes of a text whose document lists the entries. -/
structure Judged (text : String) (listed : List Entry) : Prop where
  /-- The text is read exactly when the serials are distinct. -/
  accepted : (∃ devices, parse text = .ok devices) ↔ (listed.map Entry.serial).Nodup
  /-- Then there is one device for each entry, with what the entry says. -/
  devices : ∀ devices, parse text = .ok devices → List.Forall₂ Carries listed devices
  /-- Else the serial that is named is that of the earliest entry whose serial came before. -/
  repeated : ¬ (listed.map Entry.serial).Nodup → ∃ before entry after,
    listed = before ++ entry :: after ∧ (before.map Entry.serial).Nodup ∧
    entry.serial ∈ before.map Entry.serial ∧ parse text = .error (.repeated entry.serial) ∧
    (Error.repeated entry.serial).message =
      "Invalid device configuration: probe serial " ++ toString entry.serial.toNat ++
        " listed more than once"

/-- A text is judged by the entries that its document lists. Without a document it is refused
as none, and a document that lists no entries as a misfit, whatever serials stand in it. -/
theorem parse_exact (text : String) :
    (∀ document listed, Toml.parse? text = some document → Fits document listed →
      Judged text listed) ∧
    (Toml.parse? text = none → parse text = .error .notDocument) ∧
    ∀ document, Toml.parse? text = some document → (∀ listed, ¬ Fits document listed) →
      ∃ cause, parse text = .error (.misfit cause) := by
  refine ⟨fun document listed hdocument hfits => ?_, parse_of_no_document, fun document =>
    parse_of_misfit⟩
  have hrepeated := parse_of_not_nodup hdocument hfits
  have hnodup : ∀ devices, parse text = .ok devices → (listed.map Entry.serial).Nodup := by
    intro devices hparse
    by_contra hrepeats
    obtain ⟨_, _, _, _, _, _, hrefused⟩ := hrepeated hrepeats
    rw [hparse] at hrefused
    cases hrefused
  constructor
  · exact ⟨fun ⟨devices, hparse⟩ => hnodup devices hparse,
      fun hdistinct => ⟨_, parse_of_nodup hdocument hfits hdistinct⟩⟩
  · intro devices hparse
    rw [parse_of_nodup hdocument hfits (hnodup devices hparse)] at hparse
    rw [← Except.ok.inj hparse, List.forall₂_map_right_iff]
    exact List.forall₂_same.2 fun entry _ => carries_iff.2 rfl
  · intro hrepeats
    obtain ⟨before, entry, after, hsplit, hbefore, hmem, hrefused⟩ := hrepeated hrepeats
    exact ⟨before, entry, after, hsplit, hbefore, hmem, hrefused, rfl⟩

/-! ## Repetitions in other spellings -/

/-- Three kits, the second and the third with the probe of the first, which each spells in its
own way. -/
def repeatedText : String :=
  "[[device]]\nsnr = 16\nkind = \"gateway\"\n" ++
    "[[device]]\nkind = \"headset\"\nchannel = \"left\"\nsnr = \" 0x10\"\nconnected = false\n" ++
    "[[device]]\nsnr = \"+016\"\nkind = \"gateway\"\n"

/-- The document of the three kits. -/
def repeatedDocument : Toml.Entries :=
  [("device", .tables
    [[("snr", .integer 16), ("kind", .text "gateway")],
      [("kind", .text "headset"), ("channel", .text "left"), ("snr", .text " 0x10"),
        ("connected", .boolean false)],
      [("snr", .text "+016"), ("kind", .text "gateway")]])]

/-- The entries of the three kits. -/
def repeatedEntries : List Entry :=
  [⟨16, .gateway, none, none, none, none⟩,
    ⟨16, .headset, some "left", some false, none, none⟩,
    ⟨16, .gateway, none, none, none, none⟩]

set_option maxRecDepth 2000 in
theorem parse?_repeatedText : Toml.parse? repeatedText = some repeatedDocument := by cbv

theorem fits_repeated : Fits repeatedDocument repeatedEntries := by
  have hmarked : Serial.Spells " 0x10" 16 :=
    ⟨[' '], "0x10".toList, [], rfl, by decide, by decide,
      .hexadecimal (.inl rfl) (.plain ⟨nofun, rfl⟩)⟩
  have hsigned : Serial.Spells "+016" 16 :=
    ⟨[], "+016".toList, [], rfl, by decide, by decide, .decimal (.plus ⟨nofun, rfl⟩)⟩
  refine .device (.tables (.cons ?_ (.cons ?_ (.cons ?_ .nil))))
  · exact ⟨by decide, ⟨_, rfl, .integer 16⟩, ⟨_, rfl, .text .gateway⟩, rfl, rfl, rfl, rfl⟩
  · exact ⟨by decide, ⟨_, rfl, .text hmarked⟩, ⟨_, rfl, .text .headset⟩, rfl, rfl, rfl, rfl⟩
  · exact ⟨by decide, ⟨_, rfl, .text hsigned⟩, ⟨_, rfl, .text .gateway⟩, rfl, rfl, rfl, rfl⟩

/-- Two kits of one probe, whose kinds are missing. -/
def kindlessText : String := "[[device]]\nsnr = 1\n[[device]]\nsnr = 1\n"

def kindlessDocument : Toml.Entries :=
  [("device", .tables [[("snr", .integer 1)], [("snr", .integer 1)]])]

theorem not_fits_kindless (listed : List Entry) : ¬ Fits kindlessDocument listed := by
  intro h
  cases h with
  | device h =>
    cases h with
    | tables h =>
      obtain ⟨_, _, hfirst, _⟩ := List.forall₂_cons_left_iff.1 h
      obtain ⟨node, hkind, _⟩ := hfirst.kind
      cases hkind

/-- The repetition is found in spite of the spellings, but not before the misfit, and of what
is no document nothing is said but that. -/
theorem parse_exact_repeated :
    Toml.parse? repeatedText = some repeatedDocument ∧ Judged repeatedText repeatedEntries ∧
      parse repeatedText = .error (.repeated 16) ∧
      Toml.parse? kindlessText = some kindlessDocument ∧
      (∃ cause, parse kindlessText = .error (.misfit cause)) ∧
      Toml.parse? "[[device]" = none ∧ parse "[[device]" = .error .notDocument := by
  have hdocument := parse?_repeatedText
  have hkindless : Toml.parse? kindlessText = some kindlessDocument := by cbv
  have hnone : Toml.parse? "[[device]" = none := by cbv
  have hjudged := (parse_exact repeatedText).1 _ _ hdocument fits_repeated
  have hmisfit := (parse_exact kindlessText).2.2 _ hkindless not_fits_kindless
  refine ⟨hdocument, hjudged, ?_, hkindless, hmisfit, hnone, (parse_exact _).2.1 hnone⟩
  obtain ⟨before, entry, after, hsplit, _, hmem, hrefused, _⟩ := hjudged.repeated (by decide)
  have hserials : ∀ entry ∈ repeatedEntries, entry.serial = 16 := by decide
  rw [hrefused, hserials entry (hsplit ▸ by simp)]

end FlashFleet.DeviceFile
