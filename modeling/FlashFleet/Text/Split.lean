/-!
# Splitting text at separators

Two readings of a separator character, both on lists of characters:

* `splitFirst` cuts at the first separator and fails where there is none;
* `splitAll` cuts at every separator, so `n` separators give `n + 1` pieces.

`joinWith` writes pieces back with one separator between neighbours.

## Main results

* `splitFirst_eq_some` — a successful cut puts the text back together and
  leaves no separator in its first part.
* `splitFirst_eq_none_iff` — a cut fails exactly on text without separator.
* `joinWith_splitAll` — joining what was split is the text itself.
* `splitAll_ne_nil` — there is always at least one piece.
-/

namespace FlashFleet.Text

/-! ## Cutting at the first separator -/

/-- The text before and the text after the first `sep`. -/
def splitFirst (sep : Char) : List Char → Option (List Char × List Char)
  | [] => none
  | c :: rest =>
    if c = sep then some ([], rest)
    else (splitFirst sep rest).map fun parts => (c :: parts.1, parts.2)

/-- A cut loses nothing but the separator, and the first part holds none. -/
theorem splitFirst_eq_some {sep : Char} {text before after : List Char}
    (h : splitFirst sep text = some (before, after)) :
    text = before ++ sep :: after ∧ sep ∉ before := by
  induction text generalizing before after with
  | nil => simp [splitFirst] at h
  | cons c rest ih =>
    by_cases hc : c = sep
    · simp only [splitFirst, hc, if_true, Option.some.injEq, Prod.mk.injEq] at h
      obtain ⟨rfl, rfl⟩ := h
      simp [hc]
    · simp only [splitFirst, hc, if_false, Option.map_eq_some_iff, Prod.mk.injEq] at h
      obtain ⟨⟨b, a⟩, hcut, rfl, rfl⟩ := h
      obtain ⟨hrest, hmem⟩ := ih hcut
      exact ⟨by simp [hrest], by simp [hmem, Ne.symm hc]⟩

/-- Only text without separator cannot be cut. -/
theorem splitFirst_eq_none_iff {sep : Char} {text : List Char} :
    splitFirst sep text = none ↔ sep ∉ text := by
  induction text with
  | nil => simp [splitFirst]
  | cons c rest ih =>
    by_cases hc : c = sep
    · simp [splitFirst, hc]
    · simp [splitFirst, hc, ih, Ne.symm hc]

/-- A first part without separator is found again. -/
theorem splitFirst_append {sep : Char} {before : List Char} (h : sep ∉ before)
    (after : List Char) : splitFirst sep (before ++ sep :: after) = some (before, after) := by
  induction before with
  | nil => simp [splitFirst]
  | cons c rest ih =>
    simp only [List.mem_cons, not_or] at h
    simp [splitFirst, Ne.symm h.1, ih h.2]

/-! ## Cutting at every separator -/

/-- The pieces between the separators, in order. -/
def splitAll (sep : Char) : List Char → List (List Char)
  | [] => [[]]
  | c :: rest =>
    if c = sep then [] :: splitAll sep rest
    else
      match splitAll sep rest with
      | [] => [[c]]
      | piece :: pieces => (c :: piece) :: pieces

/-- The pieces with one separator between neighbours. -/
def joinWith (sep : Char) : List (List Char) → List Char
  | [] => []
  | [piece] => piece
  | piece :: pieces => piece ++ sep :: joinWith sep pieces

/-- There is always a piece, if only the empty one. -/
theorem splitAll_ne_nil (sep : Char) (text : List Char) : splitAll sep text ≠ [] := by
  cases text with
  | nil => simp [splitAll]
  | cons c rest =>
    by_cases hc : c = sep
    · simp [splitAll, hc]
    · cases h : splitAll sep rest with
      | nil => simp [splitAll, hc, h]
      | cons piece pieces => simp [splitAll, hc, h]

/-- Splitting loses nothing. -/
theorem joinWith_splitAll (sep : Char) (text : List Char) :
    joinWith sep (splitAll sep text) = text := by
  induction text with
  | nil => simp [splitAll, joinWith]
  | cons c rest ih =>
    by_cases hc : c = sep
    · cases h : splitAll sep rest with
      | nil => exact absurd h (splitAll_ne_nil sep rest)
      | cons piece pieces =>
        rw [h] at ih
        simp [splitAll, hc, h, joinWith, ih]
    · cases h : splitAll sep rest with
      | nil => exact absurd h (splitAll_ne_nil sep rest)
      | cons piece pieces =>
        rw [h] at ih
        cases pieces with
        | nil =>
          simp only [joinWith] at ih
          simp [splitAll, hc, h, joinWith, ih]
        | cons next others =>
          simp only [joinWith] at ih
          simp [splitAll, hc, h, joinWith, ih]

end FlashFleet.Text
