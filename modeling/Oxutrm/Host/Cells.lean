import Oxutrm.Paint.Rows

/-!
What the host makes of the cells of its emulator. Both kinds of spacer become an empty
right half: the one behind a wide glyph, and the placeholder that fills the last column
where a wide glyph did not fit.
-/
namespace Oxutrm.Host
open Proto
open Paint (Attrs.bold Attrs.italic Attrs.underline Attrs.inverse Attrs.blink Attrs.strike Attrs.dim
  Attrs.hidden Attrs.wideCont isCont isWideLead contAt leadAt Formed Measure)

/-- The flags of a cell of the emulator, all underline styles as one. -/
structure Flags where
  bold : Bool := false
  italic : Bool := false
  inverse : Bool := false
  dim : Bool := false
  hidden : Bool := false
  strikeout : Bool := false
  underlined : Bool := false
  wideChar : Bool := false
  wideCharSpacer : Bool := false
  leadingWideCharSpacer : Bool := false
  deriving DecidableEq, Repr

/-- A cell of the emulator, with the combining marks that hang off its character. -/
structure VteCell (κ : Type) where
  c : Char
  zerowidth : List Char
  fg : κ
  bg : κ
  flags : Flags
  deriving DecidableEq, Repr

/-- `fit`: drop the controls, then stop at the last character that fits. -/
def fitLoop (max : Nat) (out : Text) : Text → Text
  | [] => out
  | c :: rest =>
      if isControlScalar c then fitLoop max out rest
      else if out.len + Text.len [c] > max then out
      else fitLoop max (out ++ [c]) rest

def fitCellText (text : Text) : Text :=
  if checkCellText text = .ok () then text else fitLoop maxCellText [] text

/-- The marks are stacked in order, up to the cap. -/
def stackMarks (text : Text) : List Char → Text
  | [] => text
  | m :: marks =>
      if isControlScalar m ∨ text.len + Text.len [m] > maxCellText then text
      else stackMarks (text ++ [m]) marks

variable {κ : Type}

namespace VteCell

/-- A cell that shows nothing of its own. -/
def isSpacer (cell : VteCell κ) : Bool :=
  cell.flags.wideCharSpacer || cell.flags.leadingWideCharSpacer

/-- A control base is a blank, never nothing. -/
def cellText (cell : VteCell κ) : Text :=
  if cell.isSpacer then []
  else
    let base := if isControlScalar cell.c then ' ' else cell.c
    fitCellText (stackMarks [base] cell.zerowidth)

end VteCell

/-- An attribute that is set if the flag is. -/
def attr (on : Bool) (mask : Attrs) : Attrs := if on then mask else 0

def attrsOf (flags : Flags) : Attrs :=
  attr flags.bold Attrs.bold ||| attr flags.italic Attrs.italic |||
    attr flags.inverse Attrs.inverse ||| attr flags.dim Attrs.dim |||
    attr flags.hidden Attrs.hidden ||| attr flags.strikeout Attrs.strike |||
    attr flags.underlined Attrs.underline |||
    attr (flags.wideCharSpacer || flags.leadingWideCharSpacer) Attrs.wideCont

/-- Colours are resolved, and the blink plane consulted, elsewhere. -/
def convertCell (toProtoColor : κ → Color) (blinking : Bool) (cell : VteCell κ) : Cell where
  text := cell.cellText
  fg := toProtoColor cell.fg
  bg := toProtoColor cell.bg
  attrs := attrsOf cell.flags ||| attr blinking Attrs.blink
  link := 0

theorem or_and (a b mask : Attrs) : (a ||| b) &&& mask = (a &&& mask) ||| (b &&& mask) :=
  UInt16.toBitVec_inj.mp BitVec.and_or_distrib_right

theorem attr_and (on : Bool) {mask other : Attrs} (apart : mask &&& other = 0) :
    attr on mask &&& other = 0 := by
  cases on with
  | true => exact apart
  | false => exact UInt16.zero_and

theorem attrs_wideCont (flags : Flags) (blinking : Bool) :
    (attrsOf flags ||| attr blinking Attrs.blink) &&& Attrs.wideCont =
      attr (flags.wideCharSpacer || flags.leadingWideCharSpacer) Attrs.wideCont := by
  have own : ∀ on, attr on Attrs.wideCont &&& Attrs.wideCont = attr on Attrs.wideCont := fun on => by
    cases on with
    | true => rfl
    | false => rfl
  simp only [attrsOf, or_and, own, attr_and _ (show Attrs.bold &&& Attrs.wideCont = 0 by decide),
    attr_and _ (show Attrs.italic &&& Attrs.wideCont = 0 by decide),
    attr_and _ (show Attrs.inverse &&& Attrs.wideCont = 0 by decide),
    attr_and _ (show Attrs.dim &&& Attrs.wideCont = 0 by decide),
    attr_and _ (show Attrs.hidden &&& Attrs.wideCont = 0 by decide),
    attr_and _ (show Attrs.strike &&& Attrs.wideCont = 0 by decide),
    attr_and _ (show Attrs.underline &&& Attrs.wideCont = 0 by decide),
    attr_and _ (show Attrs.blink &&& Attrs.wideCont = 0 by decide), UInt16.zero_or, UInt16.or_zero]

theorem isCont_convertCell (toProtoColor : κ → Color) (blinking : Bool) (cell : VteCell κ)
    (id : UInt16) :
    isCont { convertCell toProtoColor blinking cell with link := id } = cell.isSpacer := by
  rw [isCont, Paint.contains, convertCell, attrs_wideCont, VteCell.isSpacer]
  cases cell.flags.wideCharSpacer || cell.flags.leadingWideCharSpacer with
  | true => rfl
  | false => rfl

/-- A line of the emulator. A spacer stands behind every wide glyph and nowhere else, a
placeholder only in the last column, and a text has the columns the emulator gave it. -/
structure Laid (width : Text → Nat) (strip : List (VteCell κ)) : Prop where
  first : (strip[0]?).any (·.flags.wideCharSpacer) = false
  pairs : ∀ col : Nat, (strip[col + 1]?).any (·.flags.wideCharSpacer) = (strip[col]?).any (·.flags.wideChar)
  last : ∀ col : Nat, (strip[col]?).any (·.flags.leadingWideCharSpacer) = true → col + 1 = strip.length
  apart : ∀ cell ∈ strip, cell.flags.leadingWideCharSpacer = true → cell.flags.wideCharSpacer = false
  bare : ∀ cell ∈ strip, cell.isSpacer = true → cell.flags.wideChar = false
  columns : ∀ cell ∈ strip, cell.isSpacer = false →
    width cell.cellText = if cell.flags.wideChar then 2 else 1

/-- What the emulator shows. -/
structure Grid (κ : Type) (width : Text → Nat) where
  rows : UInt16
  cols : UInt16
  cells : List (VteCell κ)
  filled : cells.length = rows.toNat * cols.toNat
  laid : ∀ row < rows.toNat, Laid width ((cells.drop (row * cols.toNat)).take cols.toNat)

namespace Grid
variable {width : Text → Nat}

def strip (g : Grid κ width) (row : Nat) : List (VteCell κ) :=
  (g.cells.drop (row * g.cols.toNat)).take g.cols.toNat

/-- The cell in the last column of a row. -/
def edge (g : Grid κ width) (row : Nat) : Option (VteCell κ) := (g.strip row)[g.cols.toNat - 1]?

/-- A wide glyph did not fit in this row. -/
def placeholder (g : Grid κ width) (row : Nat) : Bool :=
  (g.edge row).any (·.flags.leadingWideCharSpacer)

end Grid

/-- Cells that were converted, whatever blinks and whatever links they were given. -/
def Converted (toProtoColor : κ → Color) : List (VteCell κ) → List Cell → Prop :=
  List.Forall₂ fun vte cell =>
    ∃ blinking id, cell = { convertCell toProtoColor blinking vte with link := id }

/-- A screen that was made of what the emulator shows. -/
structure Shows {width : Text → Nat} (toProtoColor : κ → Color) (g : Grid κ width)
    (s : ScreenState) : Prop where
  rows : s.rows = g.rows
  cols : s.cols = g.cols
  cells : Converted toProtoColor g.cells s.cells

section
variable {width : Text → Nat} {toProtoColor : κ → Color} {strip : List (VteCell κ)}
  {desired : List Cell}

theorem Converted.take (converted : Converted toProtoColor strip desired) (n : Nat) :
    Converted toProtoColor (strip.take n) (desired.take n) := List.forall₂_take n converted

theorem Converted.drop (converted : Converted toProtoColor strip desired) (n : Nat) :
    Converted toProtoColor (strip.drop n) (desired.drop n) := List.forall₂_drop n converted

theorem Converted.at (converted : Converted toProtoColor strip desired) (col : Nat) :
    (strip[col]? = none ∧ desired[col]? = none) ∨
      ∃ vte blinking id, strip[col]? = some vte ∧
        desired[col]? = some { convertCell toProtoColor blinking vte with link := id } := by
  induction converted generalizing col with
  | nil => exact Or.inl ⟨rfl, rfl⟩
  | cons one _ ih =>
      cases col with
      | zero =>
          obtain ⟨blinking, id, made⟩ := one
          exact Or.inr ⟨_, blinking, id, rfl, by rw [made]; rfl⟩
      | succ col => exact ih col

theorem Converted.contAt (converted : Converted toProtoColor strip desired) (col : Nat) :
    contAt desired col = (strip[col]?).any VteCell.isSpacer := by
  rcases converted.at col with ⟨none, none'⟩ | ⟨vte, blinking, id, found, made⟩
  · simp only [Paint.contAt, none, none', Option.any_none]
  · simp only [Paint.contAt, found, made, Option.any_some, isCont_convertCell]

theorem Converted.leadAt (converted : Converted toProtoColor strip desired)
    (laid : Laid width strip) (col : Nat) :
    leadAt width desired col = (strip[col]?).any (·.flags.wideChar) := by
  rcases converted.at col with ⟨none, none'⟩ | ⟨vte, blinking, id, found, made⟩
  · simp only [Paint.leadAt, none, none', Option.any_none]
  · have member := List.mem_of_getElem? found
    simp only [Paint.leadAt, found, made, Option.any_some, isWideLead, isCont_convertCell]
    cases spacer : vte.isSpacer with
    | true => rw [laid.bare vte member spacer, Bool.not_true, Bool.false_and]
    | false =>
        change (true && (width vte.cellText == 2)) = vte.flags.wideChar
        rw [laid.columns vte member spacer]
        cases vte.flags.wideChar with
        | true => rfl
        | false => rfl

/-- Without a placeholder every right half stands behind its left half. -/
theorem Laid.formed (laid : Laid width strip) (converted : Converted toProtoColor strip desired)
    (whole : ∀ col : Nat, (strip[col]?).any (·.flags.leadingWideCharSpacer) = false) :
    Formed width desired := by
  have spacers : ∀ col : Nat, (strip[col]?).any VteCell.isSpacer =
      (strip[col]?).any (·.flags.wideCharSpacer) := by
    intro col
    have none := whole col
    cases found : strip[col]? with
    | none => rfl
    | some vte =>
        rw [found, Option.any_some] at none
        rw [Option.any_some, Option.any_some, VteCell.isSpacer, none, Bool.or_false]
  refine ⟨?_, fun col => ?_, fun cell member plain => ?_⟩
  · rw [converted.contAt, spacers]
    exact laid.first
  · rw [converted.contAt, spacers, converted.leadAt laid]
    exact laid.pairs col
  · obtain ⟨col, found⟩ := List.mem_iff_getElem?.mp member
    rcases converted.at col with ⟨-, none⟩ | ⟨vte, blinking, id, place, made⟩
    · rw [none] at found
      cases found
    · rw [made] at found
      cases found
      rw [isCont_convertCell] at plain
      have columns := laid.columns vte (List.mem_of_getElem? place) plain
      change width vte.cellText ≤ 2
      rw [columns]
      split
      · exact Nat.le_refl 2
      · exact Nat.le_succ 1

theorem Laid.before_placeholder (laid : Laid width strip) {L : Nat}
    (ends : (strip[L]?).any (·.flags.leadingWideCharSpacer) = true) :
    Laid width (strip.take L) ∧
      ∀ col : Nat, ((strip.take L)[col]?).any (·.flags.leadingWideCharSpacer) = false := by
  have length := laid.last L ends
  have below : ∀ {col : Nat}, col < L → (strip.take L)[col]? = strip[col]? := fun inside => by
    rw [List.getElem?_take, if_pos inside]
  have above : ∀ {col : Nat}, L ≤ col → (strip.take L)[col]? = none := fun outside => by
    rw [List.getElem?_take, if_neg (by omega)]
  have alone : (strip[L]?).any (·.flags.wideCharSpacer) = false := by
    cases found : strip[L]? with
    | none => rfl
    | some vte =>
        rw [found, Option.any_some] at ends
        exact laid.apart vte (List.mem_of_getElem? found) ends
  have none : ∀ col : Nat, ((strip.take L)[col]?).any (·.flags.leadingWideCharSpacer) = false := by
    intro col
    by_cases inside : col < L
    · rw [below inside, ← Bool.not_eq_true]
      intro here
      have := laid.last col here
      omega
    · rw [above (by omega), Option.any_none]
  refine ⟨⟨?_, fun col => ?_, fun col here => ?_, fun cell member => ?_, fun cell member => ?_,
    fun cell member => ?_⟩, none⟩
  · by_cases inside : 0 < L
    · rw [below inside]
      exact laid.first
    · rw [above (by omega), Option.any_none]
  · by_cases inside : col + 1 < L
    · rw [below inside, below (show col < L by omega)]
      exact laid.pairs col
    · rw [above (by omega), Option.any_none]
      by_cases edge : col < L
      · rw [below edge, ← laid.pairs, show col + 1 = L by omega, alone]
      · rw [above (by omega), Option.any_none]
  · rw [none col] at here
    cases here
  · exact laid.apart cell (List.mem_of_mem_take member)
  · exact laid.bare cell (List.mem_of_mem_take member)
  · exact laid.columns cell (List.mem_of_mem_take member)

end
end Oxutrm.Host
