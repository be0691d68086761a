import Oxutrm.Popup.Config

/-!
Whichever view the popup shows fits the screen: nothing underflows, nothing is drawn outside,
the key bar keeps its row and the list the row of the cursor.
-/
namespace Oxutrm

/-- What the popup shows. -/
inductive Popup where
  | status (v : Popup.PopupView)
  | config (v : Popup.ConfigView)
  | sessions (v : Popup.SessionsView)

namespace Popup
open Proto Drawing Checked
open Paint (Overlay)

def title : Popup → Text
  | .status v => v.title
  | .config v => v.title
  | .sessions v => v.title

/-- A screen that is previewed has been checked. -/
def Validates : Popup → Prop
  | .status _ => True
  | .config _ => True
  | .sessions v => ∀ s, v.preview = some (.screen s) → s.validate = .ok ()

section Views
variable (kit : Toolkit)

/-- Lay out whichever view the popup shows. -/
def layout (p : Popup) (size : TermSize) : Option Overlay :=
  match p with
  | .status v => layoutPopup kit v size
  | .config v => layoutConfig kit v size
  | .sessions v => layoutSessions kit v size

def keyBar (p : Popup) (cols : Nat) : Line :=
  match p with
  | .status v => keyLine v.keys
  | .config v => keyLine v.keys
  | .sessions v => fittedKeyLine kit v.keys (cols - frameCols)

/-- Where there is a row of room for the list, the overlay has the row of the cursor. -/
def CursorListed (p : Popup) (size : TermSize) (o : Overlay) : Prop :=
  match p with
  | .status _ => True
  | .config v => ∃ list, configList kit v size = some list ∧
      ∀ line, selectedLine kit v list.width = some line → 1 ≤ list.height → Listed kit list line o
  | .sessions v => ∃ plan list, sessionsList kit v size = some (plan, list) ∧
      (1 ≤ list.height → Listed kit list (cursorLine kit v plan.columns) o)

end Views

theorem every_popup_fits {kit : Toolkit} (lawful : kit.Lawful) (p : Popup) (size : TermSize) (valid : p.Validates)
    (cols : 1 ≤ size.cols) (rows : 1 ≤ size.rows) : ∃ o, layout kit p size = some o ∧ Inside size o ∧
      (¬ tooSmall size → Barred kit p.title (keyBar kit p o.cols.toNat) o ∧ CursorListed kit p size o) := by
  have cols := UInt16.le_iff_toNat_le.mp cols
  have rows := UInt16.le_iff_toNat_le.mp rows
  cases p with
  | status v =>
      obtain ⟨o, laid, inside, bar⟩ := runs_layoutPopup lawful v cols rows
      exact ⟨o, laid, inside, fun box => ⟨bar box, trivial⟩⟩
  | config v =>
      obtain ⟨o, laid, inside, shown⟩ := runs_layoutConfig lawful v cols rows
      exact ⟨o, laid, inside, shown⟩
  | sessions v =>
      have valid : ∀ s, v.preview = some (.screen s) → s.Valid := fun s shown =>
        (ScreenState.validate_ok s).mp (valid s shown)
      obtain ⟨o, laid, inside, shown⟩ := runs_layoutSessions lawful v valid cols rows
      exact ⟨o, laid, inside, shown⟩

section Plain

instance (area : Rect) (x y : Nat) : Decidable (inArea area x y) := inferInstanceAs (Decidable (_ ∧ _ ∧ _ ∧ _))

/-- The characters of a line, each as it is drawn. -/
def styledChars (line : Line) : List (Char × Style) := line.flatMap fun span => span.text.map (·, span.style)

def styled (style : Style) (text : Char) (c : Symbol) : Symbol where
  symbol := [text]
  fg := style.fg.getD c.fg
  bg := c.bg
  modifier := { c.modifier with
    bold := c.modifier.bold || style.modifier.bold
    dim := c.modifier.dim || style.modifier.dim
    reversed := c.modifier.reversed || style.modifier.reversed }

def borderChar (area : Rect) (i j : Nat) : Option Char :=
  let lastColumn := decide (i + 1 = area.width)
  let lastRow := decide (j + 1 = area.height)
  if i = 0 then some (if j = 0 then '\u256d' else if lastRow then '\u2570' else '\u2502')
  else if lastColumn then some (if j = 0 then '\u256e' else if lastRow then '\u256f' else '\u2502')
  else if j = 0 ∨ lastRow then some '\u2500'
  else none

/-- What is drawn of texts whose every character has one column, on lines that need no
wrapping. -/
def plainCell (w : Widget) (area : Rect) (i j : Nat) (c : Symbol) : Symbol :=
  match w with
  | .block title =>
      match if j = 0 ∧ 0 < i ∧ i + 1 < area.width then (title[i - 1]?).or (borderChar area i j)
        else borderChar area i j with
      | some text => styled {} text c
      | none => c
  | .paragraph p =>
      let line := styledChars ((p.lines[j]?).getD [])
      let start := if p.centered then (area.width - line.length) / 2 else 0
      if i < start then c
      else
        match (line.drop (i - start)).head? with
        | some (text, style) => styled style text c
        | none => c
  | .sparkline _ _ => c

def plainKit : Toolkit where
  render w area buf :=
    { buf with cell := fun x y =>
        if inArea area x y then plainCell w area (x - area.x) (y - area.y) (buf.cell x y) else buf.cell x y }
  setStringn buf x y text maxWidth :=
    { buf with cell := fun i j =>
        if inArea ⟨x, y, maxWidth, 1⟩ i j then
          match text[i - x]? with
          | some c => styled {} c (buf.cell i j)
          | none => buf.cell i j
        else buf.cell i j }
  inner area := ⟨area.x + 2, area.y + 1, area.width - 4, area.height - 2⟩
  lineWidth line := (styledChars line).length
  cells text := text.length
  charWidth c := if Ui.isControl c then none else some 1

theorem plainKit_lawful : plainKit.Lawful where
  size _ _ _ := ⟨rfl, rfl⟩
  inside _ _ _ _ _ outside := if_neg outside
  string_size _ _ _ _ _ := ⟨rfl, rfl⟩
  string_inside _ _ _ _ _ _ _ outside := if_neg outside
  inner _ _ _ := rfl
  rows p width few many x y le column row := by
    have less : inArea ⟨0, 0, width, few⟩ x y :=
      ⟨Nat.zero_le _, by dsimp only; omega, Nat.zero_le _, by dsimp only; omega⟩
    have more : inArea ⟨0, 0, width, many⟩ x y :=
      ⟨Nat.zero_le _, by dsimp only; omega, Nat.zero_le _, by dsimp only; omega⟩
    simp only [plainKit, if_pos less, if_pos more, plainCell, emptyBuffer]

/-- Two sessions, the second with the cursor and a preview. -/
def twoSessions : SessionsView where
  title := "sessions".toList
  header := []
  rows :=
    [{ name := "main".toList, shell := "zsh".toList, started := "10:00".toList, size := "80x24".toList
       mark := "this".toList, dimmed := false, field := false },
     { name := "build".toList, shell := "bash".toList, started := "09:30".toList, size := "80x24".toList
       mark := [], dimmed := false, field := false }]
  newRow := "+ new session".toList
  cursor := 1
  line := []
  question := false
  keys := [{ key := ['q'], label := "back".toList, enabled := true }]
  small := "sessions".toList
  preview := some (.screen (ScreenState.blankState 4 40))

theorem twoSessions_fit : ∃ o, layout plainKit (.sessions twoSessions) ⟨80, 24⟩ = some o ∧ Inside ⟨80, 24⟩ o ∧
    (¬ tooSmall ⟨80, 24⟩ →
      Barred plainKit twoSessions.title (keyBar plainKit (.sessions twoSessions) o.cols.toNat) o ∧
        CursorListed plainKit (.sessions twoSessions) ⟨80, 24⟩ o) :=
  every_popup_fits plainKit_lawful (.sessions twoSessions) ⟨80, 24⟩
    (fun s shown => by
      cases shown
      exact (ScreenState.validate_ok _).mpr (ScreenState.blankState_valid (by decide)))
    (by decide) (by decide)

end Plain
end Popup
end Oxutrm
