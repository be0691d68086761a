import Oxutrm.Paint.Color
import Oxutrm.Proto.Screen
import Oxutrm.Vt.Terminal

/-!
The renderer: what the terminal is believed to show, and the commands that make it
show a screen. A pass computes everything before the write; the model is committed
only when the write has completed. How many columns a text occupies is a parameter.
-/
namespace Oxutrm.Paint
open Proto
open Vt (Command)

/-- The right-hand half of a double-width character. -/
def isCont (cell : Cell) : Bool := contains cell.attrs Attrs.wideCont

/-- A rectangle of locally drawn cells, and where it sits on the screen. -/
structure Overlay where
  row : UInt16
  col : UInt16
  rows : UInt16
  cols : UInt16
  cells : List Cell
  filled : cells.length = rows.toNat * cols.toNat

/-- What the terminal is believed to be showing. -/
structure Painted where
  cells : List Cell
  cursor : Cursor
  modes : Modes
  title : Text
  bell : UInt32
  links : Links

structure Renderer where
  size : TermSize
  caps : TerminalCaps
  painted : Option Painted
  overlay : Option Overlay
  hyperlinks : Bool
  linkMayBeOpen : Bool

section
variable (width : Text → Nat)

/-- The left half of a double-width glyph, measured from its text. -/
def isWideLead (cell : Cell) : Bool := !isCont cell && width cell.text == 2

/-- The repair of one column: half a pair becomes a blank and keeps its colours. -/
def repairCell (cols base : Nat) (cells : List Cell) (c : Nat) : List Cell :=
  match cells[base + c]? with
  | none => cells
  | some cell =>
      let broken :=
        if isCont cell then c == 0 || !((cells[base + c - 1]?).any (isWideLead width))
        else isWideLead width cell && (decide (c + 1 ≥ cols) || !((cells[base + c + 1]?).any isCont))
      if broken then cells.set (base + c) { cell with text := [' '], attrs := 0 } else cells

def repairWidePairs (cells : List Cell) (cols row : Nat) : List Cell :=
  (List.range cols).foldl (repairCell width cols (row * cols)) cells

def saturatingAdd (a b : Nat) : Nat := min (a + b) 65535

/-- One cell of the overlay, without a link of its own. -/
def stampCell (o : Overlay) (cols r screenRow : Nat) (cells : List Cell) (c : Nat) : List Cell :=
  match o.cells[r * o.cols.toNat + c]? with
  | none => cells
  | some cell =>
      cells.set (screenRow * cols + saturatingAdd o.col.toNat c) { cell with link := 0 }

/-- One row of the overlay, clipped at the right edge and repaired. -/
def stampRow (o : Overlay) (cols : Nat) (cells : List Cell) (r : Nat) : List Cell :=
  let screenRow := saturatingAdd o.row.toNat r
  let stamped := ((List.range o.cols.toNat).takeWhile
    fun c => decide (saturatingAdd o.col.toNat c < cols)).foldl
      (stampCell o cols r screenRow) cells
  repairWidePairs width stamped cols screenRow

/-- The screen with the overlay stamped on top, clipped to the screen. -/
def composite (overlay : Option Overlay) (s : ScreenState) : List Cell :=
  match overlay with
  | none => s.cells
  | some o => ((List.range o.rows.toNat).takeWhile
      fun r => decide (saturatingAdd o.row.toNat r < s.rows.toNat)).foldl
        (stampRow width o s.cols.toNat) s.cells

end

/-- A cell that is to be painted: one that differs from what is there, or from a blank
after the screen was cleared. -/
def dirty (desired : List Cell) (previous : Option (List Cell)) (full : Bool)
    (relinked : Nat → Bool) (col : Nat) : Bool :=
  match previous, full with
  | some prev, false => decide (desired[col]? ≠ prev[col]?) || relinked col
  | _, _ => decide (desired[col]? ≠ some Cell.blank)

/-- The loop of `changed_runs`, one column. -/
def runStep (desired : List Cell) (dirty : Nat → Bool)
    (acc : List (Nat × Nat) × Option Nat) (col : Nat) : List (Nat × Nat) × Option Nat :=
  match dirty col, acc.2 with
  | true, none =>
      (acc.1, some (if (desired[col]?).any isCont && decide (col > 0) then col - 1 else col))
  | true, some s => (acc.1, some s)
  | false, some s => (acc.1 ++ [(s, col)], none)
  | false, none => acc

/-- Half-open column ranges that need repainting. A run that begins on the right half
of a glyph is extended to the left. -/
def changedRuns (desired : List Cell) (dirty : Nat → Bool) : List (Nat × Nat) :=
  match (List.range desired.length).foldl (runStep desired dirty) ([], none) with
  | (runs, none) => runs
  | (runs, some s) => runs ++ [(s, desired.length)]

/-- The commands of a pass so far, and the SGR selection last written. -/
structure Ink where
  out : List Command := []
  pen : Option (List Nat) := none

/-- The OSC 8 parameters that name a link. -/
def linkParams (id : UInt16) : Text := ['i', 'd', '='] ++ Nat.toDigits 10 id.toNat

/-- The URI an id may be painted with. -/
def paintable (links : Links) (id : UInt16) : Option Text :=
  (links[id]?).filter fun uri => decide (checkLinkUri id uri = .ok ())

namespace Renderer

def new (size : TermSize) (caps : TerminalCaps) : Renderer where
  size := size
  caps := caps
  painted := none
  overlay := none
  hyperlinks := true
  linkMayBeOpen := false

def setHyperlinks (r : Renderer) (on : Bool) : Renderer :=
  if r.hyperlinks ≠ on then { r with hyperlinks := on, painted := none } else r

def linksOn (r : Renderer) : Bool := r.hyperlinks && r.caps.osc8

def resize (r : Renderer) (size : TermSize) : Renderer := { r with size := size, painted := none }

def invalidate (r : Renderer) : Renderer := { r with painted := none }

def setOverlay (r : Renderer) (overlay : Option Overlay) : Renderer := { r with overlay := overlay }

/-- The tracking modes are not nested: all three are cleared first. -/
def writeMouse (r : Renderer) (mode : MouseMode) : List Command :=
  [.setMode 1003 false, .setMode 1002 false, .setMode 1000 false] ++
  (match mode with
    | .off => []
    | .press | .pressRelease => [.setMode 1000 true]
    | .buttonMotion => [.setMode 1002 true]
    | .anyMotion => [.setMode 1003 true]) ++
  (if mode = .off then [.setMode 1006 false]
    else if r.caps.mouseSgr then [.setMode 1006 true] else [])

/-- On a full repaint every mode is stated, in whichever direction. -/
def writeModes (r : Renderer) (s : ScreenState) (full : Bool) : List Command :=
  let before := if full then none else r.painted.map (·.modes)
  (if r.caps.bracketedPaste ∧ before.map (·.bracketedPaste) ≠ some s.modes.bracketedPaste then
    [.setMode 2004 s.modes.bracketedPaste] else []) ++
  (if before.map (·.mouse) ≠ some s.modes.mouse then r.writeMouse s.modes.mouse else [])

def writeTitle (r : Renderer) (s : ScreenState) (full : Bool) : List Command :=
  let changed := match r.painted, full with
    | some p, false => decide (p.title ≠ s.title)
    | _, _ => !s.title.isEmpty
  if changed then [.setTitle s.title] else []

/-- The hyperlink a cell wants, if another one is open, and the id open after it. -/
def writeLink (r : Renderer) (links : Links) (cell : Cell) (opened : UInt16) :
    List Command × UInt16 :=
  if r.linksOn ∧ cell.link ≠ opened then
    let close := if opened ≠ 0 then [.closeLink] else []
    match paintable links cell.link with
    | some uri => (close ++ [.openLink (linkParams cell.link) uri], cell.link)
    | none => (close, 0)
  else ([], opened)

/-- One cell of a run. A right half is skipped: the glyph before it already occupies
this column. Every other cell occupies its own, so one with no text is a blank. -/
def writeCell (r : Renderer) (links : Links) (acc : Ink × UInt16) (cell : Cell) : Ink × UInt16 :=
  if isCont cell then acc
  else
    let (link, opened) := r.writeLink links cell acc.2
    let want := sgrFor r.caps cell
    let select : List Command := if acc.1.pen = some want then [] else [.sgr want]
    let text : Text := if cell.text = [] then [' '] else cell.text
    ({ out := acc.1.out ++ link ++ select ++ [.text text], pen := some want }, opened)

/-- A run starts with a cursor move and ends with its link closed. -/
def writeRun (r : Renderer) (links : Links) (row : Nat) (desired : List Cell) (ink : Ink)
    (run : Nat × Nat) : Ink :=
  let moved : Ink := { ink with out := ink.out ++ [.moveTo row run.1] }
  let (ink, opened) := ((desired.take run.2).drop run.1).foldl (r.writeCell links) (moved, 0)
  if opened ≠ 0 then { ink with out := ink.out ++ [.closeLink] } else ink

/-- A cell that compares equal is still stale if its link resolves to another URI. -/
def relinked (r : Renderer) (links : Links) (desired : List Cell) (col : Nat) : Bool :=
  match desired[col]? with
  | none => false
  | some cell => r.linksOn && decide (cell.link ≠ 0) &&
      decide (r.painted.map (fun p => p.links[cell.link]?) ≠ some (links[cell.link]?))

def writeRow (r : Renderer) (cells : List Cell) (links : Links) (cols : Nat) (full : Bool)
    (ink : Ink) (row : Nat) : Ink :=
  let desired := (cells.drop (row * cols)).take cols
  let previous := r.painted.bind fun p =>
    if p.cells.length = cells.length then some ((p.cells.drop (row * cols)).take cols) else none
  (changedRuns desired (dirty desired previous full (r.relinked links desired))).foldl
    (r.writeRun links row desired) ink

/-- The cells that changed, run by run; the pen is left at the default. -/
def writeCells (r : Renderer) (cells : List Cell) (links : Links) (rows cols : Nat)
    (full : Bool) : List Command :=
  let clear : List Command :=
    if full then (if r.caps.osc8 ∧ (r.linksOn ∨ r.linkMayBeOpen) then [.closeLink] else []) ++
      [.home, .eraseAll] else []
  let ink := (List.range rows).foldl (r.writeRow cells links cols full) {}
  let reset : List Command := if ink.pen.any fun p => decide (p ≠ [0]) then [.sgr [0]] else []
  clear ++ ink.out ++ reset

def shapeCode : CursorShape → Nat
  | .block => 2
  | .underline => 4
  | .bar => 6

/-- `painting` says that something was written before: painting left the caret
wherever the last glyph ended. -/
def writeCursor (r : Renderer) (cursor : Cursor) (full painting : Bool) : List Command :=
  let before := if full then none else r.painted.map (·.cursor)
  let shape : List Command :=
    if before.map (·.shape) ≠ some cursor.shape then [.cursorShape (shapeCode cursor.shape)]
    else []
  let moved := decide (before.map (fun b => (b.row, b.col)) ≠ some (cursor.row, cursor.col))
  let position : List Command :=
    if moved || painting || !shape.isEmpty then [.moveTo cursor.row.toNat cursor.col.toNat] else []
  let visible : List Command :=
    if before.map (·.visible) ≠ some cursor.visible then [.setMode 25 cursor.visible] else []
  shape ++ position ++ visible

/-- The terminal rings on an increase of the counter. -/
def shouldRing (r : Renderer) (s : ScreenState) : Bool :=
  r.painted.any fun p => decide (s.bell > p.bell)

/-- A state of another shape cannot be painted incrementally. -/
def reshape (r : Renderer) (s : ScreenState) : Renderer :=
  if s.rows ≠ r.size.rows ∨ s.cols ≠ r.size.cols then
    { r with size := { cols := s.cols, rows := s.rows }, painted := none }
  else r

/-- The remote application crossed between its screen buffers. -/
def bufferSwapped (r : Renderer) (s : ScreenState) : Bool :=
  r.painted.any fun p => decide (p.modes.altScreen ≠ s.modes.altScreen)

/-- What is known of the terminal when the cells are written. -/
def leaving (r : Renderer) (s : ScreenState) : Renderer :=
  if r.bufferSwapped s then { r with painted := none } else r

/-- A drawn box hides the cursor. -/
def shownCursor (r : Renderer) (s : ScreenState) : Cursor :=
  match r.overlay with
  | none => s.cursor
  | some _ => { s.cursor with visible := false }

section
variable (width : Text → Nat)

/-- The commands of a pass, before they are wrapped. -/
def paint (r : Renderer) (s : ScreenState) : List Command :=
  let full := r.painted.isNone
  let modes := r.writeModes s full
  let after := r.leaving s
  let full := full || r.bufferSwapped s
  let before := modes ++ after.writeTitle s full ++
    after.writeCells (composite width r.overlay s) s.links s.rows.toNat s.cols.toNat full
  before ++ after.writeCursor (r.shownCursor s) full (!before.isEmpty) ++
    (if r.shouldRing s then [.bell] else [])

/-- Synchronized output, unless there is nothing to write. -/
def wrap (out : List Command) : List Command :=
  if out.isEmpty then [] else [.setMode 2026 true] ++ out ++ [.setMode 2026 false]

/-- What a pass writes. -/
def output (r : Renderer) (s : ScreenState) : List Command := wrap ((r.reshape s).paint width s)

/-- The renderer when the write begins. -/
def begun (r : Renderer) (s : ScreenState) : Renderer :=
  let after := (r.reshape s).leaving s
  if r.linksOn then { after with linkMayBeOpen := true } else after

/-- The write completed: only now is the model true. -/
def rendered (r : Renderer) (s : ScreenState) : Renderer :=
  { r.begun s with
    linkMayBeOpen := false
    painted := some
      { cells := composite width r.overlay s
        cursor := r.shownCursor s
        modes := s.modes
        title := s.title
        bell := s.bell
        links := s.links } }

/-- The write failed somewhere. -/
def interrupted (r : Renderer) (s : ScreenState) : Renderer := { r.begun s with painted := none }

end
end Renderer
end Oxutrm.Paint
