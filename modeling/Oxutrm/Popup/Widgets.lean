import Oxutrm.Host.Window
import Oxutrm.Lib.Drawing
import Oxutrm.Log.Activity

/-!
What the popup is drawn with. The widgets are ratatui's, and how they look is a parameter;
what is relied on is that nothing is drawn outside the area that is given. A buffer is then
turned into cells.
-/
namespace Oxutrm.Popup
open Proto Drawing Checked
open Paint (Overlay)

/-- ratatui's colours. -/
inductive RColor where
  | reset
  | black
  | red
  | green
  | yellow
  | blue
  | magenta
  | cyan
  | gray
  | darkGray
  | lightRed
  | lightGreen
  | lightYellow
  | lightBlue
  | lightMagenta
  | lightCyan
  | white
  | rgb (r g b : UInt8)
  | indexed (i : UInt8)
  deriving DecidableEq, Repr

structure Modifier where
  bold : Bool := false
  dim : Bool := false
  italic : Bool := false
  underlined : Bool := false
  slowBlink : Bool := false
  rapidBlink : Bool := false
  reversed : Bool := false
  hidden : Bool := false
  crossedOut : Bool := false
  deriving DecidableEq, Repr

structure Style where
  fg : Option RColor := none
  modifier : Modifier := {}
  deriving DecidableEq, Repr

structure Span where
  text : Text
  style : Style := {}
  deriving DecidableEq, Repr

abbrev Line := List Span

def Line.ofText (text : Text) : Line := (Log.textLines text).map fun part => { text := part }

/-- `Text::from`. -/
def linesOf (text : Text) : List Line := if text = [] then [[]] else (Log.textLines text).map Line.ofText

structure Paragraph where
  lines : List Line
  /-- Whether wrapped lines are trimmed; nothing if they are cut. -/
  trim : Option Bool := none
  centered : Bool := false
  deriving DecidableEq, Repr

inductive Widget where
  /-- A rounded border with a title, and a cell of padding on either side. -/
  | block (title : Text)
  | paragraph (p : Paragraph)
  | sparkline (data : List (Option Nat)) (max : Nat)
  deriving DecidableEq, Repr

/-- A cell of ratatui's buffer. -/
structure Symbol where
  symbol : Text
  fg : RColor
  bg : RColor
  modifier : Modifier
  deriving DecidableEq, Repr

abbrev Buffer := Canvas Symbol

def blankSymbol : Symbol := { symbol := [' '], fg := .reset, bg := .reset, modifier := {} }

def emptyBuffer (width height : Nat) : Buffer := { width := width, height := height, cell := fun _ _ => blankSymbol }

/-- What is taken from other crates. -/
structure Toolkit where
  render : Widget → Rect → Buffer → Buffer
  setStringn : Buffer → (x y : Nat) → Text → (maxWidth : Nat) → Buffer
  /-- `Block::inner`. -/
  inner : Rect → Rect
  /-- `Line::width`. -/
  lineWidth : Line → Nat
  /-- `UnicodeWidthStr::width`. -/
  cells : Text → Nat
  /-- `UnicodeWidthChar::width`, nothing for a control. -/
  charWidth : Char → Option Nat

def inArea (area : Rect) (x y : Nat) : Prop :=
  area.x ≤ x ∧ x < area.x + area.width ∧ area.y ≤ y ∧ y < area.y + area.height

/-- ratatui draws only in the area it is given, a block leaves the room inside its border
and padding, and the rows of a paragraph do not depend on how many there is room for. -/
structure Toolkit.Lawful (kit : Toolkit) : Prop where
  size : ∀ w area buf, (kit.render w area buf).width = buf.width ∧ (kit.render w area buf).height = buf.height
  inside : ∀ w area buf x y, ¬ inArea area x y → (kit.render w area buf).cell x y = buf.cell x y
  string_size : ∀ buf x y text maxWidth, (kit.setStringn buf x y text maxWidth).width = buf.width ∧
    (kit.setStringn buf x y text maxWidth).height = buf.height
  string_inside : ∀ buf x y text maxWidth i j, ¬ inArea ⟨x, y, maxWidth, 1⟩ i j →
    (kit.setStringn buf x y text maxWidth).cell i j = buf.cell i j
  inner : ∀ area : Rect, 4 ≤ area.width → 2 ≤ area.height →
    kit.inner area = ⟨area.x + 2, area.y + 1, area.width - 4, area.height - 2⟩
  rows : ∀ p width few many x y, few ≤ many → x < width → y < few →
    (kit.render (.paragraph p) ⟨0, 0, width, few⟩ (emptyBuffer width few)).cell x y =
      (kit.render (.paragraph p) ⟨0, 0, width, many⟩ (emptyBuffer width many)).cell x y

def saturatingAdd (a b : Nat) : Nat := min (a + b) 65535

def tryU16 (n : Nat) : Nat := min n 65535

def right (r : Rect) : Nat := saturatingAdd r.x r.width

def bottom (r : Rect) : Nat := saturatingAdd r.y r.height

section Drawing
variable (kit : Toolkit)

/-- An area that is not on the buffer counts as a panic. -/
def paint (w : Widget) (area : Rect) (buf : Buffer) : Option Buffer :=
  if buf.Holds area then some (kit.render w area buf) else none

def setString (buf : Buffer) (x y : Nat) (text : Text) (maxWidth : Nat) : Option Buffer :=
  if x < buf.width ∧ y < buf.height then some (kit.setStringn buf x y text maxWidth) else none

/-- There is something in the row. -/
def usedAt (buf : Buffer) (width y : Nat) : Bool :=
  (List.range width).any fun x => decide ((buf.cell x y).symbol ≠ [' '])

/-- One more than the last row with something in it, looked for from the bottom. -/
def rowsUsed (buf : Buffer) (width : Nat) : Nat → Nat
  | 0 => 0
  | y + 1 => if usedAt buf width y then y + 1 else rowsUsed buf width y

/-- The lines, wrapped, in an area of their own. -/
def scratch (lines : List Line) (width height : Nat) : Buffer :=
  kit.render (.paragraph { lines := lines, trim := some false }) ⟨0, 0, width, height⟩ (emptyBuffer width height)

/-- To look outside the buffer would be a panic. -/
def wrappedRowCount (lines : List Line) (width height : Nat) : Option Nat :=
  if width = 0 ∨ height = 0 then some 0
  else
    let buf := scratch kit lines width height
    if width ≤ buf.width ∧ height ≤ buf.height then some (rowsUsed buf width height) else none

/-- How many rows there are. -/
def wrappedRows (lines : List Line) (width height : Nat) : Nat :=
  if width = 0 ∨ height = 0 then 0 else rowsUsed (scratch kit lines width height) width height

end Drawing

/-- The sixteen named colours are the palette's. -/
def colorOf : RColor → Color
  | .reset => .default
  | .rgb r g b => .rgb r g b
  | .indexed i => .idx i
  | .black => .idx 0
  | .red => .idx 1
  | .green => .idx 2
  | .yellow => .idx 3
  | .blue => .idx 4
  | .magenta => .idx 5
  | .cyan => .idx 6
  | .gray => .idx 7
  | .darkGray => .idx 8
  | .lightRed => .idx 9
  | .lightGreen => .idx 10
  | .lightYellow => .idx 11
  | .lightBlue => .idx 12
  | .lightMagenta => .idx 13
  | .lightCyan => .idx 14
  | .white => .idx 15

/-- Both rates of blinking are one attribute. -/
def attrsOf (m : Modifier) : Attrs :=
  Host.attr m.bold Paint.Attrs.bold ||| Host.attr m.dim Paint.Attrs.dim |||
    Host.attr m.italic Paint.Attrs.italic ||| Host.attr m.underlined Paint.Attrs.underline |||
    Host.attr (m.slowBlink || m.rapidBlink) Paint.Attrs.blink |||
    Host.attr m.reversed Paint.Attrs.inverse ||| Host.attr m.hidden Paint.Attrs.hidden |||
    Host.attr m.crossedOut Paint.Attrs.strike

section Cells
variable (kit : Toolkit)

/-- The cells of some columns of a row. Behind a wide glyph stands its right half. -/
def rowFrom (row : Nat → Symbol) : List Nat → Option (Color × Color) → List Cell
  | [], _ => []
  | _ :: columns, some (fg, bg) =>
      { text := [], fg := fg, bg := bg, attrs := Paint.Attrs.wideCont, link := 0 } :: rowFrom row columns none
  | x :: columns, none =>
      let c := row x
      let fg := colorOf c.fg
      let bg := colorOf c.bg
      { text := Host.fitCellText c.symbol, fg := fg, bg := bg, attrs := attrsOf c.modifier, link := 0 } ::
        rowFrom row columns (if kit.cells c.symbol = 2 then some (fg, bg) else none)

def rowCells (buf : Buffer) (y : Nat) : List Cell :=
  rowFrom kit (fun x => buf.cell x y) (List.range buf.width) none

theorem length_rowFrom (row : Nat → Symbol) (columns : List Nat) (half : Option (Color × Color)) :
    (rowFrom kit row columns half).length = columns.length := by
  induction columns generalizing half with
  | nil => cases half <;> rfl
  | cons x columns ih =>
      cases half with
      | none => rw [rowFrom, List.length_cons, List.length_cons, ih]
      | some half => rw [rowFrom, List.length_cons, List.length_cons, ih]

theorem length_rowCells (buf : Buffer) (y : Nat) : (rowCells kit buf y).length = buf.width := by
  rw [rowCells, length_rowFrom, List.length_range]

theorem length_cells (buf : Buffer) :
    ((List.range buf.height).flatMap (rowCells kit buf)).length = buf.height * buf.width := by
  simp [List.length_flatMap, length_rowCells]

/-- A buffer is no larger than a `u16` each way. -/
def overlayFromBuffer (buf : Buffer) (row col : Nat) : Option Overlay :=
  if small : buf.height < 2 ^ 16 ∧ buf.width < 2 ^ 16 then
    some
      { row := UInt16.ofNat row
        col := UInt16.ofNat col
        rows := UInt16.ofNat buf.height
        cols := UInt16.ofNat buf.width
        cells := (List.range buf.height).flatMap (rowCells kit buf)
        filled := by
          rw [length_cells, UInt16.toNat_ofNat_of_lt' small.1, UInt16.toNat_ofNat_of_lt' small.2] }
  else none

def rowOf (o : Overlay) (r : Nat) : List Cell := (o.cells.drop (r * o.cols.toNat)).take o.cols.toNat

/-- The overlay has the cells of the buffer. -/
structure Shows (buf : Buffer) (row col : Nat) (o : Overlay) : Prop where
  row : o.row.toNat = row
  col : o.col.toNat = col
  rows : o.rows.toNat = buf.height
  cols : o.cols.toNat = buf.width
  cells : ∀ y < buf.height, rowOf o y = rowCells kit buf y

theorem runs_overlayFromBuffer {buf : Buffer} {row col : Nat} (height : buf.height < 2 ^ 16)
    (width : buf.width < 2 ^ 16) (rowLt : row < 2 ^ 16) (colLt : col < 2 ^ 16) :
    Runs (overlayFromBuffer kit buf row col) (Shows kit buf row col) := by
  refine ⟨_, dif_pos ⟨height, width⟩, UInt16.toNat_ofNat_of_lt' rowLt, UInt16.toNat_ofNat_of_lt' colLt,
    UInt16.toNat_ofNat_of_lt' height, UInt16.toNat_ofNat_of_lt' width, fun y inside => ?_⟩
  have same : (UInt16.ofNat buf.width).toNat = buf.width := UInt16.toNat_ofNat_of_lt' width
  simp only [rowOf, same]
  exact ScreenState.chunk_at (fun _ _ => length_rowCells kit buf _) inside

theorem rowCells_congr {a b : Buffer} {y z : Nat} (width : a.width = b.width)
    (same : ∀ x, a.cell x y = b.cell x z) : rowCells kit a y = rowCells kit b z := by
  rw [rowCells, rowCells, width, show (fun x => a.cell x y) = fun x => b.cell x z from funext same]

end Cells

section Laws
variable {kit : Toolkit}

theorem Toolkit.Lawful.changes (lawful : kit.Lawful) (w : Widget) (area : Rect) (buf : Buffer) :
    Changes area.y (area.y + area.height) buf (kit.render w area buf) :=
  ⟨(lawful.size w area buf).1, (lawful.size w area buf).2,
    fun x y outside => lawful.inside w area buf x y fun inside => by
      unfold inArea at inside
      omega⟩

theorem runs_render (w : Widget) {area : Rect} {buf : Buffer} (holds : buf.Holds area) :
    Runs (paint kit w area buf) (· = kit.render w area buf) := ⟨_, if_pos holds, rfl⟩

theorem runs_paint (lawful : kit.Lawful) (w : Widget) {area : Rect} {buf : Buffer} (holds : buf.Holds area) :
    Runs (paint kit w area buf) (Changes area.y (area.y + area.height) buf) :=
  ⟨_, if_pos holds, lawful.changes w area buf⟩

theorem runs_setString (lawful : kit.Lawful) {buf : Buffer} {x y : Nat} (column : x < buf.width)
    (row : y < buf.height) (text : Text) (maxWidth : Nat) :
    Runs (setString kit buf x y text maxWidth) (Changes y (y + 1) buf) := by
  refine ⟨_, if_pos ⟨column, row⟩, (lawful.string_size _ _ _ _ _).1, (lawful.string_size _ _ _ _ _).2, ?_⟩
  intro i j outside
  refine lawful.string_inside _ _ _ _ _ _ _ fun inside => ?_
  obtain ⟨_, _, low, high⟩ := inside
  dsimp only at low high
  omega

theorem rowsUsed_le (buf : Buffer) (width height : Nat) : rowsUsed buf width height ≤ height := by
  induction height with
  | zero => exact Nat.le_refl _
  | succ y ih =>
      rw [rowsUsed]
      split
      · exact Nat.le_refl _
      · exact Nat.le_succ_of_le ih

theorem rowsUsed_mono (buf : Buffer) (width : Nat) {few many : Nat} (le : few ≤ many) :
    rowsUsed buf width few ≤ rowsUsed buf width many := by
  induction many, le using Nat.le_induction with
  | base => exact Nat.le_refl _
  | succ many le ih =>
      rw [rowsUsed]
      split
      · exact ((rowsUsed_le buf width few).trans le).trans (Nat.le_succ many)
      · exact ih

theorem rowsUsed_congr {a b : Buffer} {width height : Nat}
    (same : ∀ x y, x < width → y < height → a.cell x y = b.cell x y) :
    rowsUsed a width height = rowsUsed b width height := by
  induction height with
  | zero => rfl
  | succ y ih =>
      have used : usedAt a width y = usedAt b width y := by
        unfold usedAt
        rw [Bool.eq_iff_iff, List.any_eq_true, List.any_eq_true]
        refine exists_congr fun x => and_congr_right fun member => ?_
        rw [same x y (List.mem_range.mp member) (Nat.lt_succ_self y)]
      rw [rowsUsed, rowsUsed, used, ih fun x z column row => same x z column (Nat.lt_succ_of_lt row)]

theorem wrappedRows_le (kit : Toolkit) (lines : List Line) (width height : Nat) :
    wrappedRows kit lines width height ≤ height := by
  unfold wrappedRows
  split
  · exact Nat.zero_le _
  · exact rowsUsed_le _ _ _

theorem runs_wrappedRowCount (lawful : kit.Lawful) (lines : List Line) (width height : Nat) :
    Runs (wrappedRowCount kit lines width height) (· = wrappedRows kit lines width height) := by
  unfold wrappedRowCount wrappedRows
  by_cases none : width = 0 ∨ height = 0
  · rw [if_pos none, if_pos none]
    exact Runs.pure rfl
  · rw [if_neg none, if_neg none]
    have size := lawful.size (.paragraph { lines := lines, trim := some false }) ⟨0, 0, width, height⟩
      (emptyBuffer width height)
    exact ⟨_, if_pos ⟨Nat.le_of_eq size.1.symm, Nat.le_of_eq size.2.symm⟩, rfl⟩

theorem wrappedRows_mono (lawful : kit.Lawful) (lines : List Line) (width : Nat) {few many : Nat}
    (le : few ≤ many) : wrappedRows kit lines width few ≤ wrappedRows kit lines width many := by
  unfold wrappedRows
  by_cases none : width = 0 ∨ few = 0
  · rw [if_pos none]
    exact Nat.zero_le _
  · rw [if_neg none, if_neg (by omega)]
    rw [@rowsUsed_congr (scratch kit lines width few) (scratch kit lines width many) width few
      fun x y column row => lawful.rows _ width few many x y le column row]
    exact rowsUsed_mono _ width le

end Laws
end Oxutrm.Popup
