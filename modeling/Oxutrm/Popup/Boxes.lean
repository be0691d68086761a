import Oxutrm.Popup.Widgets

/-!
The pieces of a popup: its frame with the key bar, and what is placed from the top of an
area. Whatever is placed stays in its area and gives back what is left below it.
-/
namespace Oxutrm.Popup
open Proto Drawing Checked
open Paint (Overlay)

structure KeyHint where
  key : Text
  label : Text
  /-- Drawn dimmed when false. -/
  enabled : Bool
  deriving DecidableEq, Repr

/-- What the box's frame takes of its width. -/
def frameCols : Nat := 4

/-- The keys with `gap` between them, with the labels of those `labelled` says. -/
def hintLine (keys : List KeyHint) (gap : Text) (labelled : Nat → Bool) : Line :=
  keys.zipIdx.flatMap fun (k, i) =>
    let (key, label) : Style × Style :=
      if k.enabled then ({ modifier := { bold := true } }, {})
      else ({ modifier := { dim := true } }, { modifier := { dim := true } })
    (if i > 0 then [{ text := gap }] else []) ++ [{ text := k.key, style := key }] ++
      if labelled i then [{ text := ' ' :: k.label, style := label }] else []

def keyLine (keys : List KeyHint) : Line := hintLine keys "  ".toList fun _ => true

section Drawing
variable (kit : Toolkit)

/-- The key bar in `width` cells: whole, else with the last label only, else the last key
alone. -/
def fittedKeyLine (keys : List KeyHint) (width : Nat) : Line :=
  let whole := keyLine keys
  if kit.lineWidth whole ≤ width then whole
  else
    let last := keys.length - 1
    let short := hintLine keys [' '] fun i => i == last
    if kit.lineWidth short ≤ width then short else keyLine (keys.drop last)

/-- The buffer with the box and the area above the key bar. -/
def framed (title : Text) (keys : Line) (cols rows : Nat) : Option (Buffer × Rect) := do
  let area : Rect := ⟨0, 0, cols, rows⟩
  let inner := kit.inner area
  let buf ← paint kit (.block ([' '] ++ title ++ [' '])) area (emptyBuffer cols rows)
  let bar ← sub (bottom inner) 1
  let buf ← paint kit (.paragraph { lines := [keys] }) { inner with y := bar, height := 1 } buf
  let height ← sub inner.height 1
  some (buf, { inner with height := height })

/-- The area without its top `n` rows. -/
def below (area : Rect) (n : Nat) : Option Rect := do
  let n := min n area.height
  let y ← add 16 area.y n
  let height ← sub area.height n
  some { area with y := y, height := height }

/-- The line on the top row of the area, cut at its width. -/
def placeOne (line : Line) (area : Rect) (buf : Buffer) : Option (Rect × Buffer) :=
  if area.height = 0 then some (area, buf)
  else do
    let buf ← paint kit (.paragraph { lines := [line] }) { area with height := 1 } buf
    let left ← below area 1
    some (left, buf)

def plain (lines : List Text) : List Line := lines.map Line.ofText

/-- The lines, wrapped, at the top of the area. -/
def place (lines : List Line) (area : Rect) (buf : Buffer) : Option (Rect × Buffer) :=
  if lines = [] ∨ area.height = 0 then some (area, buf)
  else do
    let used ← wrappedRowCount kit lines area.width area.height
    let buf ← paint kit (.paragraph { lines := lines, trim := some false }) { area with height := used } buf
    let left ← below area used
    some (left, buf)

def setSymbol (text : Text) (c : Symbol) : Symbol := { c with symbol := text }

/-- A rule across the whole box, joined into both sides of the border. -/
def rule (buf : Buffer) (y cols : Nat) (title : Option Text) : Option Buffer := do
  let last ← sub cols 1
  let buf ← buf.set 0 y (setSymbol ['\u251c'])
  let buf ← (List.range' 1 (last - 1)).foldlM (fun buf x => buf.set x y (setSymbol ['\u2500'])) buf
  let buf ← buf.set last y (setSymbol ['\u2524'])
  match title with
  | some t => setString kit buf 1 y ([' '] ++ t ++ [' ']) (cols - 2)
  | none => some buf

/-- The box in the middle of the screen. -/
def centred (buf : Buffer) (cols rows : Nat) (size : TermSize) : Option Overlay := do
  let top ← sub size.rows.toNat rows
  let start ← sub size.cols.toNat cols
  overlayFromBuffer kit buf (top / 2) (start / 2)

end Drawing

/-- The area is on the buffer, whose size a `u16` holds. -/
structure Fits (buf : Buffer) (area : Rect) : Prop where
  columns : area.x + area.width ≤ buf.width
  rows : area.y + area.height ≤ buf.height
  width : buf.width < 2 ^ 16
  height : buf.height < 2 ^ 16

/-- What is left of an area below what has been placed in it. -/
structure Placed (area : Rect) (buf : Buffer) (left : Rect × Buffer) : Prop where
  x : left.1.x = area.x
  width : left.1.width = area.width
  lower : area.y ≤ left.1.y
  ends : left.1.y + left.1.height = area.y + area.height
  changes : Changes area.y (area.y + area.height) buf left.2

/-- What is left of an area from whose top and bottom something was taken: all but so many
of its rows. -/
structure Leaves (area : Rect) (buf : Buffer) (spent : Nat) (left : Rect × Buffer) : Prop where
  x : left.1.x = area.x
  width : left.1.width = area.width
  lower : area.y ≤ left.1.y
  ends : left.1.y + left.1.height ≤ area.y + area.height
  least : area.height ≤ left.1.height + spent
  changes : Changes area.y (area.y + area.height) buf left.2

/-- The line is drawn in a row of the list. -/
def Visible (kit : Toolkit) (list : Rect) (line : Line) (buf : Buffer) : Prop :=
  ∃ y before, list.y ≤ y ∧ y < list.y + list.height ∧ before.width = buf.width ∧
    ∀ x, buf.cell x y =
      (kit.render (.paragraph { lines := [line] }) { list with y := y, height := 1 } before).cell x y

/-- The line is one of those the overlay shows in the list. -/
def Listed (kit : Toolkit) (list : Rect) (line : Line) (o : Overlay) : Prop :=
  ∃ y before, list.y ≤ y ∧ y < list.y + list.height ∧ before.width = o.cols.toNat ∧
    rowOf o y =
      rowCells kit (kit.render (.paragraph { lines := [line] }) { list with y := y, height := 1 } before) y

/-- The overlay is on the screen, and filled. -/
structure Inside (size : TermSize) (o : Overlay) : Prop where
  rows : o.row.toNat + o.rows.toNat ≤ size.rows.toNat
  cols : o.col.toNat + o.cols.toNat ≤ size.cols.toNat
  cells : o.cells.length = o.rows.toNat * o.cols.toNat

section Specs
variable {kit : Toolkit} {area : Rect} {buf : Buffer}

theorem Fits.holds (fits : Fits buf area) : buf.Holds area := ⟨fits.columns, fits.rows⟩

theorem Fits.changes {low high : Nat} {buf' : Buffer} (fits : Fits buf area) (changes : Changes low high buf buf') :
    Fits buf' area := by
  obtain ⟨columns, rows, width, height⟩ := fits
  have sameWidth := changes.width
  have sameHeight := changes.height
  exact ⟨by omega, by omega, by omega, by omega⟩

theorem Fits.bottom (fits : Fits buf area) : Popup.bottom area = area.y + area.height := by
  have rows := fits.rows
  have height := fits.height
  rw [Popup.bottom, saturatingAdd]
  omega

theorem Fits.right (fits : Fits buf area) : Popup.right area = area.x + area.width := by
  have columns := fits.columns
  have width := fits.width
  rw [Popup.right, saturatingAdd]
  omega

theorem Placed.refl (area : Rect) (buf : Buffer) : Placed area buf (area, buf) :=
  ⟨rfl, rfl, Nat.le_refl _, rfl, Changes.refl _ _ _⟩

theorem Placed.trans {left last : Rect × Buffer} (first : Placed area buf left)
    (second : Placed left.1 left.2 last) : Placed area buf last := by
  obtain ⟨x, width, lower, ends, changes⟩ := first
  obtain ⟨x', width', lower', ends', changes'⟩ := second
  exact ⟨x'.trans x, width'.trans width, lower.trans lower', ends'.trans ends,
    changes.trans (changes'.mono lower (Nat.le_of_eq ends))⟩

theorem Placed.fits {left : Rect × Buffer} (placed : Placed area buf left) (fits : Fits buf area) :
    Fits left.2 left.1 := by
  obtain ⟨x, width, lower, ends, changes⟩ := placed
  obtain ⟨columns, rows, small, short⟩ := fits.changes changes
  exact ⟨by omega, by omega, small, short⟩

theorem Leaves.refl (area : Rect) (buf : Buffer) (spent : Nat) : Leaves area buf spent (area, buf) :=
  ⟨rfl, rfl, Nat.le_refl _, Nat.le_refl _, Nat.le_add_right _ _, Changes.refl _ _ _⟩

theorem Leaves.trans {spent more : Nat} {left last : Rect × Buffer} (first : Leaves area buf spent left)
    (second : Leaves left.1 left.2 more last) : Leaves area buf (spent + more) last := by
  obtain ⟨x, width, lower, ends, least, changes⟩ := first
  obtain ⟨x', width', lower', ends', least', changes'⟩ := second
  exact ⟨x'.trans x, width'.trans width, lower.trans lower', ends'.trans ends, by omega,
    changes.trans (changes'.mono lower ends)⟩

theorem Leaves.fits {spent : Nat} {left : Rect × Buffer} (leaves : Leaves area buf spent left)
    (fits : Fits buf area) : Fits left.2 left.1 := by
  obtain ⟨x, width, lower, ends, least, changes⟩ := leaves
  obtain ⟨columns, rows, small, short⟩ := fits.changes changes
  exact ⟨by omega, by omega, small, short⟩

theorem Placed.leaves {spent : Nat} {left : Rect × Buffer} (placed : Placed area buf left)
    (least : area.height ≤ left.1.height + spent) : Leaves area buf spent left :=
  ⟨placed.x, placed.width, placed.lower, Nat.le_of_eq placed.ends, least, placed.changes⟩

theorem Leaves.height {spent : Nat} {left : Rect × Buffer} (leaves : Leaves area buf spent left) :
    left.1.height ≤ area.height := by
  have lower := leaves.lower
  have ends := leaves.ends
  omega

theorem Leaves.of_bottom {n : Nat} {buf' : Buffer} (room : n ≤ area.height)
    (changes : Changes (area.y + (area.height - n)) (area.y + area.height) buf buf') :
    Leaves area buf n ({ area with height := area.height - n }, buf') := by
  refine ⟨rfl, rfl, Nat.le_refl _, ?_, ?_, changes.mono (Nat.le_add_right _ _) (Nat.le_refl _)⟩ <;>
    dsimp only <;> omega

theorem scrolled {α : Type} (lines : List α) {cursor height : Nat} (room : 1 ≤ height) :
    ((lines.drop (cursor + 1 - height)).take height)[cursor - (cursor + 1 - height)]? = lines[cursor]? ∧
      cursor - (cursor + 1 - height) < height := by
  have inside : cursor - (cursor + 1 - height) < height := by omega
  refine ⟨?_, inside⟩
  rw [List.getElem?_take_of_lt inside, List.getElem?_drop]
  congr 1
  omega

/-- The frame with the key bar in its last row. -/
def barred (kit : Toolkit) (title : Text) (keys : Line) (cols rows : Nat) : Buffer :=
  kit.render (.paragraph { lines := [keys] }) ⟨2, rows - 2, cols - 4, 1⟩
    (kit.render (.block ([' '] ++ title ++ [' '])) ⟨0, 0, cols, rows⟩ (emptyBuffer cols rows))

theorem barred_size (lawful : kit.Lawful) (title : Text) (keys : Line) (cols rows : Nat) :
    (barred kit title keys cols rows).width = cols ∧ (barred kit title keys cols rows).height = rows := by
  have bar := lawful.size (.paragraph { lines := [keys] }) ⟨2, rows - 2, cols - 4, 1⟩
    (kit.render (.block ([' '] ++ title ++ [' '])) ⟨0, 0, cols, rows⟩ (emptyBuffer cols rows))
  have box := lawful.size (.block ([' '] ++ title ++ [' '])) ⟨0, 0, cols, rows⟩ (emptyBuffer cols rows)
  exact ⟨bar.1.trans box.1, bar.2.trans box.2⟩

/-- The key bar is the last row inside the border. -/
structure Barred (kit : Toolkit) (title : Text) (keys : Line) (o : Overlay) : Prop where
  room : 3 ≤ o.rows.toNat
  bar : rowOf o (o.rows.toNat - 2) =
    rowCells kit (barred kit title keys o.cols.toNat o.rows.toNat) (o.rows.toNat - 2)

theorem runs_centred (lawful : kit.Lawful) {title : Text} {keys : Line} {cols rows low : Nat} {size : TermSize}
    (changes : Changes low (rows - 2) (barred kit title keys cols rows) buf) (tall : 3 ≤ rows)
    (height : rows ≤ size.rows.toNat) (width : cols ≤ size.cols.toNat) :
    Runs (centred kit buf cols rows size) fun o => Inside size o ∧ Barred kit title keys o ∧
      o.rows.toNat = rows ∧ o.cols.toNat = cols ∧ ∀ y < rows, rowOf o y = rowCells kit buf y := by
  obtain ⟨startCols, startRows⟩ := barred_size lawful title keys cols rows
  have bufCols : buf.width = cols := changes.width.trans startCols
  have bufRows : buf.height = rows := changes.height.trans startRows
  have colsLt := size.cols.toNat_lt
  have rowsLt := size.rows.toNat_lt
  unfold centred
  refine Runs.bind (runs_sub height) ?_
  rintro _ rfl
  refine Runs.bind (runs_sub width) ?_
  rintro _ rfl
  refine (runs_overlayFromBuffer kit (by omega) (by omega) (by omega) (by omega)).mono fun o shows => ?_
  obtain ⟨row, col, sameRows, sameCols, cells⟩ := shows
  have oRows : o.rows.toNat = rows := sameRows.trans bufRows
  have oCols : o.cols.toNat = cols := sameCols.trans bufCols
  refine ⟨⟨by omega, by omega, o.filled⟩, ⟨by omega, ?_⟩, oRows, oCols, fun y inside => cells y (by omega)⟩
  rw [oRows, oCols, cells (rows - 2) (by omega)]
  exact rowCells_congr kit changes.width (changes.row (.inr (Nat.le_refl _)))

theorem Visible.listed (lawful : kit.Lawful) {list : Rect} {line : Line} {o : Overlay} {rows : Nat}
    (visible : Visible kit list line buf) (cols : o.cols.toNat = buf.width)
    (cells : ∀ y < rows, rowOf o y = rowCells kit buf y) (within : list.y + list.height ≤ rows) :
    Listed kit list line o := by
  obtain ⟨y, before, low, high, width, same⟩ := visible
  refine ⟨y, before, low, high, width.trans cols.symm, ?_⟩
  rw [cells y (by omega)]
  exact rowCells_congr kit (width.symm.trans (lawful.size _ _ _).1.symm) same

theorem runs_framed (lawful : kit.Lawful) (title : Text) (keys : Line) {cols rows : Nat} (wide : 4 ≤ cols)
    (tall : 3 ≤ rows) (small : rows < 2 ^ 16) :
    Runs (framed kit title keys cols rows) (· = (barred kit title keys cols rows, ⟨2, 1, cols - 4, rows - 3⟩)) := by
  have inner := lawful.inner ⟨0, 0, cols, rows⟩ wide (by dsimp only; omega)
  have size := lawful.size (.block ([' '] ++ title ++ [' '])) ⟨0, 0, cols, rows⟩ (emptyBuffer cols rows)
  unfold framed
  simp only [inner]
  refine Runs.bind (runs_render _ ⟨Nat.le_of_eq (Nat.zero_add _), Nat.le_of_eq (Nat.zero_add _)⟩) ?_
  rintro _ rfl
  have ends : Popup.bottom ⟨2, 1, cols - 4, rows - 2⟩ = rows - 1 := by
    simp only [Popup.bottom, saturatingAdd]
    omega
  simp only [Nat.zero_add, ends]
  refine Runs.bind (runs_sub (by omega)) ?_
  rintro _ rfl
  refine Runs.bind (runs_render _ ⟨?_, ?_⟩) ?_
  · rw [size.1]
    simp only [emptyBuffer]
    omega
  · rw [size.2]
    simp only [emptyBuffer]
    omega
  rintro _ rfl
  refine Runs.bind (runs_sub (by omega)) ?_
  rintro _ rfl
  refine Runs.pure ?_
  rw [barred, show rows - 1 - 1 = rows - 2 by omega, show rows - 2 - 1 = rows - 3 by omega]

theorem runs_below (fits : Fits buf area) (n : Nat) :
    Runs (below area n) (· = { area with y := area.y + min n area.height, height := area.height - min n area.height }) := by
  have rows := fits.rows
  have height := fits.height
  unfold below
  refine Runs.bind (runs_add (by omega)) ?_
  rintro _ rfl
  refine Runs.bind (runs_sub (Nat.min_le_right _ _)) ?_
  rintro _ rfl
  exact Runs.pure rfl

theorem placed_below {n : Nat} {buf' : Buffer} (room : n ≤ area.height)
    (changes : Changes area.y (area.y + n) buf buf') :
    Placed area buf ({ area with y := area.y + min n area.height, height := area.height - min n area.height }, buf') := by
  refine ⟨rfl, rfl, Nat.le_add_right _ _, ?_, changes.mono (Nat.le_refl _) (by omega)⟩
  dsimp only
  omega

theorem runs_placeOne (lawful : kit.Lawful) (line : Line) (fits : Fits buf area) :
    Runs (placeOne kit line area buf) fun left => Placed area buf left ∧ area.height ≤ left.1.height + 1 := by
  unfold placeOne
  refine Runs.ite (fun _ => Runs.pure ⟨Placed.refl area buf, Nat.le_succ _⟩) fun some_ => ?_
  have rows := fits.rows
  refine Runs.bind (runs_paint lawful _ ⟨fits.columns, by dsimp only; omega⟩) fun drawn changes => ?_
  refine Runs.bind (runs_below (fits.changes changes) 1) ?_
  rintro _ rfl
  exact Runs.pure ⟨placed_below (by omega) changes, by dsimp only; omega⟩

theorem runs_place (lawful : kit.Lawful) (lines : List Line) (fits : Fits buf area) :
    Runs (place kit lines area buf) (Placed area buf) := by
  unfold place
  refine Runs.ite (fun _ => Runs.pure (Placed.refl area buf)) fun some_ => ?_
  have rows := fits.rows
  have used := wrappedRows_le kit lines area.width area.height
  refine Runs.bind (runs_wrappedRowCount lawful lines area.width area.height) ?_
  rintro _ rfl
  refine Runs.bind (runs_paint lawful _ ⟨fits.columns, by dsimp only; omega⟩) fun drawn changes => ?_
  refine Runs.bind (runs_below (fits.changes changes) _) ?_
  rintro _ rfl
  exact Runs.pure (placed_below used changes)

theorem runs_rule (lawful : kit.Lawful) {y cols : Nat} (wide : 2 ≤ cols) (column : cols ≤ buf.width)
    (row : y < buf.height) (title : Option Text) : Runs (rule kit buf y cols title) (Changes y (y + 1) buf) := by
  unfold rule
  refine Runs.bind (runs_sub (by omega)) ?_
  rintro _ rfl
  refine Runs.bind (runs_set (by omega) row _) fun first drawn => ?_
  have size := drawn.width
  have size' := drawn.height
  have line : Runs ((List.range' 1 (cols - 1 - 1)).foldlM
      (fun buf x => buf.set x y (setSymbol ['\u2500'])) first) (Changes y (y + 1) buf) := by
    refine Runs.foldlM drawn fun c x member changes => ?_
    have inside := List.mem_range'_1.mp member
    have width := changes.width
    have height := changes.height
    exact (runs_set (by omega) (by omega) _).mono fun _ more => changes.trans more
  refine Runs.bind line fun second drawn => ?_
  have width := drawn.width
  have height := drawn.height
  refine Runs.bind (runs_set (by omega) (by omega) _) fun third more => ?_
  have all := drawn.trans more
  have width := all.width
  have height := all.height
  cases title with
  | none => exact Runs.pure all
  | some t => exact (runs_setString lawful (by omega) (by omega) _ _).mono fun _ last => all.trans last

end Specs
end Oxutrm.Popup
