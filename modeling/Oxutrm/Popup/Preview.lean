import Oxutrm.Popup.Boxes

/-!
A session's screen, cut to the preview pane and laid over the cells of the box.
-/
namespace Oxutrm.Popup
open Proto Drawing Checked
open Paint (Overlay isCont)

/-- To write outside the overlay is a panic. -/
def putCell (o : Overlay) (i : Nat) (cell : Cell) : Option Overlay :=
  if i < o.cells.length then
    some { o with cells := o.cells.set i cell, filled := by rw [List.length_set]; exact o.filled }
  else none

def cellAt (s : ScreenState) (row col : Nat) : Option Cell :=
  if row < s.rows.toNat ∧ col < s.cols.toNat then s.cells[row * s.cols.toNat + col]? else none

/-- A cell with no text that is not a right half becomes a space. -/
def spaced (cell : Cell) : Cell :=
  if cell.text = [] ∧ isCont cell = false then { cell with text := [' '] } else cell

def stampCell (pane : Rect) (w : ScreenState) (r : Nat) (o : Overlay) (c : Nat) : Option Overlay := do
  let y ← add 16 pane.y r
  let x ← add 16 pane.x c
  let cell ← cellAt w r c
  putCell o (y * o.cols.toNat + x) (spaced cell)

/-- The screen, windowed to the pane, over the cells there. -/
def stamp (o : Overlay) (pane : Rect) (s : ScreenState) : Option Overlay :=
  let w := s.window { cols := UInt16.ofNat pane.width, rows := UInt16.ofNat pane.height }
  (List.range w.rows.toNat).foldlM
    (fun o r => (List.range w.cols.toNat).foldlM (stampCell pane w r) o) o

/-- The overlay is where it was, and the rows outside some are as they were. -/
structure Stamped (low high : Nat) (before after : Overlay) : Prop where
  row : after.row = before.row
  col : after.col = before.col
  rows : after.rows = before.rows
  cols : after.cols = before.cols
  rest : ∀ y, y < low ∨ high ≤ y → rowOf after y = rowOf before y

namespace Stamped
variable {low high : Nat} {a b c : Overlay}

theorem refl (low high : Nat) (a : Overlay) : Stamped low high a a := ⟨rfl, rfl, rfl, rfl, fun _ _ => rfl⟩

theorem trans (first : Stamped low high a b) (second : Stamped low high b c) : Stamped low high a c :=
  ⟨second.row.trans first.row, second.col.trans first.col, second.rows.trans first.rows,
    second.cols.trans first.cols, fun y outside => (second.rest y outside).trans (first.rest y outside)⟩

theorem mono {low' high' : Nat} (stamped : Stamped low high a b) (lower : low' ≤ low) (higher : high ≤ high') :
    Stamped low' high' a b :=
  { stamped with rest := fun y outside => stamped.rest y (by omega) }

end Stamped

theorem take_drop_set {α : Type} (cells : List α) {cols x y z : Nat} (a : α) (column : x < cols) (other : y ≠ z) :
    ((cells.set (y * cols + x) a).drop (z * cols)).take cols = (cells.drop (z * cols)).take cols := by
  apply List.ext_getElem?
  intro k
  rw [List.getElem?_take, List.getElem?_take]
  split
  next inside =>
    rw [List.getElem?_drop, List.getElem?_drop, List.getElem?_set_ne]
    rcases Nat.lt_or_gt_of_ne other with before | after
    · have rows := Nat.mul_le_mul_right cols before
      rw [Nat.succ_mul] at rows
      omega
    · have rows := Nat.mul_le_mul_right cols after
      rw [Nat.succ_mul] at rows
      omega
  next => rfl

theorem runs_putCell {o : Overlay} {x y : Nat} (column : x < o.cols.toNat) (row : y < o.rows.toNat) (cell : Cell) :
    Runs (putCell o (y * o.cols.toNat + x) cell) (Stamped y (y + 1) o) := by
  have rows := Nat.mul_le_mul_right o.cols.toNat row
  rw [Nat.succ_mul] at rows
  have filled := o.filled
  refine ⟨_, if_pos (by omega), rfl, rfl, rfl, rfl, fun z outside => ?_⟩
  exact take_drop_set o.cells cell column (by omega)

variable {pane : Rect} {o : Overlay} {s : ScreenState}

theorem runs_stampCell {w : ScreenState} (valid : w.Valid) {r c : Nat} (row : r < w.rows.toNat)
    (col : c < w.cols.toNat) (tall : w.rows.toNat ≤ pane.height) (wide : w.cols.toNat ≤ pane.width)
    (rows : pane.y + pane.height ≤ o.rows.toNat) (cols : pane.x + pane.width ≤ o.cols.toNat) :
    Runs (stampCell pane w r o c) (Stamped (pane.y + r) (pane.y + r + 1) o) := by
  have rowsLt := o.rows.toNat_lt
  have colsLt := o.cols.toNat_lt
  have place : r * w.cols.toNat + c < w.cells.length := by
    have rows := Nat.mul_le_mul_right w.cols.toNat row
    rw [Nat.succ_mul] at rows
    rw [valid.length]
    unfold ScreenState.expected
    omega
  unfold stampCell
  refine Runs.bind (runs_add (by omega)) ?_
  rintro _ rfl
  refine Runs.bind (runs_add (by omega)) ?_
  rintro _ rfl
  refine Runs.bind (P := fun _ => True) ⟨_, (if_pos ⟨row, col⟩).trans (List.getElem?_eq_getElem place), trivial⟩
    fun cell _ => ?_
  exact runs_putCell (by omega) (by omega) _

theorem runs_stamp (valid : s.Valid) (rows : pane.y + pane.height ≤ o.rows.toNat)
    (cols : pane.x + pane.width ≤ o.cols.toNat) :
    Runs (stamp o pane s) (Stamped pane.y (pane.y + pane.height) o) := by
  have rowsLt := o.rows.toNat_lt
  have colsLt := o.cols.toNat_lt
  unfold stamp
  extract_lets w
  have within : w.Valid := ScreenState.window_valid valid
  have tall : w.rows.toNat ≤ pane.height := by
    have small : pane.height < 2 ^ 16 := by omega
    have le := UInt16.le_iff_toNat_le.mp (ScreenState.min16_le_right s.rows (UInt16.ofNat pane.height))
    rwa [UInt16.toNat_ofNat_of_lt' small] at le
  have wide : w.cols.toNat ≤ pane.width := by
    have small : pane.width < 2 ^ 16 := by omega
    have le := UInt16.le_iff_toNat_le.mp (ScreenState.min16_le_right s.cols (UInt16.ofNat pane.width))
    rwa [UInt16.toNat_ofNat_of_lt' small] at le
  refine Runs.foldlM (Stamped.refl _ _ o) fun stamped r row before => ?_
  refine Runs.foldlM before fun stamped c col before => ?_
  have row := List.mem_range.mp row
  have col := List.mem_range.mp col
  have rows' := congrArg UInt16.toNat before.rows
  have cols' := congrArg UInt16.toNat before.cols
  refine (runs_stampCell within row col tall wide (by omega) (by omega)).mono fun _ cell => ?_
  exact before.trans (cell.mono (by omega) (by omega))

theorem Barred.stamped {kit : Toolkit} {title : Text} {keys : Line} {after : Overlay} {low high : Nat}
    (barred : Barred kit title keys o) (stamped : Stamped low high o after) (above : high ≤ o.rows.toNat - 2) :
    Barred kit title keys after := by
  obtain ⟨room, bar⟩ := barred
  refine ⟨by rwa [stamped.rows], ?_⟩
  rw [stamped.rows, stamped.cols, stamped.rest _ (.inr above)]
  exact bar

theorem Listed.stamped {kit : Toolkit} {list : Rect} {line : Line} {after : Overlay} {low high : Nat}
    (listed : Listed kit list line o) (stamped : Stamped low high o after) (below : list.y + list.height ≤ low) :
    Listed kit list line after := by
  obtain ⟨y, before, lower, upper, width, row⟩ := listed
  refine ⟨y, before, lower, upper, by rwa [stamped.cols], ?_⟩
  rw [stamped.rest y (.inl (by omega))]
  exact row

theorem Inside.stamped {size : TermSize} {after : Overlay} {low high : Nat} (inside : Inside size o)
    (stamped : Stamped low high o after) : Inside size after := by
  obtain ⟨rows, cols, _⟩ := inside
  exact ⟨by rwa [stamped.row, stamped.rows], by rwa [stamped.col, stamped.cols], after.filled⟩

end Oxutrm.Popup
