import Oxutrm.Host.Cells
import Oxutrm.Paint.Overlay
import Oxutrm.Paint.Placeholder
import Oxutrm.Sync.ScreenRoundTrip

/-!
The window of a screen that a session preview shows, and how far it is a faithful cut. A
cell beyond the cut that shows nothing of its own is taken for a right half, and the cell
before it for a left half.
-/
namespace Oxutrm.Proto.ScreenState
open Paint (isCont contAt blanked)

def saturatingAdd16 (a b : UInt16) : UInt16 := UInt16.ofNat (min (a.toNat + b.toNat) 65535)

def saturatingSub16 (a b : UInt16) : UInt16 := UInt16.ofNat (a.toNat - b.toNat)

def onLast (f : Cell → Cell) : List Cell → List Cell
  | [] => []
  | [c] => [f c]
  | c :: d :: cells => c :: onLast f (d :: cells)

def unlinked (c : Cell) : Cell := { c with link := 0 }

/-- The leftmost `cols` cells of a row, behind those already cut. -/
def pushRow (s : ScreenState) (cols : UInt16) (cells : List Cell) (r : Nat) : List Cell :=
  let row := s.row r
  let cells := cells ++ (row.take cols.toNat).map unlinked
  if 0 < cols ∧ cols < s.cols ∧ (row[cols.toNat]?).any isCont = true then onLast blanked cells
  else cells

/-- The first row that is shown. -/
def windowTop (s : ScreenState) (rows : UInt16) : UInt16 :=
  if s.cursor.visible then
    min (saturatingSub16 (saturatingAdd16 s.cursor.row 1) rows) (s.rows - rows)
  else 0

/-- At most `size` of this screen. -/
def window (s : ScreenState) (size : TermSize) : ScreenState :=
  let rows := min s.rows size.rows
  let cols := min s.cols size.cols
  let top := s.windowTop rows
  { seq := 1
    rows := rows
    cols := cols
    cells := (List.range rows.toNat).foldl (fun cells i => s.pushRow cols cells (top.toNat + i)) []
    cursor :=
      if rows = 0 ∨ cols = 0 then { s.cursor with row := 0, col := 0 }
      else
        { s.cursor with
          row := min (saturatingSub16 s.cursor.row top) (rows - 1)
          col := min s.cursor.col (cols - 1) }
    modes := {}
    title := []
    bell := 0
    scrollbackLen := 0
    clipboard := {}
    links := ∅ }

section Rows
variable (s : ScreenState)

def cutRow (cols : UInt16) (r : Nat) : List Cell :=
  if 0 < cols ∧ cols < s.cols ∧ ((s.row r)[cols.toNat]?).any isCont = true then
    onLast blanked (((s.row r).take cols.toNat).map unlinked)
  else ((s.row r).take cols.toNat).map unlinked

theorem onLast_append (f : Cell → Cell) (front : List Cell) {back : List Cell} (some_ : back ≠ []) :
    onLast f (front ++ back) = front ++ onLast f back := by
  induction front with
  | nil => rfl
  | cons c front ih =>
      cases rest : front ++ back with
      | nil => exact absurd (List.append_eq_nil_iff.mp rest).2 some_
      | cons d cells =>
          rw [rest] at ih
          rw [List.cons_append, rest, onLast, ih, List.cons_append]

theorem length_onLast (f : Cell → Cell) (cells : List Cell) :
    (onLast f cells).length = cells.length := by
  fun_induction onLast f cells with
  | case1 => rfl
  | case2 => rfl
  | case3 c d cells ih =>
      rw [List.length_cons, ih]
      rfl

theorem getElem?_onLast (f : Cell → Cell) (cells : List Cell) (i : Nat) :
    (onLast f cells)[i]? = if i + 1 = cells.length then (cells[i]?).map f else cells[i]? := by
  fun_induction onLast f cells generalizing i with
  | case1 => rfl
  | case2 c =>
      cases i with
      | zero => rfl
      | succ i => rfl
  | case3 c d cells ih =>
      cases i with
      | zero => rfl
      | succ i =>
          rw [List.getElem?_cons_succ, ih, List.getElem?_cons_succ]
          simp only [List.length_cons, Nat.add_right_cancel_iff]

variable {s}

theorem pushRow_eq (valid : s.Valid) {cols : UInt16} (cells : List Cell) {r : Nat}
    (inside : r < s.rows.toNat) :
    s.pushRow cols cells r = cells ++ s.cutRow cols r := by
  by_cases cut : 0 < cols ∧ cols < s.cols ∧ ((s.row r)[cols.toNat]?).any isCont = true
  · simp only [pushRow, cutRow, if_pos cut]
    apply onLast_append
    have length := Sync.length_row valid inside
    have positive := UInt16.lt_iff_toNat_lt.mp cut.1
    have narrower := UInt16.lt_iff_toNat_lt.mp cut.2.1
    intro empty
    have none_ := congrArg List.length empty
    rw [List.length_map, List.length_take, length, List.length_nil] at none_
    change 0 < cols.toNat at positive
    omega
  · simp only [pushRow, cutRow, if_neg cut]

theorem length_cutRow (valid : s.Valid) {cols : UInt16} (fits : cols ≤ s.cols) {r : Nat}
    (inside : r < s.rows.toNat) : (s.cutRow cols r).length = cols.toNat := by
  have length := Sync.length_row valid inside
  have narrower := UInt16.le_iff_toNat_le.mp fits
  have plain : (((s.row r).take cols.toNat).map unlinked).length = cols.toNat := by
    rw [List.length_map, List.length_take, length]
    omega
  unfold cutRow
  split
  · rw [length_onLast, plain]
  · exact plain

theorem foldl_pushRow (valid : s.Valid) (cols : UInt16) {top n : Nat} (cells : List Cell)
    (inside : top + n ≤ s.rows.toNat) :
    (List.range n).foldl (fun cells i => s.pushRow cols cells (top + i)) cells =
      cells ++ (List.range n).flatMap fun i => s.cutRow cols (top + i) := by
  induction n with
  | zero => exact (List.append_nil _).symm
  | succ n ih =>
      rw [List.range_succ, List.foldl_append, ih (by omega), List.flatMap_append,
        List.flatMap_singleton, ← List.append_assoc]
      exact pushRow_eq valid _ (by omega)

theorem length_chunks {α : Type} {f : Nat → List α} {n width : Nat}
    (each : ∀ i < n, (f i).length = width) : ((List.range n).flatMap f).length = n * width := by
  induction n with
  | zero => rw [Nat.zero_mul]; rfl
  | succ n ih =>
      rw [List.range_succ, List.flatMap_append, List.length_append, List.flatMap_singleton,
        ih fun i small => each i (by omega), each n (by omega), Nat.succ_mul]

theorem chunk_at {α : Type} {f : Nat → List α} {n width i : Nat}
    (each : ∀ i < n, (f i).length = width) (small : i < n) :
    (((List.range n).flatMap f).drop (i * width)).take width = f i := by
  induction n with
  | zero => omega
  | succ n ih =>
      have front := length_chunks fun i small => each i (Nat.lt_succ_of_lt small)
      rw [List.range_succ, List.flatMap_append, List.flatMap_singleton]
      by_cases last : i = n
      · subst last
        rw [← front, List.drop_left, ← each i (by omega), List.take_length]
      · have room : (i + 1) * width ≤ n * width := Nat.mul_le_mul_right width (by omega)
        rw [Nat.succ_mul] at room
        have earlier := ih (fun i small => each i (Nat.lt_succ_of_lt small)) (by omega)
        have inner : width ≤ (((List.range n).flatMap f).drop (i * width)).length := by
          rw [List.length_drop, front]
          omega
        rw [List.drop_append_of_le_length (by rw [front]; omega),
          List.take_append_of_le_length inner, earlier]

end Rows

section Geometry
variable (s : ScreenState) (size : TermSize)

theorem toNat_min16 (a b : UInt16) : (min a b).toNat = min a.toNat b.toNat := by
  change (if a ≤ b then a else b).toNat = _
  by_cases below : a ≤ b
  · rw [if_pos below]
    exact (Nat.min_eq_left (UInt16.le_iff_toNat_le.mp below)).symm
  · rw [if_neg below]
    exact (Nat.min_eq_right (UInt16.le_iff_toNat_le.mp (UInt16.le_of_lt (UInt16.not_le.mp below)))).symm

theorem min16_le_left (a b : UInt16) : min a b ≤ a := by
  rw [UInt16.le_iff_toNat_le, toNat_min16]
  exact Nat.min_le_left _ _

theorem min16_le_right (a b : UInt16) : min a b ≤ b := by
  rw [UInt16.le_iff_toNat_le, toNat_min16]
  exact Nat.min_le_right _ _

theorem toNat_saturatingAdd16 (a b : UInt16) :
    (saturatingAdd16 a b).toNat = min (a.toNat + b.toNat) 65535 := by
  rw [saturatingAdd16, UInt16.toNat_ofNat']
  exact Nat.mod_eq_of_lt (by omega)

theorem toNat_saturatingSub16 (a b : UInt16) :
    (saturatingSub16 a b).toNat = a.toNat - b.toNat := by
  have bound := a.toNat_lt
  rw [saturatingSub16, UInt16.toNat_ofNat']
  exact Nat.mod_eq_of_lt (by omega)

/-- The rows that end at the cursor's while it is visible, else the top rows. -/
def firstShown : Nat :=
  if s.cursor.visible then s.cursor.row.toNat + 1 - min s.rows.toNat size.rows.toNat else 0

variable {s size}

theorem clamp_saturated {row rows limit : Nat} (k : Nat) (first : row ≤ limit)
    (second : rows ≤ limit) :
    min (min (row + 1) limit - k) (rows - k) = min (row + 1 - k) (rows - k) := by
  omega

theorem windowTop_toNat : (s.windowTop (min s.rows size.rows)).toNat =
    min (s.firstShown size) (s.rows.toNat - min s.rows.toNat size.rows.toNat) := by
  have fewer : min s.rows size.rows ≤ s.rows := min16_le_left _ _
  have difference : (s.rows - min s.rows size.rows).toNat =
      s.rows.toNat - min s.rows.toNat size.rows.toNat := by
    rw [UInt16.toNat_sub_of_le _ _ fewer, toNat_min16]
  have row := s.cursor.row.toNat_lt
  have rows := s.rows.toNat_lt
  unfold windowTop firstShown
  split
  · have one : (1 : UInt16).toNat = 1 := UInt16.toNat_one
    rw [toNat_min16, difference, toNat_saturatingSub16, toNat_saturatingAdd16, toNat_min16, one]
    exact clamp_saturated _ (Nat.le_of_lt_succ row) (Nat.le_of_lt_succ rows)
  · exact (Nat.zero_min _).symm

theorem windowTop_eq (valid : s.Valid) (cells : s.expected ≠ 0) :
    (s.windowTop (min s.rows size.rows)).toNat = s.firstShown size ∧
      s.firstShown size + min s.rows.toNat size.rows.toNat ≤ s.rows.toNat := by
  have inside := UInt16.lt_iff_toNat_lt.mp (valid.cursor.resolve_left cells).1
  have top := @windowTop_toNat s size
  have shown : s.firstShown size + min s.rows.toNat size.rows.toNat ≤ s.rows.toNat := by
    unfold firstShown
    split
    · omega
    · omega
  exact ⟨by omega, shown⟩

theorem top_inside :
    (s.windowTop (min s.rows size.rows)).toNat + (min s.rows size.rows).toNat ≤ s.rows.toNat := by
  rw [windowTop_toNat, toNat_min16]
  omega

theorem window_cells (valid : s.Valid) :
    (s.window size).cells = (List.range (min s.rows size.rows).toNat).flatMap fun i =>
      s.cutRow (min s.cols size.cols) ((s.windowTop (min s.rows size.rows)).toNat + i) :=
  foldl_pushRow valid _ [] top_inside

theorem length_window_row (valid : s.Valid) {i : Nat} (small : i < (min s.rows size.rows).toNat) :
    (s.cutRow (min s.cols size.cols)
      ((s.windowTop (min s.rows size.rows)).toNat + i)).length = (min s.cols size.cols).toNat := by
  have within := @top_inside s size
  exact length_cutRow valid (min16_le_left _ _) (by omega)

theorem window_row (valid : s.Valid) {i : Nat} (small : i < (min s.rows size.rows).toNat) :
    (s.window size).row i =
      s.cutRow (min s.cols size.cols) ((s.windowTop (min s.rows size.rows)).toNat + i) := by
  rw [ScreenState.row, window_cells valid]
  exact chunk_at (fun _ inside => length_window_row valid inside) small

/-- A cell of the window is one of the screen, or a space. -/
theorem mem_window_cells (valid : s.Valid) {cell : Cell} (member : cell ∈ (s.window size).cells) :
    cell.link = 0 ∧ (cell.text = [' '] ∨ ∃ old ∈ s.cells, cell.text = old.text) := by
  have plain : ∀ r, ∀ c ∈ ((s.row r).take (min s.cols size.cols).toNat).map unlinked,
      c.link = 0 ∧ ∃ old ∈ s.cells, c.text = old.text := by
    intro r c inside
    obtain ⟨old, place, rfl⟩ := List.mem_map.mp inside
    exact ⟨rfl, old, List.mem_of_mem_drop (List.mem_of_mem_take (List.mem_of_mem_take place)), rfl⟩
  rw [window_cells valid] at member
  obtain ⟨i, _, inside⟩ := List.mem_flatMap.mp member
  unfold cutRow at inside
  split at inside
  · obtain ⟨j, place⟩ := List.mem_iff_getElem?.mp inside
    rw [getElem?_onLast] at place
    split at place
    · obtain ⟨old, found, rfl⟩ := Option.map_eq_some_iff.mp place
      exact ⟨(plain _ old (List.mem_of_getElem? found)).1, .inl rfl⟩
    · obtain ⟨link, old⟩ := plain _ cell (List.mem_of_getElem? place)
      exact ⟨link, .inr old⟩
  · obtain ⟨link, old⟩ := plain _ cell inside
    exact ⟨link, .inr old⟩

theorem window_valid (valid : s.Valid) : (s.window size).Valid := by
  have rows : (s.window size).rows.toNat ≤ s.rows.toNat :=
    UInt16.le_iff_toNat_le.mp (min16_le_left s.rows size.rows)
  have cols : (s.window size).cols.toNat ≤ s.cols.toNat :=
    UInt16.le_iff_toNat_le.mp (min16_le_left s.cols size.cols)
  have bounds : (s.window size).size.checkBounds = .ok () := by
    have all := valid.bounds
    simp only [TermSize.checkBounds, refuse_ok, not_or, gt_iff_lt, UInt16.not_lt, Nat.not_lt] at all ⊢
    exact ⟨UInt16.le_trans (min16_le_left _ _) all.1, UInt16.le_trans (min16_le_left _ _) all.2.1,
      (Nat.mul_le_mul rows cols).trans all.2.2⟩
  have blank := blankState_valid bounds
  have seq : (1 : UInt64) ≠ 0 := by decide
  refine ⟨bounds, ?_, seq, ?_, ?_, blank.title, rfl, blank.links, ?_⟩
  · rw [window_cells valid]
    exact length_chunks fun _ inside => length_window_row valid inside
  · by_cases empty : min s.rows size.rows = 0 ∨ min s.cols size.cols = 0
    · left
      change (min s.rows size.rows).toNat * (min s.cols size.cols).toNat = 0
      cases empty with
      | inl none_ =>
          rw [none_]
          exact Nat.zero_mul _
      | inr none_ =>
          rw [none_]
          exact Nat.mul_zero _
    · right
      have some_ := not_or.mp empty
      have height := UInt16.pos_iff_ne_zero.mpr some_.1
      have breadth := UInt16.pos_iff_ne_zero.mpr some_.2
      have below : ∀ a b : UInt16, 0 < b → min a (b - 1) < b := by
        intro a b positive
        refine UInt16.lt_of_le_of_lt (min16_le_right _ _) (UInt16.lt_iff_toNat_lt.mpr ?_)
        have one : (1 : UInt16) ≤ b := UInt16.le_iff_toNat_le.mpr (UInt16.lt_iff_toNat_lt.mp positive)
        have large := UInt16.lt_iff_toNat_lt.mp positive
        rw [UInt16.toNat_sub_of_le _ _ one]
        change b.toNat - 1 < b.toNat
        change 0 < b.toNat at large
        omega
      simp only [window, if_neg empty]
      exact ⟨below _ _ height, below _ _ breadth⟩
  · intro cell member
    obtain ⟨_, space | ⟨old, inside, same⟩⟩ := mem_window_cells valid member
    · rw [space]
      decide
    · rw [same]
      exact valid.text old inside
  · intro cell member
    exact .inl (mem_window_cells valid member).1

end Geometry

end Oxutrm.Proto.ScreenState

namespace Oxutrm.Host
open Proto ScreenState
open Paint (isCont contAt blanked)

section Cut
variable {κ : Type} {width : Text → Nat} {toProtoColor : κ → Color} {g : Grid κ width}
  {s : ScreenState} {size : TermSize}

/-- A cell of a row of the window, as the code cuts it. -/
theorem cutRow_at (valid : s.Valid) {cols : UInt16} {r c : Nat} {cell : Cell}
    (inside : r < s.rows.toNat) (fits : cols ≤ s.cols) (below : c < cols.toNat)
    (found : (s.row r)[c]? = some cell) :
    (s.cutRow cols r)[c]? = some (unlinked
      (if c + 1 = cols.toNat ∧ contAt (s.row r) cols.toNat = true then blanked cell else cell)) := by
  have length := Sync.length_row valid inside
  have narrower := UInt16.le_iff_toNat_le.mp fits
  have plain : (((s.row r).take cols.toNat).map unlinked)[c]? = some (unlinked cell) := by
    rw [List.getElem?_map, List.getElem?_take_of_lt below, found]
    rfl
  have count : (((s.row r).take cols.toNat).map unlinked).length = cols.toNat := by
    rw [List.length_map, List.length_take, length]
    omega
  unfold cutRow
  cases cont : ((s.row r)[cols.toNat]?).any isCont with
  | false =>
      rw [if_neg (by simp), plain, if_neg (by simp [contAt, cont])]
  | true =>
      have beyond : cols.toNat < s.cols.toNat := by
        cases place : (s.row r)[cols.toNat]? with
        | none =>
            rw [place] at cont
            cases cont
        | some _ =>
            have bound := (List.getElem?_eq_some_iff.mp place).1
            omega
      have cut : 0 < cols ∧ cols < s.cols ∧ true = true := by
        refine ⟨UInt16.lt_iff_toNat_lt.mpr ?_, UInt16.lt_iff_toNat_lt.mpr beyond, rfl⟩
        change 0 < cols.toNat
        omega
      rw [if_pos cut, getElem?_onLast, count, plain]
      by_cases last : c + 1 = cols.toNat
      · rw [if_pos last, if_pos ⟨last, cont⟩]
        rfl
      · rw [if_neg last, if_neg fun both => last both.1]

theorem contAt_cut (shows : Shows toProtoColor g s) {r c : Nat} (inside : r < s.rows.toNat) :
    contAt (s.row r) (c + 1) = (((g.strip r)[c]?).any (·.flags.wideChar) ||
      ((g.strip r)[c + 1]?).any (·.flags.leadingWideCharSpacer)) := by
  rw [shows.rows] at inside
  have pair : ((g.strip r)[c + 1]?).any (·.flags.wideCharSpacer) =
      ((g.strip r)[c]?).any (·.flags.wideChar) := (g.laid r inside).pairs c
  have converted : Converted toProtoColor (g.strip r) (s.row r) := Paint.converted_row shows r
  rw [converted.contAt, ← pair]
  cases (g.strip r)[c + 1]? with
  | none => rfl
  | some vte => rfl

theorem padding_alone (shows : Shows toProtoColor g s) {r c : Nat} (inside : r < s.rows.toNat)
    (padding : ((g.strip r)[c + 1]?).any (·.flags.leadingWideCharSpacer) = true) :
    ((g.strip r)[c]?).any (·.flags.wideChar) = false := by
  rw [shows.rows] at inside
  have laid := g.laid r inside
  refine (laid.pairs c).symm.trans ?_
  change ((g.strip r)[c + 1]?).any _ = false
  cases place : (g.strip r)[c + 1]? with
  | none => rfl
  | some vte =>
      rw [place] at padding
      exact laid.apart vte (List.mem_of_getElem? place) padding

end Cut

section Faithful
variable {κ : Type} {width : Text → Nat} (g : Grid κ width) (s : ScreenState) (size : TermSize)

/-- A window that is a faithful cut of the screen the emulator shows. -/
structure Faithful : Prop where
  valid : (s.window size).validate = .ok ()
  rows : (s.window size).rows = min s.rows size.rows
  cols : (s.window size).cols = min s.cols size.cols
  bare : (s.window size).title = [] ∧ (s.window size).links = ∅ ∧ (s.window size).bell = 0 ∧
    (s.window size).scrollbackLen = 0 ∧ (s.window size).clipboard = { serial := 0, copy := none }
  cursor : s.cursor.visible = true → s.expected ≠ 0 → 0 < size.rows →
    s.firstShown size ≤ s.cursor.row.toNat ∧
    s.cursor.row.toNat < s.firstShown size + (s.window size).rows.toNat ∧
    (0 < size.cols →
      s.firstShown size + (s.window size).cursor.row.toNat = s.cursor.row.toNat ∧
      (s.window size).cursor.col.toNat =
        min s.cursor.col.toNat ((s.window size).cols.toNat - 1))
  cells : ∀ (r c : Nat) (cell : Cell), r < (s.window size).rows.toNat →
    c < (s.window size).cols.toNat → (s.row (s.firstShown size + r))[c]? = some cell →
    ((s.window size).row r)[c]? = some
      (if c + 1 = (s.window size).cols.toNat ∧
          ((g.strip (s.firstShown size + r))[c]?).any (·.flags.wideChar) = true then
        { cell with text := [' '], attrs := 0, link := 0 }
      else { cell with link := 0 })

/-- Where a padding stands right behind the cut, the cell before it is a plain space. -/
def Clear : Prop :=
  0 < min s.cols.toNat size.cols.toNat → ∀ r < min s.rows.toNat size.rows.toNat,
    ((g.strip (s.firstShown size + r))[min s.cols.toNat size.cols.toNat]?).any
      (·.flags.leadingWideCharSpacer) = true →
    ∀ cell, (s.row (s.firstShown size + r))[min s.cols.toNat size.cols.toNat - 1]? = some cell →
      cell.text = [' '] ∧ cell.attrs = 0

variable {g s size} {toProtoColor : κ → Color}

theorem window_at (valid : s.Valid) (shows : Shows toProtoColor g s) {r c : Nat} {cell : Cell}
    (inside : r < min s.rows.toNat size.rows.toNat) (below : c < min s.cols.toNat size.cols.toNat)
    (found : (s.row (s.firstShown size + r))[c]? = some cell) :
    s.firstShown size + r < s.rows.toNat ∧
    ((s.window size).row r)[c]? = some (unlinked
      (if c + 1 = min s.cols.toNat size.cols.toNat ∧
          (((g.strip (s.firstShown size + r))[c]?).any (·.flags.wideChar) ||
            ((g.strip (s.firstShown size + r))[c + 1]?).any (·.flags.leadingWideCharSpacer)) = true
        then blanked cell else cell)) := by
  have some_ : s.expected ≠ 0 := Nat.mul_ne_zero (by omega) (by omega)
  obtain ⟨top, shown⟩ := @windowTop_eq s size valid some_
  have height : (min s.rows size.rows).toNat = min s.rows.toNat size.rows.toNat := toNat_min16 _ _
  have breadth : (min s.cols size.cols).toNat = min s.cols.toNat size.cols.toNat := toNat_min16 _ _
  have place : s.firstShown size + r < s.rows.toNat := by omega
  refine ⟨place, ?_⟩
  have cell := @cutRow_at s valid (min s.cols size.cols) _ c cell place (min16_le_left _ _)
    (by omega) found
  rw [window_row valid (by omega), top, cell, breadth]
  by_cases last : c + 1 = min s.cols.toNat size.cols.toNat
  · rw [← last, contAt_cut shows place]
  · rw [if_neg fun both => last both.1, if_neg fun both => last both.1]

/-- The place of the cursor, where the window has one for it. -/
theorem window_cursor (valid : s.Valid) (visible : s.cursor.visible = true) (some_ : s.expected ≠ 0)
    (room : 0 < size.rows) :
    s.firstShown size ≤ s.cursor.row.toNat ∧
    s.cursor.row.toNat < s.firstShown size + (s.window size).rows.toNat ∧
    (0 < size.cols →
      s.firstShown size + (s.window size).cursor.row.toNat = s.cursor.row.toNat ∧
      (s.window size).cursor.col.toNat =
        min s.cursor.col.toNat ((s.window size).cols.toNat - 1)) := by
  have height : (min s.rows size.rows).toNat = min s.rows.toNat size.rows.toNat := toNat_min16 _ _
  have breadth : (min s.cols size.cols).toNat = min s.cols.toNat size.cols.toNat := toNat_min16 _ _
  obtain ⟨top, shown⟩ := @windowTop_eq s size valid some_
  have inner := valid.cursor.resolve_left some_
  have row := UInt16.lt_iff_toNat_lt.mp inner.1
  have col := UInt16.lt_iff_toNat_lt.mp inner.2
  have positive : 0 < size.rows.toNat := UInt16.lt_iff_toNat_lt.mp room
  have first : s.firstShown size = s.cursor.row.toNat + 1 - min s.rows.toNat size.rows.toNat := by
    rw [firstShown, if_pos visible]
  refine ⟨by omega, ?_, fun wide => ?_⟩
  · change s.cursor.row.toNat < s.firstShown size + (min s.rows size.rows).toNat
    omega
  · have positive' : 0 < size.cols.toNat := UInt16.lt_iff_toNat_lt.mp wide
    have nonempty : ¬ (min s.rows size.rows = 0 ∨ min s.cols size.cols = 0) := by
      rintro (none_ | none_)
      · rw [none_] at height
        change 0 = _ at height
        omega
      · rw [none_] at breadth
        change 0 = _ at breadth
        omega
    have less : ∀ b : UInt16, 0 < b.toNat → (b - 1).toNat = b.toNat - 1 := fun b large =>
      UInt16.toNat_sub_of_le _ _ (UInt16.le_iff_toNat_le.mpr large)
    simp only [window, if_neg nonempty]
    rw [toNat_min16, toNat_min16, toNat_saturatingSub16, top, less _ (by omega), less _ (by omega)]
    constructor
    · omega
    · rfl

/-- Two ways to lose a cell are the same where only a right half, or a plain space, is lost. -/
theorem cut_eq {last wide padding : Bool} {cell : Cell} (narrow : padding = true → wide = false)
    (plain : last = true → padding = true → cell.text = [' '] ∧ cell.attrs = 0) :
    unlinked (if last = true ∧ (wide || padding) = true then blanked cell else cell) =
      if last = true ∧ wide = true then { cell with text := [' '], attrs := 0, link := 0 }
      else { cell with link := 0 } := by
  cases last with
  | false => rw [if_neg fun both => Bool.false_ne_true both.1, if_neg fun both =>
      Bool.false_ne_true both.1, unlinked]
  | true =>
      cases padding with
      | false =>
          rw [Bool.or_false]
          cases wide with
          | false => rfl
          | true => rfl
      | true =>
          obtain ⟨text, attrs⟩ := plain rfl rfl
          rw [narrow rfl, if_pos ⟨rfl, rfl⟩, if_neg fun both => Bool.false_ne_true both.2, unlinked,
            blanked, ← text, ← attrs]

end Faithful

/-- The window of a screen the host made is a faithful cut exactly if no padding behind the
cut costs the cell before it. -/
theorem window_is_a_faithful_cut {κ : Type} {width : Text → Nat} {toProtoColor : κ → Color}
    {g : Grid κ width} {s : ScreenState} (valid : s.validate = .ok ())
    (shows : Shows toProtoColor g s) (size : TermSize) : Faithful g s size ↔ Clear g s size := by
  have known := (validate_ok s).mp valid
  have height : (min s.rows size.rows).toNat = min s.rows.toNat size.rows.toNat := toNat_min16 _ _
  have breadth : (min s.cols size.cols).toNat = min s.cols.toNat size.cols.toNat := toNat_min16 _ _
  constructor
  · intro faithful some_ r inside padding cell found
    obtain ⟨place, cut⟩ := window_at known shows inside (by omega) found
    have last : min s.cols.toNat size.cols.toNat - 1 + 1 = min s.cols.toNat size.cols.toNat := by
      omega
    have claimed := faithful.cells r (min s.cols.toNat size.cols.toNat - 1) cell
      (by rw [faithful.rows, height]; exact inside) (by rw [faithful.cols, breadth]; omega) found
    rw [← last] at padding
    have narrow := padding_alone shows place padding
    rw [cut, narrow, padding, if_pos ⟨last, rfl⟩, if_neg fun both => Bool.false_ne_true both.2]
      at claimed
    have same := Option.some.inj claimed
    exact ⟨(congrArg Cell.text same).symm, (congrArg Cell.attrs same).symm⟩
  · intro clear
    refine ⟨(validate_ok _).mpr (window_valid known), rfl, rfl, ⟨rfl, rfl, rfl, rfl, rfl⟩,
      window_cursor known, ?_⟩
    intro r c cell inside below found
    change r < (min s.rows size.rows).toNat at inside
    change c < (min s.cols size.cols).toNat at below
    rw [height] at inside
    rw [breadth] at below
    obtain ⟨place, cut⟩ := window_at known shows inside below found
    have column : (s.window size).cols.toNat = min s.cols.toNat size.cols.toNat := breadth
    rw [cut]
    simp only [column]
    have same := @cut_eq (decide (c + 1 = min s.cols.toNat size.cols.toNat)) _ _ cell
      (padding_alone shows place) fun last padding => by
        have behind := of_decide_eq_true last
        rw [behind] at padding
        exact clear (by omega) r inside padding cell
          (by rw [show min s.cols.toNat size.cols.toNat - 1 = c by omega]; exact found)
    simp only [decide_eq_true_iff] at same
    exact congrArg some same

namespace Previewed
open Paint (ideographWidth)
open Paint.Wrapped (letter letters letter_b_plain broken screenOf shows_screenOf)

/-- Four letters, of which the left two are shown. -/
theorem window_of_letters :
    Faithful (letters 'b' letter_b_plain) (screenOf (letters 'b' letter_b_plain)) ⟨1, 2⟩ :=
  (window_is_a_faithful_cut (by decide +kernel) (shows_screenOf _) _).mpr
    fun _ r inside padding => by
      match r with
      | 0 => cases padding
      | 1 => cases padding
      | r + 2 =>
          change r + 2 < 2 at inside
          omega

/-- The letter before the placeholder is shown as a space. -/
theorem window_drops_a_letter :
    Shows (fun _ => .default) broken (screenOf broken) ∧ (screenOf broken).validate = .ok () ∧
      ((screenOf broken).row 0)[0]?.map (·.text) = some ['a'] ∧
      (((screenOf broken).window ⟨1, 2⟩).row 0)[0]?.map (·.text) = some [' '] ∧
      ¬ Faithful broken (screenOf broken) ⟨1, 2⟩ := by
  have before : ((screenOf broken).row 0)[0]? = some
      (convertCell (fun _ => Color.default) false (letter 'a')) := rfl
  have after : (((screenOf broken).window ⟨1, 2⟩).row 0)[0]?.map (·.text) = some [' '] := by
    decide +kernel
  refine ⟨shows_screenOf _, by decide +kernel, by decide +kernel, after, fun faithful => ?_⟩
  have kept := faithful.cells 0 0 _ (by decide) (by decide) before
  rw [kept, if_neg fun both => Bool.false_ne_true both.2] at after
  exact absurd after (by decide +kernel)

end Previewed
end Oxutrm.Host
