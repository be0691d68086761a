import Oxutrm.Paint.Incremental

/-!
The popup over the screen. Every index is in range, every row it touched is made of whole
glyphs afterwards, and only the halves of broken pairs differ from what was laid there.
One pass is enough: what it has already repaired never changes its mind about the rest.
-/
namespace Oxutrm.Paint
open Proto

/-- Half a glyph becomes a blank in its own colours. -/
def blanked (cell : Cell) : Cell := { cell with text := [' '], attrs := 0 }

section Indexed
variable (width : Text → Nat)

/-- `repairCell` as the source indexes, nothing where an index is out of range. -/
def repairCellAt (cols base : Nat) (cells : List Cell) (c : Nat) : Option (List Cell) := do
  let cell ← cells[base + c]?
  let broken ←
    if isCont cell then
      if c = 0 then some true
      else do
        let before ← cells[base + c - 1]?
        some (!isWideLead width before)
    else if isWideLead width cell then
      if c + 1 ≥ cols then some true
      else do
        let after ← cells[base + c + 1]?
        some (!isCont after)
    else some false
  some (if broken then cells.set (base + c) (blanked cell) else cells)

def repairWidePairsAt (cells : List Cell) (cols row : Nat) : Option (List Cell) :=
  (List.range cols).foldlM (repairCellAt width cols (row * cols)) cells

def stampCellAt (o : Overlay) (cols r screenRow : Nat) (cells : List Cell) (c : Nat) : Option (List Cell) := do
  let cell ← o.cells[r * o.cols.toNat + c]?
  if screenRow * cols + saturatingAdd o.col.toNat c < cells.length then
    some (cells.set (screenRow * cols + saturatingAdd o.col.toNat c) { cell with link := 0 })
  else none

def stampRowAt (o : Overlay) (cols : Nat) (cells : List Cell) (r : Nat) : Option (List Cell) := do
  let screenRow := saturatingAdd o.row.toNat r
  let stamped ← ((List.range o.cols.toNat).takeWhile
    fun c => decide (saturatingAdd o.col.toNat c < cols)).foldlM (stampCellAt o cols r screenRow) cells
  repairWidePairsAt width stamped cols screenRow

def compositeAt (o : Overlay) (s : ScreenState) : Option (List Cell) :=
  ((List.range o.rows.toNat).takeWhile
    fun r => decide (saturatingAdd o.row.toNat r < s.rows.toNat)).foldlM (stampRowAt width o s.cols.toNat) s.cells

end Indexed

/-- A right half exactly to the right of each two-column cell. -/
structure Paired (width : Text → Nat) (desired : List Cell) : Prop where
  first : contAt desired 0 = false
  pairs : ∀ col, contAt desired (col + 1) = leadAt width desired col

/-- Half of a broken pair in a row: a right half without its left half, or the reverse. -/
def brokenAt (width : Text → Nat) (desired : List Cell) (col : Nat) : Bool :=
  if contAt desired col then col == 0 || !leadAt width desired (col - 1)
  else leadAt width desired col && !contAt desired (col + 1)

section Repair
variable {width : Text → Nat}

theorem isCont_blanked (cell : Cell) : isCont (blanked cell) = false := by
  have none : contains 0 Attrs.wideCont = false := by decide
  exact none

theorem isWideLead_blanked (space : width [' '] = 1) (cell : Cell) : isWideLead width (blanked cell) = false := by
  have narrow : (width (blanked cell).text == 2) = false := by rw [blanked, space]; rfl
  rw [isWideLead, narrow, Bool.and_false]

theorem contAt_isCont {desired : List Cell} {col : Nat} {cell : Cell} (found : desired[col]? = some cell) :
    contAt desired col = isCont cell := by
  rw [contAt, found, Option.any_some]

theorem leadAt_isWideLead {desired : List Cell} {col : Nat} {cell : Cell} (found : desired[col]? = some cell) :
    leadAt width desired col = isWideLead width cell := by
  rw [leadAt, found, Option.any_some]

theorem leadAt_of_contAt {desired : List Cell} {col : Nat} (cont : contAt desired col = true) :
    leadAt width desired col = false := by
  rw [contAt] at cont
  rw [leadAt]
  cases found : desired[col]? with
  | none => rfl
  | some cell =>
      rw [found, Option.any_some] at cont
      rw [Option.any_some, isWideLead, cont, Bool.not_true, Bool.false_and]

theorem rowOf_get {cells : List Cell} {cols row col : Nat} (inside : col < cols) :
    (rowOf cells cols row)[col]? = cells[row * cols + col]? := by
  rw [rowOf, List.getElem?_take, if_pos inside, List.getElem?_drop]

theorem rowOf_past {cells : List Cell} {cols row col : Nat} (outside : cols ≤ col) :
    (rowOf cells cols row)[col]? = none := by
  rw [rowOf, List.getElem?_take, if_neg (Nat.not_lt.mpr outside)]

/-- The cells after the first columns of the row have been repaired, told from the row
as it was. -/
def repairedTo (width : Text → Nat) (cells : List Cell) (cols row done i : Nat) : Option Cell :=
  if row * cols ≤ i ∧ i < row * cols + done ∧ brokenAt width (rowOf cells cols row) (i - row * cols) then
    cells[i]?.map blanked
  else cells[i]?

theorem repairCellAt_eq {cols base c : Nat} {cells : List Cell} (room : base + cols ≤ cells.length)
    (inside : c < cols) : repairCellAt width cols base cells c = some (repairCell width cols base cells c) := by
  have present : ∀ {i}, i < base + cols → ∃ cell, cells[i]? = some cell := fun low =>
    ⟨_, List.getElem?_eq_getElem (Nat.lt_of_lt_of_le low room)⟩
  obtain ⟨cell, here⟩ := present (show base + c < base + cols by omega)
  unfold repairCellAt repairCell
  rw [here]
  cases cont : isCont cell with
  | true =>
      by_cases first : c = 0
      · simp [cont, first, blanked]
      · obtain ⟨before, left⟩ := present (show base + c - 1 < base + cols by omega)
        simp [cont, first, left, blanked]
  | false =>
      cases lead : isWideLead width cell with
      | false => simp [cont, lead]
      | true =>
          by_cases last : c + 1 ≥ cols
          · simp [cont, lead, last, blanked]
          · obtain ⟨after, right⟩ := present (show base + c + 1 < base + cols by omega)
            simp [cont, lead, last, right, blanked]

/-- A left half that was repaired was none for the column after it either. -/
theorem lead_repaired (space : width [' '] = 1) {cells : List Cell} {cols row col : Nat} (inside : col + 1 < cols)
    (cont : contAt (rowOf cells cols row) (col + 1) = true) :
    (repairedTo width cells cols row (col + 1) (row * cols + col)).any (isWideLead width) =
      leadAt width (rowOf cells cols row) col := by
  have place := @rowOf_get cells cols row col (by omega)
  rw [repairedTo, Nat.add_sub_cancel_left]
  split
  next broken =>
      have none : leadAt width (rowOf cells cols row) col = false := by
        have half := broken.2.2
        rw [brokenAt] at half
        split at half
        next right => exact leadAt_of_contAt right
        next => simp [cont] at half
      rw [none]
      cases cells[row * cols + col]? with
      | none => rfl
      | some cell => exact isWideLead_blanked space cell
  next => rw [leadAt, place]

theorem repairCell_step (space : width [' '] = 1) {cells now : List Cell} {cols row c : Nat}
    (room : row * cols + cols ≤ cells.length) (inside : c < cols)
    (sofar : ∀ i, now[i]? = repairedTo width cells cols row c i) (i : Nat) :
    (repairCell width cols (row * cols) now c)[i]? = repairedTo width cells cols row (c + 1) i := by
  have place := @rowOf_get cells cols row c inside
  obtain ⟨cell, here⟩ : ∃ cell, cells[row * cols + c]? = some cell :=
    ⟨_, List.getElem?_eq_getElem (by omega)⟩
  rw [here] at place
  have found : now[row * cols + c]? = some cell := by
    rw [sofar, repairedTo, if_neg (by omega), here]
  have next : c + 1 < cols → (now[row * cols + c + 1]?).any isCont = contAt (rowOf cells cols row) (c + 1) := by
    intro more
    rw [sofar, repairedTo, if_neg (by omega), contAt, rowOf_get more]
    rfl
  -- what the loop sees of its neighbours is what stood there before it
  have broken : (if isCont cell then c == 0 || !((now[row * cols + c - 1]?).any (isWideLead width))
      else isWideLead width cell && (decide (c + 1 ≥ cols) || !((now[row * cols + c + 1]?).any isCont))) =
      brokenAt width (rowOf cells cols row) c := by
    rw [brokenAt, contAt_isCont place, leadAt_isWideLead place]
    cases cont : isCont cell with
    | true =>
        simp only [if_true]
        cases c with
        | zero => rfl
        | succ c =>
            have left := @lead_repaired width space cells cols row c inside (by rw [contAt_isCont place, cont])
            rw [← sofar] at left
            rw [show row * cols + (c + 1) - 1 = row * cols + c from rfl, left]
            rfl
    | false =>
        simp only [Bool.false_eq_true, if_false]
        by_cases last : c + 1 ≥ cols
        · have past : contAt (rowOf cells cols row) (c + 1) = false := by
            rw [contAt, rowOf_past last]
            rfl
          simp [last, past]
        · rw [next (by omega)]
          simp [last]
  rw [repairCell, found]
  simp only [broken]
  have same : i ≠ row * cols + c → now[i]? = repairedTo width cells cols row (c + 1) i := by
    intro other
    rw [sofar, repairedTo, repairedTo]
    refine if_congr ?_ rfl rfl
    constructor
    · rintro ⟨low, high, half⟩
      exact ⟨low, by omega, half⟩
    · rintro ⟨low, high, half⟩
      exact ⟨low, by omega, half⟩
  by_cases at_ : i = row * cols + c
  · subst at_
    rw [repairedTo, Nat.add_sub_cancel_left, here]
    cases brokenAt width (rowOf cells cols row) c with
    | true =>
        have bound := (List.getElem?_eq_some_iff.mp found).1
        simp [blanked, bound]
    | false => simp [found]
  · rw [← same at_]
    split
    · rw [List.getElem?_set_ne (Ne.symm at_)]
    · rfl

theorem length_repairCells (cols base : Nat) (cells : List Cell) (columns : List Nat) :
    (columns.foldl (repairCell width cols base) cells).length = cells.length := by
  induction columns generalizing cells with
  | nil => rfl
  | cons c columns ih =>
      rw [List.foldl_cons, ih]
      exact repairCell_invariant (P := fun now => now.length = cells.length)
        (fun now i cell kept _ => by rw [List.length_set]; exact kept) rfl

theorem length_repairWidePairs (cells : List Cell) (cols row : Nat) :
    (repairWidePairs width cells cols row).length = cells.length :=
  length_repairCells cols (row * cols) cells (List.range cols)

/-- The whole row at once: the halves are blanked, judged by the row as it was. -/
theorem repairWidePairs_get (space : width [' '] = 1) {cells : List Cell} {cols row : Nat}
    (room : row * cols + cols ≤ cells.length) (i : Nat) :
    (repairWidePairs width cells cols row)[i]? = repairedTo width cells cols row cols i := by
  have upto : ∀ done ≤ cols, ∀ i,
      ((List.range done).foldl (repairCell width cols (row * cols)) cells)[i]? =
        repairedTo width cells cols row done i := by
    intro done
    induction done with
    | zero =>
        intro _ i
        rw [repairedTo, if_neg (by omega)]
        rfl
    | succ done ih =>
        intro more i
        rw [List.range_succ, List.foldl_append]
        exact repairCell_step space room more (ih (Nat.le_of_succ_le more)) i
  exact upto cols (Nat.le_refl cols) i

theorem repairWidePairsAt_eq {cells : List Cell} {cols row : Nat} (room : row * cols + cols ≤ cells.length) :
    repairWidePairsAt width cells cols row = some (repairWidePairs width cells cols row) := by
  have upto : ∀ done ≤ cols,
      (List.range done).foldlM (repairCellAt width cols (row * cols)) cells =
        some ((List.range done).foldl (repairCell width cols (row * cols)) cells) := by
    intro done
    induction done with
    | zero => exact fun _ => rfl
    | succ done ih =>
        intro more
        rw [List.range_succ, List.foldlM_append, ih (Nat.le_of_succ_le more), List.foldl_append]
        simp only [Option.bind_eq_bind, Option.bind_some, List.foldlM_cons, List.foldlM_nil, List.foldl_cons,
          List.foldl_nil]
        rw [repairCellAt_eq (by rw [length_repairCells]; exact room) more]
        rfl
  exact upto cols (Nat.le_refl cols)

theorem rowOf_repaired (space : width [' '] = 1) {cells : List Cell} {cols row : Nat}
    (room : row * cols + cols ≤ cells.length) (col : Nat) :
    (rowOf (repairWidePairs width cells cols row) cols row)[col]? =
      if brokenAt width (rowOf cells cols row) col then (rowOf cells cols row)[col]?.map blanked
      else (rowOf cells cols row)[col]? := by
  by_cases inside : col < cols
  · rw [rowOf_get inside, rowOf_get inside, repairWidePairs_get space room, repairedTo, Nat.add_sub_cancel_left]
    refine if_congr ?_ rfl rfl
    exact ⟨fun half => half.2.2, fun half => ⟨Nat.le_add_right _ _, by omega, half⟩⟩
  · rw [rowOf_past (Nat.not_lt.mp inside), rowOf_past (Nat.not_lt.mp inside)]
    split <;> rfl

theorem contAt_repaired (space : width [' '] = 1) {cells : List Cell} {cols row : Nat}
    (room : row * cols + cols ≤ cells.length) (col : Nat) :
    contAt (rowOf (repairWidePairs width cells cols row) cols row) col =
      (contAt (rowOf cells cols row) col && !brokenAt width (rowOf cells cols row) col) := by
  rw [contAt, rowOf_repaired space room, contAt]
  cases brokenAt width (rowOf cells cols row) col with
  | true =>
      cases (rowOf cells cols row)[col]? with
      | none => rfl
      | some cell => simp [isCont_blanked]
  | false => simp

theorem leadAt_repaired (space : width [' '] = 1) {cells : List Cell} {cols row : Nat}
    (room : row * cols + cols ≤ cells.length) (col : Nat) :
    leadAt width (rowOf (repairWidePairs width cells cols row) cols row) col =
      (leadAt width (rowOf cells cols row) col && !brokenAt width (rowOf cells cols row) col) := by
  rw [leadAt, rowOf_repaired space room, leadAt]
  cases brokenAt width (rowOf cells cols row) col with
  | true =>
      cases (rowOf cells cols row)[col]? with
      | none => rfl
      | some cell => simp [isWideLead_blanked space]
  | false => simp

theorem paired_repaired (space : width [' '] = 1) {cells : List Cell} {cols row : Nat}
    (room : row * cols + cols ≤ cells.length) :
    Paired width (rowOf (repairWidePairs width cells cols row) cols row) := by
  refine ⟨?_, fun col => ?_⟩
  · rw [contAt_repaired space room, brokenAt]
    cases contAt (rowOf cells cols row) 0 with
    | true => rfl
    | false => rfl
  · rw [contAt_repaired space room, leadAt_repaired space room, brokenAt, brokenAt, Nat.add_sub_cancel]
    cases right : contAt (rowOf cells cols row) (col + 1) with
    | true =>
        cases lead : leadAt width (rowOf cells cols row) col with
        | true =>
            have left : contAt (rowOf cells cols row) col = false := by
              by_contra cont
              rw [leadAt_of_contAt (by simpa using cont)] at lead
              cases lead
            simp [left]
        | false => simp
    | false =>
        cases left : contAt (rowOf cells cols row) col with
        | true => simp [leadAt_of_contAt left]
        | false => simp

theorem Paired.brokenAt {desired : List Cell} (paired : Paired width desired) (col : Nat) :
    brokenAt width desired col = false := by
  rw [Paint.brokenAt]
  cases col with
  | zero =>
      rw [paired.first, if_neg (by simp), paired.pairs 0]
      simp
  | succ col =>
      rw [paired.pairs (col + 1), paired.pairs col]
      cases lead : leadAt width desired col with
      | true => simp [lead]
      | false => simp

theorem repairWidePairs_paired (space : width [' '] = 1) {cells : List Cell} {cols row : Nat}
    (room : row * cols + cols ≤ cells.length) (paired : Paired width (rowOf cells cols row)) :
    repairWidePairs width cells cols row = cells := by
  apply List.ext_getElem?
  intro i
  rw [repairWidePairs_get space room, repairedTo, paired.brokenAt, if_neg (by simp)]

theorem repairWidePairs_idempotent (space : width [' '] = 1) {cells : List Cell} {cols row : Nat}
    (room : row * cols + cols ≤ cells.length) :
    repairWidePairs width (repairWidePairs width cells cols row) cols row =
      repairWidePairs width cells cols row := by
  refine repairWidePairs_paired space ?_ (paired_repaired space room)
  rw [length_repairWidePairs]
  exact room

end Repair

theorem saturatingAdd_lt {a b m : Nat} (small : m ≤ 65535) : saturatingAdd a b < m ↔ a + b < m := by
  rw [saturatingAdd]
  omega

theorem takeWhile_clipped {a m : Nat} (small : m ≤ 65535) (n : Nat) :
    ((List.range n).takeWhile fun c => decide (saturatingAdd a c < m)) = List.range (min n (m - a)) := by
  induction n with
  | zero => simp
  | succ n ih =>
      rw [List.range_succ, List.takeWhile_append, ih, List.length_range, List.length_range]
      by_cases all : min n (m - a) = n
      · rw [if_pos all, List.takeWhile_cons, List.takeWhile_nil]
        by_cases inside : a + n < m
        · rw [if_pos (by simpa [saturatingAdd_lt small] using inside), show min (n + 1) (m - a) = n + 1 by omega,
            List.range_succ]
        · rw [if_neg (by simpa [saturatingAdd_lt small] using inside), show min (n + 1) (m - a) = n by omega,
            List.append_nil]
      · rw [if_neg all, show min (n + 1) (m - a) = min n (m - a) by omega]

theorem same_row {cols row other col : Nat} (inside : col < cols) (low : other * cols ≤ row * cols + col)
    (high : row * cols + col < other * cols + cols) : row = other := by
  have positive : 0 < cols := Nat.lt_of_le_of_lt (Nat.zero_le _) inside
  have first : (row * cols + col) / cols = row := by
    rw [Nat.add_comm, Nat.add_mul_div_right _ _ positive, Nat.div_eq_of_lt inside, Nat.zero_add]
  have below : other ≤ row := by
    rw [← first]
    exact (Nat.le_div_iff_mul_le positive).mpr low
  have above : row < other + 1 := by
    rw [← first]
    refine (Nat.div_lt_iff_lt_mul positive).mpr ?_
    rw [Nat.add_mul, Nat.one_mul]
    exact high
  omega

section Compositing
variable (o : Overlay) (s : ScreenState)

/-- Within the rectangle of the overlay. -/
def covers (row col : Nat) : Prop :=
  (o.row.toNat ≤ row ∧ row < o.row.toNat + o.rows.toNat) ∧
    o.col.toNat ≤ col ∧ col < o.col.toNat + o.cols.toNat

instance (row col : Nat) : Decidable (covers o row col) := inferInstanceAs (Decidable (_ ∧ _))

/-- A row that the overlay is laid over, be it beside the screen. -/
def touches (row : Nat) : Prop := o.row.toNat ≤ row ∧ row < o.row.toNat + o.rows.toNat

instance (row : Nat) : Decidable (touches o row) := inferInstanceAs (Decidable (_ ∧ _))

/-- The cell that is laid at a place: the overlay's, without a link, or the screen's. -/
def laid (row col : Nat) : Option Cell :=
  if covers o row col then
    o.cells[(row - o.row.toNat) * o.cols.toNat + (col - o.col.toNat)]?.map fun cell => { cell with link := 0 }
  else s.cells[row * s.cols.toNat + col]?

/-- A row as it is laid, before anything is repaired. -/
def laidRow (row : Nat) : List Cell := (List.range s.cols.toNat).filterMap (laid o s row)

end Compositing

theorem length_filterMap_range {f : Nat → Option Cell} {n : Nat} (full : ∀ c < n, (f c).isSome) :
    ((List.range n).filterMap f).length = n := by
  induction n with
  | zero => rfl
  | succ n ih =>
      obtain ⟨cell, here⟩ := Option.isSome_iff_exists.mp (full n (Nat.lt_succ_self n))
      rw [List.range_succ, List.filterMap_append, List.length_append,
        ih fun c low => full c (Nat.lt_succ_of_lt low)]
      simp [here]

theorem filterMap_range_get {f : Nat → Option Cell} {n : Nat} (full : ∀ c < n, (f c).isSome) (c : Nat) :
    ((List.range n).filterMap f)[c]? = if c < n then f c else none := by
  induction n with
  | zero => simp
  | succ n ih =>
      have earlier : ∀ c < n, (f c).isSome := fun c low => full c (Nat.lt_succ_of_lt low)
      obtain ⟨cell, here⟩ := Option.isSome_iff_exists.mp (full n (Nat.lt_succ_self n))
      rw [List.range_succ, List.filterMap_append, List.getElem?_append, length_filterMap_range earlier,
        ih earlier]
      by_cases low : c < n
      · rw [if_pos low, if_pos low, if_pos (by omega)]
      · rw [if_neg low]
        by_cases last : c = n
        · subst last
          simp [here]
        · rw [if_neg (by omega)]
          simp [here]
          omega

section Stamping
variable {o : Overlay} {cols r screenRow : Nat} {cells : List Cell}

theorem overlay_get (inside : r < o.rows.toNat) {c : Nat} (column : c < o.cols.toNat) :
    ∃ cell, o.cells[r * o.cols.toNat + c]? = some cell := by
  refine ⟨_, List.getElem?_eq_getElem ?_⟩
  rw [o.filled]
  have next : (r + 1) * o.cols.toNat ≤ o.rows.toNat * o.cols.toNat := Nat.mul_le_mul_right _ inside
  rw [Nat.add_mul, Nat.one_mul] at next
  omega

theorem length_stampCells (columns : List Nat) :
    (columns.foldl (stampCell o cols r screenRow) cells).length = cells.length := by
  induction columns generalizing cells with
  | nil => rfl
  | cons c columns ih =>
      rw [List.foldl_cons, ih, stampCell]
      split
      · rfl
      · exact List.length_set

/-- The columns of the overlay that are on the screen, one after the other. -/
theorem stampCells_get (small : cols ≤ 65535) (inside : r < o.rows.toNat)
    (room : screenRow * cols + cols ≤ cells.length) {done : Nat} (width : done ≤ o.cols.toNat)
    (clipped : done ≤ cols - o.col.toNat) (i : Nat) :
    ((List.range done).foldl (stampCell o cols r screenRow) cells)[i]? =
      if screenRow * cols + o.col.toNat ≤ i ∧ i < screenRow * cols + o.col.toNat + done then
        o.cells[r * o.cols.toNat + (i - (screenRow * cols + o.col.toNat))]?.map fun cell => { cell with link := 0 }
      else cells[i]? := by
  induction done with
  | zero =>
      rw [if_neg (by omega)]
      rfl
  | succ done ih =>
      have before := ih (by omega) (by omega)
      obtain ⟨cell, here⟩ := overlay_get inside (show done < o.cols.toNat by omega)
      have place : saturatingAdd o.col.toNat done = o.col.toNat + done := by
        rw [saturatingAdd]
        omega
      rw [List.range_succ, List.foldl_append, List.foldl_cons, List.foldl_nil, stampCell, here]
      dsimp only
      rw [place, ← Nat.add_assoc]
      by_cases at_ : i = screenRow * cols + o.col.toNat + done
      · subst at_
        rw [List.getElem?_set_self (by rw [length_stampCells]; omega), if_pos (by omega), Nat.add_sub_cancel_left,
          here]
        rfl
      · rw [List.getElem?_set_ne (Ne.symm at_), before]
        refine if_congr ?_ rfl rfl
        omega

theorem stampCellsAt_eq (small : cols ≤ 65535) (inside : r < o.rows.toNat)
    (room : screenRow * cols + cols ≤ cells.length) {done : Nat} (width : done ≤ o.cols.toNat)
    (clipped : done ≤ cols - o.col.toNat) :
    (List.range done).foldlM (stampCellAt o cols r screenRow) cells =
      some ((List.range done).foldl (stampCell o cols r screenRow) cells) := by
  induction done with
  | zero => rfl
  | succ done ih =>
      obtain ⟨cell, here⟩ := overlay_get inside (show done < o.cols.toNat by omega)
      have place : saturatingAdd o.col.toNat done = o.col.toNat + done := by
        rw [saturatingAdd]
        omega
      rw [List.range_succ, List.foldlM_append, ih (by omega) (by omega), List.foldl_append]
      simp only [Option.bind_eq_bind, Option.bind_some, List.foldlM_cons, List.foldlM_nil, List.foldl_cons,
        List.foldl_nil, stampCellAt, stampCell, here]
      rw [if_pos (by rw [length_stampCells, place]; omega)]
      rfl

end Stamping

section Screen
variable {width : Text → Nat} {o : Overlay} {s : ScreenState}

theorem row_room (valid : s.Valid) {row : Nat} (inside : row < s.rows.toNat) :
    row * s.cols.toNat + s.cols.toNat ≤ s.cells.length := by
  rw [valid.length, ScreenState.expected]
  have next : (row + 1) * s.cols.toNat ≤ s.rows.toNat * s.cols.toNat := Nat.mul_le_mul_right _ inside
  rwa [Nat.add_mul, Nat.one_mul] at next

theorem laid_some (valid : s.Valid) {row col : Nat} (inside : row < s.rows.toNat) (column : col < s.cols.toNat) :
    (laid o s row col).isSome := by
  have room := row_room valid inside
  rw [laid]
  split
  next covered =>
      obtain ⟨⟨top, bottom⟩, left, right⟩ := covered
      obtain ⟨cell, here⟩ := @overlay_get o (row - o.row.toNat) (by omega) (col - o.col.toNat) (by omega)
      rw [here]
      rfl
  next => rw [List.getElem?_eq_getElem (by omega)]; rfl

theorem laidRow_get (valid : s.Valid) {row : Nat} (inside : row < s.rows.toNat) (col : Nat) :
    (laidRow o s row)[col]? = if col < s.cols.toNat then laid o s row col else none :=
  filterMap_range_get (fun _ column => laid_some valid inside column) col

/-- A place on a row that has been dealt with: what was laid there, unless it was half a glyph. -/
def settledAt (width : Text → Nat) (o : Overlay) (s : ScreenState) (row col : Nat) : Option Cell :=
  if brokenAt width (laidRow o s row) col then (laid o s row col).map blanked else laid o s row col

/-- The screen after the first rows of the overlay. -/
def Settled (width : Text → Nat) (o : Overlay) (s : ScreenState) (done : Nat) (cells : List Cell) : Prop :=
  cells.length = s.cells.length ∧ ∀ row col, row < s.rows.toNat → col < s.cols.toNat →
    cells[row * s.cols.toNat + col]? =
      if o.row.toNat ≤ row ∧ row < o.row.toNat + done then settledAt width o s row col
      else s.cells[row * s.cols.toNat + col]?

theorem stampRow_settled (space : width [' '] = 1) (valid : s.Valid) {done : Nat} {cells : List Cell}
    (settled : Settled width o s done cells) (below : done < o.rows.toNat)
    (onScreen : o.row.toNat + done < s.rows.toNat) :
    stampRowAt width o s.cols.toNat cells done = some (stampRow width o s.cols.toNat cells done) ∧
      Settled width o s (done + 1) (stampRow width o s.cols.toNat cells done) := by
  have small : s.cols.toNat ≤ 65535 := Nat.le_of_lt_succ s.cols.toNat_lt
  have tall : s.rows.toNat ≤ 65535 := Nat.le_of_lt_succ s.rows.toNat_lt
  have place : saturatingAdd o.row.toNat done = o.row.toNat + done := by
    rw [saturatingAdd]
    omega
  have room : (o.row.toNat + done) * s.cols.toNat + s.cols.toNat ≤ cells.length := by
    rw [settled.1]
    exact row_room valid onScreen
  have clipped := takeWhile_clipped (a := o.col.toNat) small o.cols.toNat
  let stamped := (List.range (min o.cols.toNat (s.cols.toNat - o.col.toNat))).foldl
    (stampCell o s.cols.toNat done (o.row.toNat + done)) cells
  have width_ : min o.cols.toNat (s.cols.toNat - o.col.toNat) ≤ o.cols.toNat := Nat.min_le_left _ _
  have inside_ : min o.cols.toNat (s.cols.toNat - o.col.toNat) ≤ s.cols.toNat - o.col.toNat := Nat.min_le_right _ _
  have length : stamped.length = cells.length := length_stampCells _
  have stampedRoom : (o.row.toNat + done) * s.cols.toNat + s.cols.toNat ≤ stamped.length := by
    rw [length]
    exact room
  have whole : stampRow width o s.cols.toNat cells done =
      repairWidePairs width stamped s.cols.toNat (o.row.toNat + done) := by
    simp only [stampRow, place, clipped]
    rfl
  -- the row itself is as it was laid, and no other row is touched
  have here : ∀ col < s.cols.toNat,
      stamped[(o.row.toNat + done) * s.cols.toNat + col]? = laid o s (o.row.toNat + done) col := by
    intro col column
    have before := settled.2 (o.row.toNat + done) col onScreen column
    rw [if_neg (by omega)] at before
    rw [stampCells_get small below room width_ inside_, laid, before]
    have places : (o.row.toNat + done) * s.cols.toNat + col - ((o.row.toNat + done) * s.cols.toNat + o.col.toNat) =
        col - o.col.toNat := by omega
    rw [places, Nat.add_sub_cancel_left]
    refine if_congr ?_ rfl rfl
    rw [covers]
    omega
  have elsewhere : ∀ row col, col < s.cols.toNat → row ≠ o.row.toNat + done →
      stamped[row * s.cols.toNat + col]? = cells[row * s.cols.toNat + col]? := by
    intro row col column other
    rw [stampCells_get small below room width_ inside_, if_neg]
    intro ⟨low, high⟩
    exact other (same_row column (by omega) (by omega))
  have laidHere : rowOf stamped s.cols.toNat (o.row.toNat + done) = laidRow o s (o.row.toNat + done) := by
    apply List.ext_getElem?
    intro col
    rw [laidRow_get valid onScreen]
    split
    next column => rw [rowOf_get column, here col column]
    next past => rw [rowOf_past (Nat.not_lt.mp past)]
  refine ⟨?_, ?_, ?_⟩
  · rw [whole]
    simp only [stampRowAt, place, clipped]
    rw [stampCellsAt_eq small below room width_ inside_]
    exact repairWidePairsAt_eq stampedRoom
  · rw [whole, length_repairWidePairs, length, settled.1]
  · intro row col inside column
    rw [whole, repairWidePairs_get space stampedRoom, repairedTo, laidHere]
    by_cases same : row = o.row.toNat + done
    · subst same
      rw [if_pos (show o.row.toNat ≤ o.row.toNat + done ∧ _ from ⟨by omega, by omega⟩), settledAt,
        here col column, Nat.add_sub_cancel_left]
      refine if_congr ?_ rfl rfl
      exact ⟨fun half => half.2.2, fun half => ⟨by omega, by omega, half⟩⟩
    · rw [if_neg fun ⟨low, high, _⟩ => same (same_row column low high), elsewhere row col column same,
        settled.2 row col inside column]
      refine if_congr ?_ rfl rfl
      omega

theorem composite_settled (space : width [' '] = 1) (valid : s.Valid) :
    compositeAt width o s = some (composite width (some o) s) ∧
      Settled width o s (min o.rows.toNat (s.rows.toNat - o.row.toNat)) (composite width (some o) s) := by
  have tall : s.rows.toNat ≤ 65535 := Nat.le_of_lt_succ s.rows.toNat_lt
  have upto : ∀ done ≤ min o.rows.toNat (s.rows.toNat - o.row.toNat),
      (List.range done).foldlM (stampRowAt width o s.cols.toNat) s.cells =
          some ((List.range done).foldl (stampRow width o s.cols.toNat) s.cells) ∧
        Settled width o s done ((List.range done).foldl (stampRow width o s.cols.toNat) s.cells) := by
    intro done
    induction done with
    | zero =>
        refine fun _ => ⟨rfl, rfl, fun row col _ _ => ?_⟩
        rw [if_neg (by omega)]
        rfl
    | succ done ih =>
        intro more
        obtain ⟨ran, settled⟩ := ih (Nat.le_of_succ_le more)
        obtain ⟨indexed, next⟩ := stampRow_settled space valid settled (by omega) (by omega)
        rw [List.range_succ, List.foldlM_append, ran, List.foldl_append]
        refine ⟨?_, next⟩
        simp only [Option.bind_eq_bind, Option.bind_some, List.foldlM_cons, List.foldlM_nil, List.foldl_cons,
          List.foldl_nil, indexed]
        rfl
  have whole := upto _ (Nat.le_refl _)
  rw [← takeWhile_clipped tall] at whole
  exact whole

theorem settled_paired (space : width [' '] = 1) (valid : s.Valid) {done : Nat} {cells : List Cell}
    (settled : Settled width o s done cells) {row : Nat} (inside : row < s.rows.toNat)
    (touched : o.row.toNat ≤ row ∧ row < o.row.toNat + done) :
    Paired width (rowOf cells s.cols.toNat row) := by
  have length : (laidRow o s row).length = s.cols.toNat :=
    length_filterMap_range fun _ column => laid_some valid inside column
  have room : 0 * s.cols.toNat + s.cols.toNat ≤ (laidRow o s row).length := by
    rw [length, Nat.zero_mul, Nat.zero_add]
  have alone : rowOf (laidRow o s row) s.cols.toNat 0 = laidRow o s row := by
    rw [rowOf, Nat.zero_mul, List.drop_zero, List.take_of_length_le (Nat.le_of_eq length)]
  have same : rowOf cells s.cols.toNat row =
      rowOf (repairWidePairs width (laidRow o s row) s.cols.toNat 0) s.cols.toNat 0 := by
    apply List.ext_getElem?
    intro col
    rw [rowOf_repaired space room, alone, laidRow_get valid inside]
    by_cases column : col < s.cols.toNat
    · rw [rowOf_get column, settled.2 row col inside column, if_pos touched, settledAt, if_pos column]
    · rw [rowOf_past (Nat.not_lt.mp column), if_neg column]
      split <;> rfl
  rw [same]
  exact paired_repaired space room

/-- What the popup leaves of the screen. -/
structure Composited (width : Text → Nat) (o : Overlay) (s : ScreenState) (cells : List Cell) : Prop where
  length : cells.length = s.cells.length
  whole : ∀ row < s.rows.toNat, touches o row → Paired width (rowOf cells s.cols.toNat row)
  touched : ∀ row col, row < s.rows.toNat → col < s.cols.toNat → touches o row →
    cells[row * s.cols.toNat + col]? =
      if brokenAt width (laidRow o s row) col then (laid o s row col).map blanked else laid o s row col
  others : ∀ row col, row < s.rows.toNat → col < s.cols.toNat → ¬ touches o row →
    cells[row * s.cols.toNat + col]? = s.cells[row * s.cols.toNat + col]?

theorem composite_composited (space : width [' '] = 1) (valid : s.Valid) :
    Composited width o s (composite width (some o) s) := by
  have settled := (@composite_settled width o s space valid).2
  have clipped : ∀ row < s.rows.toNat, touches o row →
      o.row.toNat ≤ row ∧ row < o.row.toNat + min o.rows.toNat (s.rows.toNat - o.row.toNat) := by
    intro row inside here
    rw [touches] at here
    omega
  refine ⟨settled.1, ?_, ?_, ?_⟩
  · exact fun row inside here => settled_paired space valid settled inside (clipped row inside here)
  · intro row col inside column here
    rw [settled.2 row col inside column, if_pos (clipped row inside here)]
    rfl
  · intro row col inside column other
    rw [settled.2 row col inside column, if_neg]
    rw [touches] at other
    omega

end Screen

theorem popup_leaves_no_half_glyph {width : Text → Nat} (space : width [' '] = 1) {s : ScreenState}
    (valid : s.validate = .ok ()) (o : Overlay) :
    compositeAt width o s = some (composite width (some o) s) ∧
    Composited width o s (composite width (some o) s) ∧
    ∀ cells cols row, row * cols + cols ≤ cells.length →
      repairWidePairsAt width cells cols row = some (repairWidePairs width cells cols row) ∧
      repairWidePairs width (repairWidePairs width cells cols row) cols row =
        repairWidePairs width cells cols row ∧
      (Paired width (rowOf cells cols row) → repairWidePairs width cells cols row = cells) := by
  have checked := (ScreenState.validate_ok s).mp valid
  refine ⟨(composite_settled space checked).1, composite_composited space checked, fun cells cols row room => ?_⟩
  exact ⟨repairWidePairsAt_eq room, repairWidePairs_idempotent space room, repairWidePairs_paired space room⟩

/-- A width that knows one wide glyph. -/
def oneWide (text : Text) : Nat := if text = ['中'] then 2 else text.length

/-- A wide glyph at the left of a screen of four columns. -/
def wideScreen : ScreenState :=
  { ScreenState.blankState 1 4 with
    cells := [{ Cell.blank with text := ['中'] }, { Cell.blank with text := [], attrs := Attrs.wideCont },
      Cell.blank, Cell.blank] }

theorem wideScreen_valid : wideScreen.validate = .ok () := by
  have blank := @ScreenState.blankState_valid 1 4 (by decide)
  refine (ScreenState.validate_ok _).mpr ⟨blank.bounds, by decide, blank.seq, blank.cursor, ?_, blank.title,
    blank.clipboard, blank.links, ?_⟩
  · decide +kernel
  · intro cell member
    refine .inl ?_
    revert cell
    decide +kernel

/-- A popup of one cell on the right half of the glyph. -/
def oneCell : Overlay := ⟨0, 1, 1, 1, [{ Cell.blank with text := ['x'], link := 7 }], by decide⟩

theorem popup_leaves_no_half_glyph_wide :
    oneWide [' '] = 1 ∧ wideScreen.validate = .ok () ∧
    compositeAt oneWide oneCell wideScreen = some (composite oneWide (some oneCell) wideScreen) ∧
    Composited oneWide oneCell wideScreen (composite oneWide (some oneCell) wideScreen) :=
  have all := @popup_leaves_no_half_glyph oneWide (by decide) _ wideScreen_valid oneCell
  ⟨by decide, wideScreen_valid, all.1, all.2.1⟩

example : composite oneWide (some oneCell) wideScreen =
    [Cell.blank, { Cell.blank with text := ['x'] }, Cell.blank, Cell.blank] := by decide +kernel

end Oxutrm.Paint
