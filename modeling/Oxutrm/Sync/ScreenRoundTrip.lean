import Oxutrm.Sync.RowRuns
import Oxutrm.Sync.Laws

/-!
A screen diff rebuilds its target. Painting and the link changes are both
patches towards the target, so each reduces to what its writes cover; the other
fields are assigned whole.
-/
namespace Oxutrm.Sync
open Proto Patch

section Paint

@[simp] theorem length_paint (cells : List Cell) (pos : Nat) (cs : List Cell) :
    (paint cells pos cs).length = cells.length := by
  induction cs generalizing cells pos with
  | nil => rfl
  | cons c cs ih => simp [paint, ih]

theorem getElem?_paint_of_outside (cells : List Cell) (pos : Nat) (cs : List Cell) (i : Nat)
    (outside : i < pos ∨ pos + cs.length ≤ i) : (paint cells pos cs)[i]? = cells[i]? := by
  induction cs generalizing cells pos with
  | nil => rfl
  | cons c cs ih =>
      simp only [List.length_cons] at outside
      rw [paint, ih _ _ (by omega), List.getElem?_set_ne (by omega)]

theorem getElem?_paint_of_inside (cells : List Cell) (pos : Nat) (cs : List Cell) (j : Nat)
    (below : j < cs.length) (room : pos + cs.length ≤ cells.length) :
    (paint cells pos cs)[pos + j]? = cs[j]? := by
  induction cs generalizing cells pos j with
  | nil => simp at below
  | cons c cs ih =>
      simp only [List.length_cons] at below room
      cases j with
      | zero =>
          rw [paint, getElem?_paint_of_outside _ _ _ _ (Or.inl (by omega))]
          simp only [Nat.add_zero, List.getElem?_cons_zero]
          rw [List.getElem?_set_self (by omega)]
      | succ j =>
          rw [paint, show pos + (j + 1) = pos + 1 + j by omega,
            ih _ _ _ (by omega) (by rw [List.length_set]; omega)]
          rfl

def look (cells : List Cell) (i : Nat) : Option Cell := cells[i]?

def Run.Lands (rowStart : Nat) (run : Run) (i : Nat) : Prop :=
  rowStart ≤ i ∧ run.Covers (i - rowStart)

theorem toward_paint {goal cells : List Cell} {rowStart cols : Nat} {run : Run}
    (copies : run.Copies ((goal.drop rowStart).take cols))
    (room : rowStart + cols ≤ goal.length) (same : cells.length = goal.length) :
    Toward look (look goal) (run.Lands rowStart) cells
      (paint cells (rowStart + run.startCol.toNat) run.expanded) := by
  have inside := copies.inside
  simp only [List.length_take, List.length_drop] at inside
  have width := run.length_expanded
  refine ⟨?_, ?_⟩
  · rintro i ⟨after, from_, until_⟩
    obtain ⟨j, rfl⟩ : ∃ j, i = rowStart + run.startCol.toNat + j :=
      ⟨i - rowStart - run.startCol.toNat, by omega⟩
    have here : j < run.width := by omega
    simp only [look]
    rw [getElem?_paint_of_inside _ _ _ _ (by omega) (by omega), copies.expanded j here,
      List.getElem?_take_of_lt (by omega), List.getElem?_drop]
    congr 1
    omega
  · intro i outside
    refine getElem?_paint_of_outside _ _ _ _ ?_
    by_contra within
    exact outside ⟨by omega, by omega, by omega⟩

/-- Every cell of the row may be painted. -/
def Paintable (cells : List Cell) : Prop := ∀ c ∈ cells, checkCellText c.text = .ok ()

theorem paintRuns_toward {goal : List Cell} {row cols : UInt16} (paintable : Paintable goal)
    (room : row.toNat * cols.toNat + cols.toNat ≤ goal.length) (runs : List Run)
    (copies : ∀ run ∈ runs,
      run.Copies ((goal.drop (row.toNat * cols.toNat)).take cols.toNat))
    (cells : List Cell) (same : cells.length = goal.length) :
    ∃ painted, paintRuns row cols runs cells = (painted, .ok ()) ∧
      painted.length = goal.length ∧
      Toward look (look goal) (fun i => ∃ run ∈ runs, run.Lands (row.toNat * cols.toNat) i)
        cells painted := by
  induction runs generalizing cells with
  | nil =>
      refine ⟨cells, rfl, same, fun k covered => ?_, fun _ _ => rfl⟩
      obtain ⟨run, member, -⟩ := covered
      cases member
  | cons run runs ih =>
      have copy := copies run List.mem_cons_self
      have inside := copy.inside
      simp only [List.length_take, List.length_drop] at inside
      have texts : checkEach (fun cell => checkCellText cell.text) run.cells = .ok () := by
        rw [checkEach_ok]
        intro cell member
        exact paintable cell
          (List.mem_of_mem_drop (List.mem_of_mem_take (copy.cells cell member)))
      obtain ⟨painted, result, length, rest⟩ := ih
        (fun run' member => copies run' (List.mem_cons_of_mem _ member))
        (paint cells (row.toNat * cols.toNat + run.startCol.toNat) run.expanded)
        (by rw [length_paint, same])
      refine ⟨painted, ?_, length, ?_⟩
      · rw [paintRuns, andThen_ok]
        refine ⟨cells, ?_, result⟩
        rw [Prod.mk.injEq, checked_seq_ok, refuse_ok]
        exact ⟨rfl, by omega, texts⟩
      · have both := (toward_paint copy room same).trans rest
        simpa only [List.mem_cons, exists_eq_or_imp] using both

theorem row_room {rows cols row : Nat} {goal : List Cell} (size : goal.length = rows * cols)
    (below : row < rows) : row * cols + cols ≤ goal.length := by
  rw [size, ← Nat.succ_mul]
  exact Nat.mul_le_mul_right cols below

theorem paintRows_toward {goal : List Cell} {rows cols : UInt16} (paintable : Paintable goal)
    (size : goal.length = rows.toNat * cols.toNat) (patches : List RowPatch)
    (copies : ∀ patch ∈ patches, patch.row < rows ∧ ∀ run ∈ patch.runs,
      run.Copies ((goal.drop (patch.row.toNat * cols.toNat)).take cols.toNat))
    (cells : List Cell) (same : cells.length = goal.length) :
    ∃ painted, paintRows rows cols patches cells = (painted, .ok ()) ∧
      painted.length = goal.length ∧
      Toward look (look goal)
        (fun i => ∃ patch ∈ patches, ∃ run ∈ patch.runs,
          run.Lands (patch.row.toNat * cols.toNat) i)
        cells painted := by
  induction patches generalizing cells with
  | nil =>
      refine ⟨cells, rfl, same, fun k covered => ?_, fun _ _ => rfl⟩
      obtain ⟨patch, member, -⟩ := covered
      cases member
  | cons patch patches ih =>
      obtain ⟨below, runs⟩ := copies patch List.mem_cons_self
      obtain ⟨middle, first, middleLength, towardMiddle⟩ := paintRuns_toward paintable
        (row_room size (UInt16.lt_iff_toNat_lt.mp below)) patch.runs runs cells same
      obtain ⟨painted, second, length, towardPainted⟩ := ih
        (fun patch' member => copies patch' (List.mem_cons_of_mem _ member)) middle middleLength
      refine ⟨painted, ?_, length, ?_⟩
      · simp only [paintRows, andThen_ok]
        refine ⟨cells, ?_, middle, first, second⟩
        rw [Prod.mk.injEq, refuse_ok]
        exact ⟨rfl, UInt16.not_le.mpr below⟩
      · have both := towardMiddle.trans towardPainted
        simpa only [List.mem_cons, exists_eq_or_imp] using both

end Paint

section Rows
variable {target : ScreenState}

theorem length_row (valid : target.Valid) {r : Nat} (below : r < target.rows.toNat) :
    (target.row r).length = target.cols.toNat := by
  have room := row_room valid.length below
  simp only [ScreenState.row, List.length_take, List.length_drop]
  omega

theorem getElem?_row {s : ScreenState} {r c : Nat} (inside : c < s.cols.toNat) :
    (s.row r)[c]? = s.cells[r * s.cols.toNat + c]? := by
  rw [ScreenState.row, List.getElem?_take_of_lt inside, List.getElem?_drop]

theorem mem_rowPatches {baseRow : Nat → Option (List Cell)} {patch : RowPatch} :
    patch ∈ rowPatches target baseRow ↔
      ∃ r < target.rows.toNat, rowRuns (target.row r) (baseRow r) ≠ [] ∧
        patch = { row := UInt16.ofNat r, runs := rowRuns (target.row r) (baseRow r) } := by
  simp only [rowPatches, List.mem_filterMap, List.mem_range]
  constructor
  · rintro ⟨r, below, made⟩
    split at made
    · cases made
    · next nonempty => exact ⟨r, below, by simpa using nonempty, (Option.some.inj made).symm⟩
  · rintro ⟨r, below, nonempty, rfl⟩
    exact ⟨r, below, by simp [nonempty]⟩

theorem row_emits (valid : target.Valid) (baseRow : Nat → Option (List Cell)) {r : Nat}
    (below : r < target.rows.toNat) :
    RowEmits (target.row r) (baseRow r) target.cols.toNat
      (rowRuns (target.row r) (baseRow r)) := by
  have length := length_row valid below
  have emits := @rowRuns_emits (target.row r) (baseRow r) (by
    rw [length]
    exact target.cols.toNat_lt)
  rwa [length] at emits

theorem toNat_ofNat_row {r : Nat} (below : r < target.rows.toNat) :
    (UInt16.ofNat r).toNat = r :=
  UInt16.toNat_ofNat_of_lt' (Nat.lt_trans below target.rows.toNat_lt)

theorem rowPatches_copy (valid : target.Valid) (baseRow : Nat → Option (List Cell)) :
    ∀ patch ∈ rowPatches target baseRow, patch.row < target.rows ∧ ∀ run ∈ patch.runs,
      run.Copies ((target.cells.drop (patch.row.toNat * target.cols.toNat)).take
        target.cols.toNat) := by
  intro patch member
  obtain ⟨r, below, -, rfl⟩ := mem_rowPatches.mp member
  have row := toNat_ofNat_row below
  refine ⟨UInt16.lt_iff_toNat_lt.mpr (by rw [row]; exact below), ?_⟩
  rw [row]
  exact (row_emits valid baseRow below).copies

/-- A cell is painted over unless its column is unchanged in its row. -/
theorem rowPatches_cover (valid : target.Valid) (baseRow : Nat → Option (List Cell)) {r c : Nat}
    (below : r < target.rows.toNat) (inside : c < target.cols.toNat)
    (differs : unchanged (target.row r) (baseRow r) c = false) :
    ∃ patch ∈ rowPatches target baseRow, ∃ run ∈ patch.runs,
      run.Lands (patch.row.toNat * target.cols.toNat) (r * target.cols.toNat + c) := by
  have emits := row_emits valid baseRow below
  obtain ⟨run, member, covered⟩ :=
    emits.covers c inside (by rw [length_row valid below]; exact inside) differs
  refine ⟨_, mem_rowPatches.mpr ⟨r, below, List.ne_nil_of_mem member, rfl⟩, run, member, ?_⟩
  rw [toNat_ofNat_row below]
  refine ⟨Nat.le_add_right _ _, ?_⟩
  rwa [Nat.add_sub_cancel_left]

/-- Painting the patches of a diff over its base gives the target's cells. -/
theorem paintRows_rowPatches (valid : target.Valid) (baseRow : Nat → Option (List Cell))
    {cells : List Cell} (same : cells.length = target.cells.length)
    (agrees : ∀ r c, r < target.rows.toNat → c < target.cols.toNat →
      unchanged (target.row r) (baseRow r) c = true →
      cells[r * target.cols.toNat + c]? = target.cells[r * target.cols.toNat + c]?) :
    paintRows target.rows target.cols (rowPatches target baseRow) cells =
      (target.cells, .ok ()) := by
  obtain ⟨painted, result, length, toward⟩ := paintRows_toward valid.text valid.length
    (rowPatches target baseRow) (rowPatches_copy valid baseRow) cells same
  have everywhere : ∀ i : Nat, painted[i]? = target.cells[i]? := by
    refine toward.complete ?_
    intro i wrong
    have bound : i < target.rows.toNat * target.cols.toNat := by
      by_contra outside
      refine wrong ?_
      have size : target.cells.length = target.rows.toNat * target.cols.toNat := valid.length
      simp only [look]
      rw [List.getElem?_eq_none (by omega), List.getElem?_eq_none (by omega)]
    have positive : 0 < target.cols.toNat :=
      Nat.pos_of_ne_zero fun zero => by rw [zero] at bound; omega
    have row : i / target.cols.toNat < target.rows.toNat :=
      (Nat.div_lt_iff_lt_mul positive).mpr bound
    have col := Nat.mod_lt i positive
    have split : i / target.cols.toNat * target.cols.toNat + i % target.cols.toNat = i := by
      rw [Nat.mul_comm]
      exact Nat.div_add_mod i _
    rw [← split] at wrong ⊢
    refine rowPatches_cover valid baseRow row col ?_
    by_contra kept
    exact wrong (agrees _ _ row col (by simpa using kept))
  rw [result, List.ext_getElem? everywhere]

end Rows

section LinkTable

def lookLink (links : Links) (id : UInt16) : Option Text := links[id]?

theorem toward_setLink {goal : Links} {p : UInt16 × Option Text} (right : p.2 = lookLink goal p.1)
    (links : Links) :
    Toward lookLink (lookLink goal) (fun id => id = p.1) links (setLink links p) := by
  obtain ⟨id, change⟩ := p
  refine ⟨?_, ?_⟩
  · rintro k rfl
    rw [← right]
    cases change <;> simp [setLink, lookLink]
  · intro k other
    have differs : compare id k ≠ .eq := fun same =>
      other (Std.LawfulEqCmp.eq_of_compare same).symm
    cases change <;>
      simp [setLink, lookLink, Std.ExtTreeMap.getElem?_insert, Std.ExtTreeMap.getElem?_erase,
        differs]

theorem foldl_setLink {goal : Links} (changes : List (UInt16 × Option Text))
    (right : ∀ p ∈ changes, p.2 = lookLink goal p.1) (links : Links)
    (missing : ∀ id, lookLink links id ≠ lookLink goal id → ∃ p ∈ changes, id = p.1) :
    changes.foldl setLink links = goal := by
  have toward := toward_foldl changes (fun p member => toward_setLink (right p member)) links
  exact Std.ExtTreeMap.ext_getElem? (toward.complete missing)

theorem linkChanges_right (target base : ScreenState) :
    ∀ p ∈ linkChanges target base, p.2 = lookLink target.links p.1 := by
  intro p member
  rcases List.mem_append.mp member with entry | removal
  · obtain ⟨q, found, rfl⟩ := List.mem_map.mp entry
    have present := (List.mem_filter.mp found).1
    exact (Std.ExtTreeMap.mem_toList_iff_getElem?_eq_some.mp present).symm
  · obtain ⟨id, found, rfl⟩ := List.mem_map.mp removal
    have absent := (List.mem_filter.mp found).2
    simp only [Std.ExtTreeMap.contains_iff_mem, decide_not, Bool.not_eq_eq_eq_not, Bool.not_true,
      decide_eq_false_iff_not] at absent
    exact (Std.ExtTreeMap.getElem?_eq_none absent).symm

theorem linkChanges_restore (target base : ScreenState) :
    (linkChanges target base).foldl setLink base.links = target.links := by
  refine foldl_setLink _ (linkChanges_right target base) _ ?_
  intro id wrong
  cases wanted : lookLink target.links id with
  | some uri =>
      rw [wanted] at wrong
      refine ⟨(id, some uri), List.mem_append_left _ (List.mem_map.mpr ⟨(id, uri), ?_, rfl⟩), rfl⟩
      exact List.mem_filter.mpr ⟨Std.ExtTreeMap.mem_toList_iff_getElem?_eq_some.mpr wanted,
        decide_eq_true wrong⟩
  | none =>
      rw [wanted] at wrong
      have absent : id ∉ target.links := by
        rw [Std.ExtTreeMap.mem_iff_isSome_getElem?]
        simp only [lookLink] at wanted
        simp [wanted]
      have present : id ∈ base.links := by
        by_contra missing
        exact wrong (Std.ExtTreeMap.getElem?_eq_none missing)
      refine ⟨(id, none), List.mem_append_right _ (List.mem_map.mpr ⟨id, ?_, rfl⟩), rfl⟩
      refine List.mem_filter.mpr ⟨Std.ExtTreeMap.mem_keys.mpr present, ?_⟩
      simpa using absent

theorem allLinks_restore (target : ScreenState) :
    (target.links.toList.map fun p => (p.1, some p.2)).foldl setLink ∅ = target.links := by
  refine foldl_setLink _ ?_ _ ?_
  · intro p member
    obtain ⟨q, present, rfl⟩ := List.mem_map.mp member
    exact (Std.ExtTreeMap.mem_toList_iff_getElem?_eq_some.mp present).symm
  · intro id wrong
    cases wanted : lookLink target.links id with
    | none =>
        rw [wanted] at wrong
        exact absurd Std.ExtTreeMap.getElem?_empty wrong
    | some uri =>
        exact ⟨(id, some uri), List.mem_map.mpr
          ⟨(id, uri), Std.ExtTreeMap.mem_toList_iff_getElem?_eq_some.mpr wanted, rfl⟩, rfl⟩

end LinkTable
end Oxutrm.Sync
