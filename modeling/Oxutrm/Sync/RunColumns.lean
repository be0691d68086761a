import Oxutrm.Sync.ScreenLaws

/-!
Where the runs of a diff write. The scan counts its columns in `usize` and
casts them only when it pushes a run, so it is followed here once more with the
columns as it counts them: they name the changed columns in increasing order,
each once, and every one of them survives its cast.
-/
namespace Oxutrm.Sync
open Proto

def Run.columns (run : Run) : List Nat := List.range' run.startCol.toNat run.width

/-- A run before its columns are cast. -/
structure UsizeRun where
  start : Nat
  repeats : Nat
  cells : List Cell

namespace UsizeRun

def width (run : UsizeRun) : Nat := run.cells.length * (run.repeats + 1)

def columns (run : UsizeRun) : List Nat := List.range' run.start run.width

/-- `start as u16` and `repeat as u16`. -/
def cast (run : UsizeRun) : Run where
  startCol := UInt16.ofNat run.start
  repeats := UInt16.ofNat run.repeats
  cells := run.cells

/-- Nothing is lost in the casts, nor would it be in a cast of the width. -/
def Fits (run : UsizeRun) : Prop :=
  run.start < 2 ^ 16 ∧ run.repeats < 2 ^ 16 ∧ run.width < 2 ^ 16

theorem columns_cast {run : UsizeRun} (fits : run.Fits) : run.cast.columns = run.columns := by
  have start := UInt16.toNat_ofNat_of_lt' fits.1
  have repeats := UInt16.toNat_ofNat_of_lt' fits.2.1
  simp only [Run.columns, Run.width, cast, columns, width, start, repeats]

end UsizeRun

section Scan
variable (target : List Cell) (base : Option (List Cell))

def usizeFlush (literal : List Cell) (literalStart : Nat) (runs : List UsizeRun) :
    List UsizeRun :=
  if literal.isEmpty then runs
  else runs ++ [{ start := literalStart, repeats := 0, cells := literal }]

structure UsizeSpan where
  col : Nat
  literal : List Cell
  literalStart : Nat
  runs : List UsizeRun

def usizeSpanLoop : Nat → UsizeSpan → UsizeSpan
  | 0, s => s
  | fuel + 1, s =>
      if s.col < target.length ∧ ¬ unchanged target base s.col then
        let len := runLen target base s.col target.length 1
        if 2 ≤ len then
          usizeSpanLoop fuel
            { col := s.col + len
              literal := []
              literalStart := s.col + len
              runs := usizeFlush s.literal s.literalStart s.runs ++
                [{ start := s.col, repeats := len - 1, cells := target[s.col]?.toList }] }
        else
          usizeSpanLoop fuel
            { col := s.col + 1
              literal := s.literal ++ target[s.col]?.toList
              literalStart := if s.literal.isEmpty then s.col else s.literalStart
              runs := s.runs }
      else s

def usizeRowLoop : Nat → Nat → List UsizeRun → List UsizeRun
  | 0, _, runs => runs
  | fuel + 1, col, runs =>
      if col < target.length then
        if unchanged target base col then usizeRowLoop fuel (col + 1) runs
        else
          let s := usizeSpanLoop target base target.length
            { col := col, literal := [], literalStart := col, runs := runs }
          usizeRowLoop fuel s.col (usizeFlush s.literal s.literalStart s.runs)
      else runs

def usizeRowRuns : List UsizeRun := usizeRowLoop target base target.length 0 []

end Scan

section Cast
variable (target : List Cell) (base : Option (List Cell))

def UsizeSpan.cast (s : UsizeSpan) : Span where
  col := s.col
  literal := s.literal
  literalStart := s.literalStart
  runs := s.runs.map UsizeRun.cast

theorem flush_map_cast (literal : List Cell) (start : Nat) (runs : List UsizeRun) :
    flush literal start (runs.map UsizeRun.cast) =
      (usizeFlush literal start runs).map UsizeRun.cast := by
  simp only [flush, usizeFlush]
  split
  · rfl
  · rw [List.map_append]
    rfl

theorem spanLoop_cast (fuel : Nat) (s : UsizeSpan) :
    spanLoop target base fuel s.cast = (usizeSpanLoop target base fuel s).cast := by
  induction fuel generalizing s with
  | zero => rfl
  | succ fuel ih =>
      have same : s.cast.col = s.col := rfl
      simp only [spanLoop, usizeSpanLoop, same]
      split
      · split
        · rw [← ih]
          simp only [UsizeSpan.cast, flush_map_cast, List.map_append, List.map_cons,
            List.map_nil, UsizeRun.cast]
        · rw [← ih]
          rfl
      · rfl

theorem rowLoop_cast (fuel col : Nat) (runs : List UsizeRun) :
    rowLoop target base fuel col (runs.map UsizeRun.cast) =
      (usizeRowLoop target base fuel col runs).map UsizeRun.cast := by
  induction fuel generalizing col runs with
  | zero => rfl
  | succ fuel ih =>
      simp only [rowLoop, usizeRowLoop]
      split
      · split
        · exact ih (col + 1) runs
        · have span := spanLoop_cast target base target.length
            { col := col, literal := [], literalStart := col, runs := runs }
          simp only [UsizeSpan.cast] at span
          rw [span, flush_map_cast]
          exact ih _ _
      · rfl

/-- The runs sent are the runs counted, cast. -/
theorem rowRuns_eq_map_cast :
    rowRuns target base = (usizeRowRuns target base).map UsizeRun.cast :=
  rowLoop_cast target base target.length 0 []

end Cast

section Columns
variable {target : List Cell} {base : Option (List Cell)}

def changedBefore (target : List Cell) (base : Option (List Cell)) (col : Nat) : List Nat :=
  (List.range col).filter fun c => !unchanged target base c

theorem changedBefore_skip {col : Nat} (same : unchanged target base col = true) :
    changedBefore target base (col + 1) = changedBefore target base col := by
  simp [changedBefore, List.range_succ, same]

theorem changedBefore_add {col len : Nat}
    (changed : ∀ k < len, unchanged target base (col + k) = false) :
    changedBefore target base (col + len) =
      changedBefore target base col ++ List.range' col len := by
  induction len with
  | zero => simp
  | succ len ih =>
      have before := ih fun k below => changed k (Nat.lt_succ_of_lt below)
      have last := changed len (Nat.lt_succ_self len)
      rw [List.range'_concat, ← List.append_assoc, ← before, ← Nat.add_assoc]
      simp [changedBefore, List.range_succ, last]

/-- A run lies in the row and carries a cell. -/
structure UsizeRun.Within (target : List Cell) (run : UsizeRun) : Prop where
  inside : run.start + run.width ≤ target.length
  nonempty : run.cells ≠ []

theorem UsizeRun.Within.fits (short : target.length < 2 ^ 16) {run : UsizeRun}
    (within : run.Within target) : run.Fits := by
  have inside := within.inside
  have positive := List.length_pos_iff.mpr within.nonempty
  have repeats : run.repeats + 1 ≤ run.width := Nat.le_mul_of_pos_left _ positive
  exact ⟨by omega, by omega, by omega⟩

/-- What has been pushed once the scan stands at `col`. -/
structure Scanned (target : List Cell) (base : Option (List Cell)) (col : Nat)
    (runs : List UsizeRun) : Prop where
  inside : col ≤ target.length
  within : ∀ run ∈ runs, run.Within target
  columns : runs.flatMap UsizeRun.columns = changedBefore target base col

/-- The same inside a span, with the literal still to be pushed. -/
structure UsizeSpan.Scans (target : List Cell) (base : Option (List Cell)) (s : UsizeSpan) :
    Prop where
  inside : s.col ≤ target.length
  pending : s.literal ≠ [] → s.literalStart + s.literal.length = s.col
  within : ∀ run ∈ s.runs, run.Within target
  columns : s.runs.flatMap UsizeRun.columns ++
    List.range' s.literalStart s.literal.length = changedBefore target base s.col

theorem Scanned.span {col : Nat} {runs : List UsizeRun} (scanned : Scanned target base col runs) :
    UsizeSpan.Scans target base
      { col := col, literal := [], literalStart := col, runs := runs } where
  inside := scanned.inside
  pending none := absurd rfl none
  within := scanned.within
  columns := by simpa using scanned.columns

/-- Pushing a run that takes the scan on to the column behind it. -/
theorem Scanned.push {col : Nat} {runs : List UsizeRun} (scanned : Scanned target base col runs)
    (run : UsizeRun) (start : run.start = col) (nonempty : run.cells ≠ [])
    (inside : col + run.width ≤ target.length)
    (changed : ∀ k < run.width, unchanged target base (col + k) = false) :
    Scanned target base (col + run.width) (runs ++ [run]) where
  inside := inside
  within := by
    intro pushed member
    rcases List.mem_append.mp member with old | new
    · exact scanned.within pushed old
    · rw [List.mem_singleton.mp new]
      exact ⟨by rw [start]; exact inside, nonempty⟩
  columns := by
    rw [List.flatMap_append, scanned.columns, changedBefore_add changed, List.flatMap_singleton,
      UsizeRun.columns, start]

theorem UsizeSpan.Scans.flush {s : UsizeSpan} (scans : s.Scans target base) :
    Scanned target base s.col (usizeFlush s.literal s.literalStart s.runs) := by
  have columns := scans.columns
  by_cases empty : s.literal = []
  · simp only [usizeFlush, empty, List.isEmpty_nil, if_true, List.length_nil, List.range'_zero,
      List.append_nil] at columns ⊢
    exact ⟨scans.inside, scans.within, columns⟩
  · have bound := scans.pending empty
    have inside := scans.inside
    simp only [usizeFlush, List.isEmpty_iff, empty, if_false]
    refine ⟨inside, ?_, ?_⟩
    · intro run member
      rcases List.mem_append.mp member with old | new
      · exact scans.within run old
      · rw [List.mem_singleton.mp new]
        exact ⟨by simp only [UsizeRun.width]; omega, empty⟩
    · simpa [UsizeRun.columns, UsizeRun.width] using columns

theorem UsizeSpan.Scans.repeated {s : UsizeSpan} (scans : s.Scans target base)
    (changed : unchanged target base s.col = false)
    (long : 2 ≤ runLen target base s.col target.length 1) :
    UsizeSpan.Scans target base
      { col := s.col + runLen target base s.col target.length 1
        literal := []
        literalStart := s.col + runLen target base s.col target.length 1
        runs := usizeFlush s.literal s.literalStart s.runs ++
          [{ start := s.col, repeats := runLen target base s.col target.length 1 - 1,
             cells := target[s.col]?.toList }] } := by
  have inside := runLen_inside long
  have cell : target[s.col]? = some (target.get ⟨s.col, by omega⟩) :=
    List.getElem?_eq_getElem (by omega)
  have width : UsizeRun.width
      { start := s.col, repeats := runLen target base s.col target.length 1 - 1,
        cells := target[s.col]?.toList } = runLen target base s.col target.length 1 := by
    simp only [UsizeRun.width, cell, Option.toList_some, List.length_singleton]
    omega
  have pushed := scans.flush.push
    { start := s.col
      repeats := runLen target base s.col target.length 1 - 1
      cells := target[s.col]?.toList }
    rfl (by rw [cell]; exact List.cons_ne_nil _ _) (by rw [width]; exact inside)
    (by rw [width]; exact runLen_changed changed)
  rw [width] at pushed
  exact pushed.span

theorem UsizeSpan.Scans.single {s : UsizeSpan} (scans : s.Scans target base)
    (inside : s.col < target.length) (changed : unchanged target base s.col = false) :
    UsizeSpan.Scans target base
      { col := s.col + 1
        literal := s.literal ++ target[s.col]?.toList
        literalStart := if s.literal.isEmpty then s.col else s.literalStart
        runs := s.runs } := by
  have cell : target[s.col]? = some (target.get ⟨s.col, inside⟩) :=
    List.getElem?_eq_getElem inside
  have columns := scans.columns
  have next : changedBefore target base (s.col + 1) =
      changedBefore target base s.col ++ [s.col] :=
    changedBefore_add fun k below => by rwa [Nat.lt_one_iff.mp below]
  by_cases empty : s.literal = []
  · simp only [empty, List.length_nil, List.range'_zero, List.append_nil] at columns
    simp only [empty, List.isEmpty_nil, if_true, List.nil_append, cell, Option.toList_some]
    exact ⟨inside, fun _ => rfl, scans.within, by simp [next, columns]⟩
  · have bound := scans.pending empty
    simp only [List.isEmpty_iff, empty, if_false, cell, Option.toList_some]
    refine ⟨inside, fun _ => ?_, scans.within, ?_⟩
    · simp only [List.length_append, List.length_singleton]
      omega
    · simp only [List.length_append, List.length_singleton, List.range'_concat, Nat.one_mul,
        bound, next, ← List.append_assoc, columns]

theorem usizeSpanLoop_scans (fuel : Nat) {s : UsizeSpan} (scans : s.Scans target base) :
    (usizeSpanLoop target base fuel s).Scans target base := by
  induction fuel generalizing s with
  | zero => exact scans
  | succ fuel ih =>
      simp only [usizeSpanLoop]
      split
      · next here =>
          have changed := Bool.eq_false_of_not_eq_true here.2
          split
          · next long => exact ih (scans.repeated changed long)
          · exact ih (scans.single here.1 changed)
      · exact scans

theorem le_usizeSpanLoop (fuel : Nat) (s : UsizeSpan) :
    s.col ≤ (usizeSpanLoop target base fuel s).col := by
  induction fuel generalizing s with
  | zero => exact Nat.le_refl _
  | succ fuel ih =>
      simp only [usizeSpanLoop]
      split
      · split
        · refine Nat.le_trans ?_ (ih _)
          exact Nat.le_add_right _ _
        · refine Nat.le_trans ?_ (ih _)
          exact Nat.le_succ _
      · exact Nat.le_refl _

theorem usizeSpanLoop_advances (fuel : Nat) (s : UsizeSpan) (inside : s.col < target.length)
    (changed : unchanged target base s.col = false) :
    s.col < (usizeSpanLoop target base (fuel + 1) s).col := by
  simp only [usizeSpanLoop]
  rw [if_pos ⟨inside, by simp [changed]⟩]
  split
  · next long =>
      refine Nat.lt_of_lt_of_le ?_ (le_usizeSpanLoop fuel _)
      exact Nat.lt_add_of_pos_right (by omega)
  · refine Nat.lt_of_lt_of_le ?_ (le_usizeSpanLoop fuel _)
    exact Nat.lt_succ_self s.col

theorem usizeRowLoop_scanned (fuel : Nat) {col : Nat} {runs : List UsizeRun}
    (enough : target.length ≤ col + fuel) (scanned : Scanned target base col runs) :
    Scanned target base target.length (usizeRowLoop target base fuel col runs) := by
  induction fuel generalizing col runs with
  | zero =>
      obtain rfl : col = target.length := Nat.le_antisymm scanned.inside enough
      exact scanned
  | succ fuel ih =>
      simp only [usizeRowLoop]
      split
      · next inside =>
          split
          · next same =>
              refine ih (by omega) ⟨inside, scanned.within, ?_⟩
              rw [scanned.columns, changedBefore_skip same]
          · next differs =>
              have done := usizeSpanLoop_scans target.length scanned.span
              have advanced : col < (usizeSpanLoop target base target.length
                  { col := col, literal := [], literalStart := col, runs := runs }).col := by
                obtain ⟨n, size⟩ := Nat.exists_eq_succ_of_ne_zero (Nat.ne_zero_of_lt inside)
                have changed := Bool.eq_false_of_not_eq_true differs
                rw [size]
                exact usizeSpanLoop_advances n ⟨col, [], col, runs⟩ inside changed
              exact ih (by omega) done.flush
      · next ended =>
          obtain rfl : col = target.length :=
            Nat.le_antisymm scanned.inside (Nat.le_of_not_lt ended)
          exact scanned

theorem usizeRowRuns_scanned : Scanned target base target.length (usizeRowRuns target base) :=
  usizeRowLoop_scanned target.length (Nat.le_add_left _ _)
    ⟨Nat.zero_le _, fun _ member => absurd member List.not_mem_nil, rfl⟩

theorem usizeRowRuns_fit (short : target.length < 2 ^ 16) :
    ∀ run ∈ usizeRowRuns target base, run.Fits :=
  fun run member => (usizeRowRuns_scanned.within run member).fits short

theorem rowRuns_columns (short : target.length < 2 ^ 16) :
    (rowRuns target base).flatMap Run.columns = changedBefore target base target.length := by
  rw [rowRuns_eq_map_cast, List.flatMap_map, ← usizeRowRuns_scanned.columns]
  exact List.flatMap_congr fun run member => UsizeRun.columns_cast (usizeRowRuns_fit short run member)

end Columns

section Cells
variable {target base : ScreenState}

/-- Where the patch writes in the buffer of a screen `cols` wide. -/
def RowPatch.written (cols : Nat) (patch : RowPatch) : List Nat :=
  (patch.runs.flatMap Run.columns).map (patch.row.toNat * cols + ·)

/-- Where the diff writes, in the order it writes. -/
def ScreenDiff.written (cols : Nat) (d : ScreenDiff) : List Nat :=
  d.rows.flatMap (RowPatch.written cols)

/-- The places of a buffer, taken row by row. -/
theorem range_mul (rows cols : Nat) :
    List.range (rows * cols) =
      (List.range rows).flatMap fun r => (List.range cols).map (r * cols + ·) := by
  induction rows with
  | zero => simp
  | succ rows ih =>
      rw [Nat.succ_mul, List.range_add, ih, List.range_succ, List.flatMap_append,
        List.flatMap_singleton]

theorem rowPatches_written (baseRow : Nat → Option (List Cell)) (cols : Nat) :
    (rowPatches target baseRow).flatMap (RowPatch.written cols) =
      (List.range target.rows.toNat).flatMap fun r =>
        ((rowRuns (target.row r) (baseRow r)).flatMap Run.columns).map (r * cols + ·) := by
  rw [rowPatches, List.filterMap_eq_flatMap_toList, List.flatMap_assoc]
  refine List.flatMap_congr fun r below => ?_
  have row := toNat_ofNat_row (List.mem_range.mp below)
  cases runs : rowRuns (target.row r) (baseRow r) with
  | nil => rfl
  | cons first rest =>
      simp only [List.isEmpty_cons, Bool.false_eq_true, if_false, Option.toList_some,
        List.flatMap_singleton, RowPatch.written, row]

/-- With the geometry unchanged, a column is unchanged when its cell is. -/
theorem unchanged_baseRow (baseValid : base.Valid) (same : ¬ ScreenState.resized target base)
    {r c : Nat} (below : r < target.rows.toNat) (inside : c < target.cols.toNat) :
    unchanged (target.row r) (ScreenState.baseRow target base r) c = true ↔
      target.cells[r * target.cols.toNat + c]? = base.cells[r * target.cols.toNat + c]? := by
  have geometry := same
  simp only [ScreenState.resized, not_or, not_not] at geometry
  obtain ⟨rows, cols⟩ := geometry
  have present : ScreenState.baseRow target base r = some (base.row r) := by
    have inBase : ¬ r ≥ base.rows.toNat := by rw [← rows]; omega
    simp only [ScreenState.baseRow, same, inBase, or_self, if_false]
  have length := length_row baseValid (r := r) (by rwa [← rows])
  rw [present]
  simp only [unchanged, Bool.and_eq_true, decide_eq_true_eq, beq_iff_eq]
  rw [getElem?_row inside, getElem?_row (cols ▸ inside), length, ← cols]
  exact and_iff_right inside

/-- With the geometry unchanged, a diff writes the cells that differ, in order. -/
theorem diffFrom_written (valid : target.Valid) (baseValid : base.Valid)
    (same : ¬ ScreenState.resized target base) :
    (ScreenState.diffFrom target base).written target.cols.toNat =
      (List.range target.expected).filter fun i => target.cells[i]? ≠ base.cells[i]? := by
  rw [ScreenDiff.written, ScreenState.expected, range_mul, List.filter_flatMap]
  refine (rowPatches_written _ _).trans (List.flatMap_congr fun r below => ?_)
  have length := length_row valid (List.mem_range.mp below)
  have short : (target.row r).length < 2 ^ 16 := by
    rw [length]
    exact target.cols.toNat_lt
  rw [rowRuns_columns short, changedBefore, length, List.filter_map]
  refine congrArg (List.map _) (List.filter_congr fun c inside => ?_)
  have column := unchanged_baseRow baseValid same (List.mem_range.mp below)
    (List.mem_range.mp inside)
  simp only [Function.comp_apply, ne_eq, ← column]
  simp

/-- A diff turns its base into its target in every field, a full state turns
any state into it, and a diff between screens of one size writes the cells
that differ and no others, from left to right and from the top down. -/
theorem screen_diff_undoes_exactly (target base : ScreenState)
    (valid : target.validate = .ok ()) (baseValid : base.validate = .ok ()) :
    ScreenState.apply base base.seq target.seq (ScreenState.diffFrom target base) =
        (target, .ok ()) ∧
      (∀ held : ScreenState, held.validate = .ok () →
        ScreenState.apply held 0 target.seq (ScreenState.fullDiff target) = (target, .ok ())) ∧
      (¬ ScreenState.resized target base →
        (ScreenState.diffFrom target base).written target.cols.toNat =
          (List.range target.expected).filter fun i => target.cells[i]? ≠ base.cells[i]?) ∧
      ∀ r < target.rows.toNat, ∀ baseRow : Option (List Cell),
        rowRuns (target.row r) baseRow =
            (usizeRowRuns (target.row r) baseRow).map UsizeRun.cast ∧
          ∀ run ∈ usizeRowRuns (target.row r) baseRow, run.Fits := by
  have targetValid := (ScreenState.validate_ok target).mp valid
  have sourceValid := (ScreenState.validate_ok base).mp baseValid
  refine ⟨screen_apply_diffFrom targetValid sourceValid,
    fun held _ => screen_apply_fullDiff targetValid,
    diffFrom_written targetValid sourceValid, fun r below baseRow => ?_⟩
  refine ⟨rowRuns_eq_map_cast _ _, usizeRowRuns_fit ?_⟩
  rw [length_row targetValid below]
  exact target.cols.toNat_lt

/-- A screen of two cells whose first one shows `a`, against a blank one. -/
theorem screen_diff_undoes_exactly_letter :
    let base := ScreenState.blankState 1 2
    let target : ScreenState :=
      { base with seq := 2, cells := [{ Cell.blank with text := ['a'] }, Cell.blank] }
    (target.validate = .ok () ∧ base.validate = .ok ()) ∧
      (ScreenState.diffFrom target base).written 2 = [0] ∧
      ScreenState.apply base 1 2 (ScreenState.diffFrom target base) = (target, .ok ()) := by
  intro base target
  have baseValid : base.validate = .ok () := by rfl
  have targetValid : target.validate = .ok () := by rfl
  have undoes := screen_diff_undoes_exactly target base targetValid baseValid
  refine ⟨⟨targetValid, baseValid⟩, ?_, undoes.1⟩
  have written := undoes.2.2.1 (by decide)
  exact written.trans (by decide)

end Cells
end Oxutrm.Sync
