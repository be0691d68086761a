import Oxutrm.Sync.ScreenLaws

/-!
What `apply` has written by the time it refuses a diff: the cells of every run before
the first one that is refused, in order, on a screen that may have been resized.
-/
namespace Oxutrm.Sync
open Proto

/-- `self.cells[pos] = cell`. -/
structure Write where
  pos : Nat
  cell : Cell
  deriving DecidableEq, Repr

def write (cells : List Cell) (writes : List Write) : List Cell :=
  writes.foldl (fun cells w => cells.set w.pos w.cell) cells

def lastWrite (pos : Nat) (writes : List Write) : Option Cell :=
  (writes.reverse.find? fun w => w.pos = pos).map (·.cell)

namespace Run

/-- The check of a run, before anything of it is written. -/
def check (row cols : UInt16) (run : Run) : Checked := do
  refuse (run.startCol.toNat + run.width > cols.toNat)
    (.runOverflowsRow row (run.startCol.toNat + run.width) cols)
  checkEach (fun cell => checkCellText cell.text) run.cells

/-- The cells of a run from `pos` on. -/
def writesFrom : Nat → List Cell → List Write
  | _, [] => []
  | pos, c :: cs => ⟨pos, c⟩ :: writesFrom (pos + 1) cs

def writes (row cols : UInt16) (run : Run) : List Write :=
  writesFrom (row.toNat * cols.toNat + run.startCol.toNat) run.expanded

end Run

/-- The writes of the runs of one row, up to the first that is refused. -/
def runWrites (row cols : UInt16) : List Run → List Write
  | [] => []
  | run :: runs =>
      if run.check row cols = .ok () then run.writes row cols ++ runWrites row cols runs else []

def RowPatch.Fine (rows cols : UInt16) (patch : RowPatch) : Prop :=
  patch.row < rows ∧ ∀ run ∈ patch.runs, run.check patch.row cols = .ok ()

instance (rows cols : UInt16) (patch : RowPatch) : Decidable (patch.Fine rows cols) :=
  inferInstanceAs (Decidable (_ ∧ _))

/-- The writes of all row patches, up to the first refusal. -/
def patchWrites (rows cols : UInt16) : List RowPatch → List Write
  | [] => []
  | patch :: patches =>
      if patch.row < rows then
        runWrites patch.row cols patch.runs ++
          if patch.Fine rows cols then patchWrites rows cols patches else []
      else []

theorem write_append (cells : List Cell) (xs ys : List Write) :
    write cells (xs ++ ys) = write (write cells xs) ys := List.foldl_append

@[simp] theorem length_write (cells : List Cell) (writes : List Write) :
    (write cells writes).length = cells.length := by
  induction writes generalizing cells with
  | nil => rfl
  | cons w writes ih => exact (ih _).trans List.length_set

theorem write_writesFrom (cells : List Cell) (pos : Nat) (cs : List Cell) :
    write cells (Run.writesFrom pos cs) = paint cells pos cs := by
  induction cs generalizing cells pos with
  | nil => rfl
  | cons c cs ih => exact ih _ _

theorem lastWrite_cons (pos : Nat) (w : Write) (writes : List Write) :
    lastWrite pos (w :: writes) =
      (lastWrite pos writes).or (if w.pos = pos then some w.cell else none) := by
  simp only [lastWrite, List.reverse_cons, List.find?_append, Option.map_or]
  congr 1
  by_cases here : w.pos = pos
  · simp [here]
  · simp [here]

theorem getElem?_write (cells : List Cell) (writes : List Write) {i : Nat} (inside : i < cells.length) :
    (write cells writes)[i]? = (lastWrite i writes).or cells[i]? := by
  induction writes generalizing cells with
  | nil => rfl
  | cons w writes ih =>
      have first := ih (cells.set w.pos w.cell) (by rwa [List.length_set])
      refine first.trans ?_
      rw [lastWrite_cons, Option.or_assoc]
      congr 1
      rw [List.getElem?_set]
      by_cases here : w.pos = i
      · simp [here, inside]
      · simp [here]

theorem paintRuns_cons (row cols : UInt16) (run : Run) (runs : List Run) (cells : List Cell) :
    paintRuns row cols (run :: runs) cells =
      andThen (cells, run.check row cols) fun cells =>
        paintRuns row cols runs (write cells (run.writes row cols)) := by
  simp only [Run.writes, write_writesFrom]
  rfl

/-- The runs of a row paint what stands before the first one that is refused. -/
theorem paintRuns_writes (row cols : UInt16) (runs : List Run) (cells : List Cell) :
    (paintRuns row cols runs cells).1 = write cells (runWrites row cols runs) ∧
      ((paintRuns row cols runs cells).2 = .ok () ↔
        ∀ run ∈ runs, run.check row cols = .ok ()) := by
  induction runs generalizing cells with
  | nil => exact ⟨rfl, by simp [paintRuns]⟩
  | cons run runs ih =>
      rw [runWrites, paintRuns_cons, List.forall_mem_cons]
      cases checked : run.check row cols with
      | error e => simp [andThen, write]
      | ok _ =>
          obtain ⟨cells', fine⟩ := ih (write cells (run.writes row cols))
          simp only [andThen, if_true, true_and, write_append]
          exact ⟨cells', fine⟩

theorem paintRows_writes (rows cols : UInt16) (patches : List RowPatch) (cells : List Cell) :
    (paintRows rows cols patches cells).1 = write cells (patchWrites rows cols patches) ∧
      ((paintRows rows cols patches cells).2 = .ok () ↔
        ∀ patch ∈ patches, patch.Fine rows cols) := by
  induction patches generalizing cells with
  | nil => exact ⟨rfl, by simp [paintRows]⟩
  | cons patch patches ih =>
      rw [paintRows, patchWrites, List.forall_mem_cons]
      by_cases below : patch.row < rows
      · have inside : ¬ patch.row ≥ rows := UInt16.not_le.mpr below
        obtain ⟨painted, fine⟩ := paintRuns_writes patch.row cols patch.runs cells
        simp only [refuse, inside, if_false, andThen, below, if_true]
        rcases runs : paintRuns patch.row cols patch.runs cells with ⟨cells', result⟩
        rw [runs] at painted fine
        cases result with
        | error e =>
            have unfine : ¬ patch.Fine rows cols := fun whole => by
              cases fine.mpr whole.2
            simp only [unfine, if_false, List.append_nil, false_and, iff_false]
            exact ⟨painted, by simp⟩
        | ok _ =>
            have whole : patch.Fine rows cols := ⟨below, fine.mp rfl⟩
            obtain ⟨more, rest⟩ := ih cells'
            simp only [whole, if_true, true_and, write_append]
            rw [← painted]
            exact ⟨more, rest⟩
      · have outside : patch.row ≥ rows := UInt16.not_lt.mp below
        have unfine : ¬ patch.Fine rows cols := fun whole => below whole.1
        simp [refuse, outside, andThen, below, unfine, write]

def ScreenDiff.sizeOn (d : ScreenDiff) (s : ScreenState) : TermSize := d.resize.getD s.size

/-- Refused before anything is written. -/
def ScreenDiff.RefusedEarly (d : ScreenDiff) (s : ScreenState) (base : UInt64) : Prop :=
  (base ≠ 0 ∧ base ≠ s.seq) ∨ d.check ≠ .ok () ∨ ∃ size, d.resize = some size ∧
    size.checkBounds ≠ .ok ()

def ScreenDiff.RowsFine (d : ScreenDiff) (s : ScreenState) : Prop :=
  ∀ patch ∈ d.rows, patch.Fine (d.sizeOn s).rows (d.sizeOn s).cols

/-- What a diff writes up to its first refusal is what the screen shows already. -/
def ScreenDiff.Idle (d : ScreenDiff) (s : ScreenState) : Prop :=
  d.sizeOn s = s.size ∧
    ∀ i cell, s.cells[i]? = some cell →
      (lastWrite i (patchWrites s.rows s.cols d.rows)).getD
        (if d.resize.isSome then Cell.blank else cell) = cell

namespace ScreenState
variable {s : ScreenState} {base target : UInt64} {d : ScreenDiff}

/-- The screen the row patches are painted on. -/
def resizedTo (s : ScreenState) : Option TermSize → ScreenState
  | none => s
  | some size =>
      { s with
        rows := size.rows
        cols := size.cols
        cells := List.replicate (size.rows.toNat * size.cols.toNat) Cell.blank }

theorem apply_early (early : d.RefusedEarly s base) : ∃ e, apply s base target d = (s, .error e) := by
  unfold apply
  by_cases named : base ≠ 0 ∧ base ≠ s.seq
  · exact ⟨_, by simp only [refuse, if_pos named, andThen]; rfl⟩
  · simp only [refuse, if_neg named, andThen]
    cases checked : d.check with
    | error e => exact ⟨e, rfl⟩
    | ok _ =>
        rcases early with wrong | refused | ⟨size, resize, large⟩
        · exact absurd wrong named
        · exact absurd checked refused
        · simp only [applyResize, resize]
          cases bounds : size.checkBounds with
          | error e => exact ⟨e, rfl⟩
          | ok _ => exact absurd bounds large

theorem apply_late (late : ¬ d.RefusedEarly s base) :
    apply s base target d = andThen (applyRows (resizedTo s d.resize) d.rows) fun s =>
      (applyRest s base target d, .ok ()) := by
  simp only [ScreenDiff.RefusedEarly, not_or, not_not] at late
  obtain ⟨named, checked, sized⟩ := late
  simp only [apply, refuse, if_neg named, andThen, checked]
  cases resize : d.resize with
  | none => rfl
  | some size =>
      have bounds : size.checkBounds = .ok () := by
        by_contra large
        exact sized ⟨size, resize, large⟩
      simp only [applyResize, bounds, andThen]
      rfl

theorem size_resizedTo (s : ScreenState) (d : ScreenDiff) :
    (resizedTo s d.resize).rows = (d.sizeOn s).rows ∧
      (resizedTo s d.resize).cols = (d.sizeOn s).cols := by
  unfold resizedTo ScreenDiff.sizeOn
  cases d.resize <;> exact ⟨rfl, rfl⟩

/-- A refused row patch leaves the resized screen with what was written before it. -/
theorem apply_refused (late : ¬ d.RefusedEarly s base) (unfine : ¬ d.RowsFine s) :
    ∃ e, apply s base target d =
      ({ resizedTo s d.resize with
          cells := write (resizedTo s d.resize).cells
            (patchWrites (d.sizeOn s).rows (d.sizeOn s).cols d.rows) }, .error e) := by
  obtain ⟨rows, cols⟩ := size_resizedTo s d
  obtain ⟨painted, fine⟩ := paintRows_writes (d.sizeOn s).rows (d.sizeOn s).cols d.rows
    (resizedTo s d.resize).cells
  rw [apply_late late]
  simp only [applyRows, rows, cols]
  rcases result : paintRows (d.sizeOn s).rows (d.sizeOn s).cols d.rows
    (resizedTo s d.resize).cells with ⟨cells, outcome⟩
  rw [result] at painted fine
  cases outcome with
  | error e => exact ⟨e, by simp only [andThen]; rw [← painted]⟩
  | ok _ => exact absurd (fine.mp rfl) unfine

theorem apply_fine (late : ¬ d.RefusedEarly s base) (fine : d.RowsFine s) :
    (apply s base target d).2 = .ok () := by
  obtain ⟨rows, cols⟩ := size_resizedTo s d
  have painted := (paintRows_writes (d.sizeOn s).rows (d.sizeOn s).cols d.rows
    (resizedTo s d.resize).cells).2.mpr fine
  rw [apply_late late]
  simp only [applyRows, rows, cols]
  rcases result : paintRows (d.sizeOn s).rows (d.sizeOn s).cols d.rows
    (resizedTo s d.resize).cells with ⟨cells, outcome⟩
  rw [result] at painted
  rw [show outcome = .ok () from painted]
  rfl

theorem write_eq_iff {cells goal : List Cell} (size : cells.length = goal.length)
    (writes : List Write) :
    write cells writes = goal ↔
      ∀ i cell, goal[i]? = some cell → (lastWrite i writes).or cells[i]? = some cell := by
  constructor
  · rintro rfl i cell shown
    have inside : i < cells.length := by
      rw [← length_write cells writes]
      exact (List.getElem?_eq_some_iff.mp shown).1
    rwa [← getElem?_write cells writes inside]
  · intro idle
    apply List.ext_getElem?
    intro i
    by_cases inside : i < goal.length
    · rw [getElem?_write cells writes (by omega), List.getElem?_eq_getElem inside]
      exact idle i _ (List.getElem?_eq_getElem inside)
    · rw [List.getElem?_eq_none (by rw [length_write]; omega), List.getElem?_eq_none (by omega)]

theorem or_eq_some_iff {α : Type} (o : Option α) (a b : α) :
    o.or (some a) = some b ↔ o.getD a = b := by
  cases o <;> simp

/-- The writes before a refusal leave the screen as it was exactly when they are idle. -/
theorem written_eq_iff (valid : s.Valid) :
    { resizedTo s d.resize with
      cells := write (resizedTo s d.resize).cells
        (patchWrites (d.sizeOn s).rows (d.sizeOn s).cols d.rows) } = s ↔ d.Idle s := by
  have length := valid.length
  cases resize : d.resize with
  | none =>
      have same : d.sizeOn s = s.size := by rw [ScreenDiff.sizeOn, resize]; rfl
      have shown : { resizedTo s none with
          cells := write (resizedTo s none).cells (patchWrites s.rows s.cols d.rows) } = s ↔
          write s.cells (patchWrites s.rows s.cols d.rows) = s.cells := by
        constructor
        · intro whole
          exact congrArg Proto.ScreenState.cells whole
        · intro cells
          simp only [resizedTo, cells]
      rw [same]
      refine shown.trans ?_
      rw [write_eq_iff rfl, ScreenDiff.Idle, same, resize]
      simp only [true_and, Option.isSome_none, Bool.false_eq_true, if_false]
      constructor
      · intro idle i cell here
        have or := idle i cell here
        rwa [here, or_eq_some_iff] at or
      · intro idle i cell here
        rw [here, or_eq_some_iff]
        exact idle i cell here
  | some size =>
      have sized : d.sizeOn s = size := by rw [ScreenDiff.sizeOn, resize]; rfl
      rw [sized, ScreenDiff.Idle, sized, resize]
      simp only [Option.isSome_some, if_true]
      -- a blank screen of the same size, painted on from the start
      have blanks : (List.replicate (s.rows.toNat * s.cols.toNat) Cell.blank).length =
          s.cells.length := by rw [List.length_replicate, length]; rfl
      have painted := write_eq_iff blanks (patchWrites s.rows s.cols d.rows)
      have idle : (∀ i cell, s.cells[i]? = some cell →
          (lastWrite i (patchWrites s.rows s.cols d.rows)).or
            (List.replicate (s.rows.toNat * s.cols.toNat) Cell.blank)[i]? = some cell) ↔
          ∀ i cell, s.cells[i]? = some cell →
            (lastWrite i (patchWrites s.rows s.cols d.rows)).getD Cell.blank = cell := by
        refine forall_congr' fun i => forall_congr' fun cell => imp_congr_right fun here => ?_
        have inside : i < s.rows.toNat * s.cols.toNat := by
          have below := (List.getElem?_eq_some_iff.mp here).1
          rwa [length] at below
        rw [List.getElem?_replicate, if_pos inside, or_eq_some_iff]
      rw [← idle, ← painted]
      constructor
      · intro whole
        have rows : size.rows = s.rows := congrArg Proto.ScreenState.rows whole
        have cols : size.cols = s.cols := congrArg Proto.ScreenState.cols whole
        have cells := congrArg Proto.ScreenState.cells whole
        simp only [resizedTo, rows, cols] at cells
        refine ⟨?_, cells⟩
        rw [Proto.ScreenState.size, ← rows, ← cols]
      · rintro ⟨rfl, cells⟩
        simp only [resizedTo, Proto.ScreenState.size, cells]

/-- A refused diff leaves the screen as it was exactly when it is refused before anything
is written, or what was written by then is what was there. -/
theorem refused_diff_applies_nothing_iff (valid : s.validate = .ok ()) (base target : UInt64)
    (d : ScreenDiff) :
    (∀ e, (apply s base target d).2 = .error e → (apply s base target d).1 = s) ↔
      d.RefusedEarly s base ∨ d.RowsFine s ∨ d.Idle s := by
  by_cases early : d.RefusedEarly s base
  · obtain ⟨e, refused⟩ := @apply_early s base target d early
    simp only [refused, early, true_or, iff_true]
    exact fun _ _ => trivial
  · by_cases fine : d.RowsFine s
    · have taken := @apply_fine s base target d early fine
      simp only [fine, true_or, or_true, iff_true]
      intro e refused
      rw [taken] at refused
      cases refused
    · obtain ⟨e, refused⟩ := @apply_refused s base target d early fine
      simp only [early, fine, false_or]
      rw [← written_eq_iff ((Proto.ScreenState.validate_ok s).mp valid), refused]
      exact ⟨fun unchanged => unchanged e rfl, fun same _ _ => same⟩

section Examples

def mark (text : Char) : Cell := { Cell.blank with text := [text] }

/-- A row that is painted, and one that is not there. -/
def halfGood (row : UInt16) : ScreenDiff where
  resize := none
  rows := [⟨0, [⟨0, 0, [mark 'h']⟩]⟩, ⟨row, []⟩]
  cursor := none
  modes := none
  title := none
  bell := none
  scrollbackLen := none
  clipboard := none
  links := []

def screen : ScreenState := Proto.ScreenState.blankState 2 1

theorem screen_valid : screen.validate = .ok () :=
  (Proto.ScreenState.validate_ok _).mpr (Proto.ScreenState.blankState_valid (by decide))

theorem refused_diff_applies_nothing_iff_fine :
    (∀ e, (apply screen 1 2 (halfGood 1)).2 = .error e → (apply screen 1 2 (halfGood 1)).1 = screen) ∧
    (halfGood 1).RowsFine screen := by
  have fine : (halfGood 1).RowsFine screen := by
    unfold ScreenDiff.RowsFine
    decide +kernel
  exact ⟨(refused_diff_applies_nothing_iff screen_valid 1 2 (halfGood 1)).mpr (Or.inr (Or.inl fine)),
    fine⟩

/-- The second row patch is refused and the first one stays painted. -/
theorem refused_diff_stays_painted :
    (apply screen 1 2 (halfGood 9)).2 = .error (.outOfBounds 9 2) ∧
    (apply screen 1 2 (halfGood 9)).1.cells = [mark 'h', Cell.blank] ∧
    screen.cells = [Cell.blank, Cell.blank] := by
  decide +kernel

end Examples

end ScreenState

end Oxutrm.Sync
