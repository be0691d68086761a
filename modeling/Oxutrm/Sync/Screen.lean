import Oxutrm.Proto.Screen
import Oxutrm.Sync.Channel

/-!
Diffing one screen against another, loop by loop as the source does it. `apply`
works through its checks in the source's order and returns what it has painted
by the time it fails.
-/
namespace Oxutrm.Sync
open Proto

/-- A stretch of one row: `cells`, emitted `repeats + 1` times. -/
structure Run where
  startCol : UInt16
  repeats : UInt16
  cells : List Cell
  deriving DecidableEq, Repr

def Run.width (run : Run) : Nat := run.cells.length * (run.repeats.toNat + 1)

/-- The cells a run writes, in order. -/
def Run.expanded (run : Run) : List Cell :=
  (List.replicate (run.repeats.toNat + 1) run.cells).flatten

structure RowPatch where
  row : UInt16
  runs : List Run
  deriving DecidableEq, Repr

structure ScreenDiff where
  resize : Option TermSize
  rows : List RowPatch
  cursor : Option Cursor
  modes : Option Modes
  title : Option Text
  bell : Option UInt32
  scrollbackLen : Option UInt64
  clipboard : Option Clipboard
  links : List (UInt16 × Option Text)
  deriving DecidableEq, Repr

/-- The changes that turn the base's link table into the target's. -/
def linkChanges (target base : ScreenState) : List (UInt16 × Option Text) :=
  (target.links.toList.filter fun p => base.links[p.1]? ≠ some p.2).map
      (fun p => (p.1, some p.2)) ++
    (base.links.keys.filter fun id => ¬ target.links.contains id).map fun id => (id, none)

section RowRuns
variable (target : List Cell) (base : Option (List Cell))

/-- Column `col` already shows the target's cell. -/
def unchanged (col : Nat) : Bool :=
  match base with
  | some base => col < base.length && target[col]? == base[col]?
  | none => false

/-- How far the cell at `col` repeats, counted on from `n`. -/
def runLen (col : Nat) : Nat → Nat → Nat
  | 0, n => n
  | fuel + 1, n =>
      if col + n < target.length ∧ target[col + n]? = target[col]? ∧
          ¬ unchanged target base (col + n) then
        runLen col fuel (n + 1)
      else n

/-- Pushes the pending literal, if there is one. -/
def flush (literal : List Cell) (literalStart : Nat) (runs : List Run) : List Run :=
  if literal.isEmpty then runs
  else runs ++ [{ startCol := UInt16.ofNat literalStart, repeats := 0, cells := literal }]

structure Span where
  col : Nat
  literal : List Cell
  literalStart : Nat
  runs : List Run

/-- One maximal span of changed cells, run-length encoded within itself. -/
def spanLoop : Nat → Span → Span
  | 0, s => s
  | fuel + 1, s =>
      if s.col < target.length ∧ ¬ unchanged target base s.col then
        let len := runLen target base s.col target.length 1
        if 2 ≤ len then
          spanLoop fuel
            { col := s.col + len
              literal := []
              literalStart := s.col + len
              runs := flush s.literal s.literalStart s.runs ++
                [{ startCol := UInt16.ofNat s.col, repeats := UInt16.ofNat (len - 1),
                   cells := target[s.col]?.toList }] }
        else
          spanLoop fuel
            { col := s.col + 1
              literal := s.literal ++ target[s.col]?.toList
              literalStart := if s.literal.isEmpty then s.col else s.literalStart
              runs := s.runs }
      else s

def rowLoop : Nat → Nat → List Run → List Run
  | 0, _, runs => runs
  | fuel + 1, col, runs =>
      if col < target.length then
        if unchanged target base col then rowLoop fuel (col + 1) runs
        else
          let s := spanLoop target base target.length
            { col := col, literal := [], literalStart := col, runs := runs }
          rowLoop fuel s.col (flush s.literal s.literalStart s.runs)
      else runs

/-- One row as runs, emitting only what changed. Every iteration advances by a
column, so the row's length is fuel enough. -/
def rowRuns : List Run := rowLoop target base target.length 0 []

end RowRuns

def rowPatches (target : ScreenState) (baseRow : Nat → Option (List Cell)) : List RowPatch :=
  (List.range target.rows.toNat).filterMap fun r =>
    let runs := rowRuns (target.row r) (baseRow r)
    if runs.isEmpty then none else some { row := UInt16.ofNat r, runs := runs }

/-- `(a != b).then_some(a)`. -/
def changed {α : Type} [DecidableEq α] (a b : α) : Option α := if a ≠ b then some a else none

namespace ScreenState

def resized (target base : ScreenState) : Prop :=
  target.rows ≠ base.rows ∨ target.cols ≠ base.cols

instance (target base : ScreenState) : Decidable (resized target base) :=
  inferInstanceAs (Decidable (_ ∨ _))

/-- After a resize the receiver's buffer is blank, so there is no base row. -/
def baseRow (target base : ScreenState) (r : Nat) : Option (List Cell) :=
  if resized target base ∨ r ≥ base.rows.toNat then none else some (base.row r)

def diffFrom (target base : ScreenState) : ScreenDiff where
  resize := if resized target base then some target.size else none
  rows := rowPatches target (baseRow target base)
  cursor := changed target.cursor base.cursor
  modes := changed target.modes base.modes
  title := changed target.title base.title
  bell := changed target.bell base.bell
  scrollbackLen := changed target.scrollbackLen base.scrollbackLen
  clipboard := changed target.clipboard base.clipboard
  links := linkChanges target base

def fullDiff (target : ScreenState) : ScreenDiff where
  resize := some target.size
  rows := rowPatches target fun _ => none
  cursor := some target.cursor
  modes := some target.modes
  title := some target.title
  bell := some target.bell
  scrollbackLen := some target.scrollbackLen
  clipboard := some target.clipboard
  links := target.links.toList.map fun p => (p.1, some p.2)

end ScreenState

/-- `self.cells[pos] = cell; pos += 1` for each cell. -/
def paint : List Cell → Nat → List Cell → List Cell
  | cells, _, [] => cells
  | cells, pos, c :: cs => paint (cells.set pos c) (pos + 1) cs

def paintRuns (row cols : UInt16) : List Run → List Cell → List Cell × Checked
  | [], cells => (cells, .ok ())
  | run :: runs, cells =>
      andThen (cells, do
        refuse (run.startCol.toNat + run.width > cols.toNat)
          (.runOverflowsRow row (run.startCol.toNat + run.width) cols)
        checkEach (fun cell => checkCellText cell.text) run.cells) fun cells =>
      paintRuns row cols runs
        (paint cells (row.toNat * cols.toNat + run.startCol.toNat) run.expanded)

def paintRows (rows cols : UInt16) : List RowPatch → List Cell → List Cell × Checked
  | [], cells => (cells, .ok ())
  | patch :: patches, cells =>
      andThen (cells, refuse (patch.row ≥ rows) (.outOfBounds patch.row rows)) fun cells =>
      andThen (paintRuns patch.row cols patch.runs cells) fun cells =>
      paintRows rows cols patches cells

/-- The checks made before anything is applied: I8 for the title and the
clipboard, I10 for the link entries. -/
def ScreenDiff.check (d : ScreenDiff) : Checked := do
  checkSome checkTitle d.title
  checkSome checkClipboard d.clipboard
  refuse (d.links.length > 2 * maxLinks) (.tooManyLinks d.links.length (2 * maxLinks))
  checkEach (fun p => do
    refuse (p.1 = 0) .linkIdZero
    checkSome (checkLinkUri p.1) p.2) d.links

def setLink (links : Links) (p : UInt16 × Option Text) : Links :=
  match p.2 with
  | some uri => links.insert p.1 uri
  | none => links.erase p.1

namespace ScreenState

/-- The buffer is reallocated blank, never reshaped. -/
def applyResize (s : ScreenState) : Option TermSize → ScreenState × Checked
  | none => (s, .ok ())
  | some size =>
      andThen (s, size.checkBounds) fun s =>
      ({ s with
          rows := size.rows
          cols := size.cols
          cells := List.replicate (size.rows.toNat * size.cols.toNat) Cell.blank },
        .ok ())

def applyRows (s : ScreenState) (patches : List RowPatch) : ScreenState × Checked :=
  let (cells, result) := paintRows s.rows s.cols patches s.cells
  ({ s with cells := cells }, result)

/-- The assignments that follow the row patches; none of them can fail. -/
def applyRest (s : ScreenState) (base target : UInt64) (d : ScreenDiff) : ScreenState :=
  { s with
    cursor := d.cursor.getD s.cursor
    modes := d.modes.getD s.modes
    title := d.title.getD s.title
    bell := d.bell.getD s.bell
    scrollbackLen := d.scrollbackLen.getD s.scrollbackLen
    clipboard := d.clipboard.getD s.clipboard
    links := d.links.foldl setLink (if base = 0 then ∅ else s.links)
    seq := target }

def apply (s : ScreenState) (base target : UInt64) (d : ScreenDiff) : ScreenState × Checked :=
  andThen (s, refuse (base ≠ 0 ∧ base ≠ s.seq) (.baseMismatch base s.seq)) fun s =>
  andThen (s, d.check) fun s =>
  andThen (applyResize s d.resize) fun s =>
  andThen (applyRows s d.rows) fun s =>
  (applyRest s base target d, .ok ())

end ScreenState

instance : SyncState ScreenState ScreenDiff where
  seq := Proto.ScreenState.seq
  setSeq s seq := { s with seq := seq }
  validate := Proto.ScreenState.validate
  validateTransition := Proto.ScreenState.validateTransition
  diffFrom := ScreenState.diffFrom
  apply := ScreenState.apply
  fullDiff := ScreenState.fullDiff

end Oxutrm.Sync
