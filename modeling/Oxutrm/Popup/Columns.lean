import Oxutrm.Config.Settings
import Oxutrm.Popup.Status

/-!
Rows of columns as texts, all measured in cells: what is padded, what is cut, and which of
the selector's columns give way in a narrow box.
-/
namespace Oxutrm.Popup
open Proto Drawing Checked

def trimEnd (text : Text) : Text := (text.reverse.dropWhile Config.isWhiteSpace).reverse

def ellipsis : Char := '\u2026'

def cursorMarker (selected : Bool) : Char := if selected then '\u25b8' else ' '

structure SessionRow where
  name : Text
  shell : Text
  started : Text
  size : Text
  mark : Text
  /-- A session that cannot be switched to. -/
  dimmed : Bool
  /-- The name is being typed, and is cut at its start. -/
  field : Bool
  deriving DecidableEq, Repr

def sessionNameCols : Nat := 24
def sessionNameMin : Nat := 8
def sessionShellCols : Nat := 12
def sessionShellMin : Nat := 4
def sessionGap : Text := "  ".toList

/-- The widths of the columns; one that is given up has none. -/
structure SessionCols where
  name : Nat
  shell : Option Nat
  started : Option Nat
  size : Option Nat
  mark : Nat
  deriving DecidableEq, Repr

section Texts
variable (kit : Toolkit)

def padded (text : Text) (cols : Nat) : Text := text ++ List.replicate (cols - kit.cells text) ' '

/-- As many of the characters as there is room for. -/
def takeCells (room : Nat) : List Char → (used : Nat) → List Char
  | [], _ => []
  | c :: chars, used =>
      let w := (kit.charWidth c).getD 0
      if used + w > room then [] else c :: takeCells room chars (used + w)

/-- The text in at most `cols` cells. -/
def cut (text : Text) (cols : Nat) (keepEnd : Bool) : Text :=
  if kit.cells text ≤ cols then text
  else
    match cols with
    | 0 => []
    | room + 1 =>
        if keepEnd then ellipsis :: (takeCells kit room text.reverse 0).reverse
        else takeCells kit room text 0 ++ [ellipsis]

/-- With a space after a cut. -/
def column (text : Text) (cols : Nat) (keepEnd : Bool) : Text :=
  if kit.cells text ≤ cols then padded kit text cols
  else
    let room := cols - 1
    padded kit (cut kit text room keepEnd) room ++ [' ']

namespace SessionCols

def widest (f : SessionRow → Text) (rows : List SessionRow) : Nat := (rows.map fun r => kit.cells (f r)).foldl max 0

def of (rows : List SessionRow) : SessionCols where
  name := max sessionNameMin (min (widest kit (·.name) rows) sessionNameCols)
  shell := some (min (widest kit (·.shell) rows) sessionShellCols)
  started := some (widest kit (·.started) rows)
  size := some (widest kit (·.size) rows)
  mark := widest kit (·.mark) rows

/-- A column and the gap before it. -/
def after : Option Nat → Nat
  | some w => sessionGap.length + w
  | none => 0

/-- How wide the widest row is. -/
def width (c : SessionCols) : Nat :=
  2 + c.name + after c.shell + after c.started + after c.size + after ((some c.mark).filter (· > 0))

/-- What there is no room for. -/
def excess (c : SessionCols) (width : Nat) : Nat := c.width - width

def narrowName (c : SessionCols) (width : Nat) : Option SessionCols := do
  let spare ← sub c.name sessionNameMin
  let name ← sub c.name (min (c.excess width) spare)
  some { c with name := name }

def narrowShell (c : SessionCols) (width : Nat) : Option SessionCols :=
  match c.shell with
  | none => some c
  | some shell => do
      let spare ← sub shell (min sessionShellMin shell)
      let cut := min (c.excess width) spare
      let shell ← sub shell cut
      some { c with shell := some shell }

/-- Narrowed so that the mark stays in view: the name gives way first, then the size, the
start and the shell. -/
def fitted (c : SessionCols) (width : Nat) : Option SessionCols := do
  let c ← c.narrowName width
  let c := if c.excess width > 0 then { c with size := none } else c
  let c := if c.excess width > 0 then { c with started := none } else c
  let c ← c.narrowShell width
  some (if c.excess width > 0 then { c with shell := none } else c)

/-- One row as text. -/
def line (c : SessionCols) (r : SessionRow) (selected : Bool) : Text :=
  let columns := [(r.shell, c.shell), (r.started, c.started), (r.size, c.size)].flatMap fun (value, cols) =>
    match cols with
    | some cols => sessionGap ++ padded kit (cut kit value cols false) cols
    | none => []
  trimEnd ([cursorMarker selected, ' '] ++ padded kit (cut kit r.name c.name r.field) c.name ++ columns ++
    sessionGap ++ r.mark)

theorem runs_fitted (rows : List SessionRow) (width : Nat) :
    Runs ((of kit rows).fitted width) fun c => sessionNameMin ≤ c.name := by
  have least : sessionNameMin ≤ (of kit rows).name := Nat.le_max_left _ _
  unfold fitted
  refine Runs.bind (P := fun c => sessionNameMin ≤ c.name) ?_ fun c named => ?_
  · refine Runs.bind (runs_sub least) ?_
    rintro _ rfl
    refine Runs.bind (runs_sub (by omega)) ?_
    rintro _ rfl
    exact Runs.pure (by dsimp only; omega)
  extract_lets sized started
  have kept : started.name = c.name := by
    have size : sized.name = c.name := apply_ite name _ _ _ |>.trans (ite_self _)
    have start : started.name = sized.name := apply_ite name _ _ _ |>.trans (ite_self _)
    exact start.trans size
  refine Runs.bind (P := fun c => sessionNameMin ≤ c.name) ?_ fun c named => Runs.pure ?_
  · unfold narrowShell
    split
    · exact Runs.pure (kept ▸ named)
    · refine Runs.bind (runs_sub (Nat.min_le_right _ _)) ?_
      rintro _ rfl
      refine Runs.bind (runs_sub (by omega)) ?_
      rintro _ rfl
      exact Runs.pure (kept ▸ named)
  · have name : (if c.excess width > 0 then { c with shell := none } else c).name = c.name :=
      apply_ite SessionCols.name _ _ _ |>.trans (ite_self _)
    exact named.trans (Nat.le_of_eq name.symm)

end SessionCols
end Texts
end Oxutrm.Popup
