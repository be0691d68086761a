import Mathlib.Logic.Function.Basic
import Mathlib.Data.List.Basic

/-!
A terminal, one command at a time. The shown buffer is an unbounded plane of
spots. A two-column glyph occupies two of them, and overwriting one half erases
the other. How many columns a text occupies is a parameter.
-/
namespace Oxutrm.Vt

abbrev Text := List Char

inductive Color where
  | default
  | idx (n : Nat)
  | rgb (r g b : Nat)
  deriving DecidableEq, Repr

structure Pen where
  bold : Bool := false
  dim : Bool := false
  italic : Bool := false
  underline : Bool := false
  blink : Bool := false
  inverse : Bool := false
  hidden : Bool := false
  strike : Bool := false
  fg : Color := .default
  bg : Color := .default
  deriving DecidableEq, Repr

structure Link where
  params : Text
  uri : Text
  deriving DecidableEq, Repr

inductive Glyph where
  | narrow (text : Text)
  | lead (text : Text)
  | trail
  deriving DecidableEq, Repr

structure Spot where
  glyph : Glyph
  pen : Pen
  link : Option Link
  deriving DecidableEq, Repr

namespace Spot

/-- What erasing leaves: a blank in the background colour of the pen. -/
def blank (pen : Pen) : Spot := { glyph := .narrow [' '], pen := { bg := pen.bg }, link := none }

/-- Half of a two-column glyph whose other half was overwritten. -/
def halved (s : Spot) : Spot := { s with glyph := .narrow [' '] }

end Spot

abbrev Row := Nat → Spot

namespace Row

/-- The spot at `col` is about to be overwritten. -/
def part (row : Row) (col : Nat) : Row :=
  match (row col).glyph with
  | .narrow _ => row
  | .lead _ => Function.update row (col + 1) (row (col + 1)).halved
  | .trail => Function.update row (col - 1) (row (col - 1)).halved

/-- A text of no columns joins the glyph on the left. -/
def join (row : Row) (col : Nat) (text : Text) : Row :=
  match col with
  | 0 => row
  | col + 1 =>
      match (row col).glyph with
      | .narrow before =>
          Function.update row col { row col with glyph := .narrow (before ++ text) }
      | .lead before => Function.update row col { row col with glyph := .lead (before ++ text) }
      | .trail =>
          match (row (col - 1)).glyph with
          | .lead before => Function.update row (col - 1)
              { row (col - 1) with glyph := .lead (before ++ text) }
          | .narrow _ | .trail => row

def one (row : Row) (col : Nat) (text : Text) (pen : Pen) (link : Option Link) : Row :=
  Function.update (row.part col) col ⟨.narrow text, pen, link⟩

def two (row : Row) (col : Nat) (text : Text) (pen : Pen) (link : Option Link) : Row :=
  Function.update (Function.update ((row.part col).part (col + 1)) col ⟨.lead text, pen, link⟩)
    (col + 1) ⟨.trail, pen, link⟩

/-- A text of so many columns is written at `col`. -/
def put (row : Row) (col : Nat) (text : Text) (pen : Pen) (link : Option Link) : Nat → Row
  | 0 => row.join col text
  | 1 => row.one col text pen link
  | _ + 2 => row.two col text pen link

end Row

abbrev Plane := Nat → Row

/-- Everything blank, in the background colour of the pen. -/
def Plane.erased (pen : Pen) : Plane := fun _ _ => .blank pen

/-- The three tracking modes are separate switches. -/
structure Mouse where
  press : Bool := false
  button : Bool := false
  motion : Bool := false
  sgr : Bool := false
  deriving DecidableEq, Repr

/-- What is set aside while the alternate buffer is shown. -/
structure Saved where
  cells : Plane
  row : Nat
  col : Nat
  pen : Pen

structure Terminal where
  cells : Plane := Plane.erased {}
  row : Nat := 0
  col : Nat := 0
  pen : Pen := {}
  link : Option Link := none
  visible : Bool := true
  shape : Nat := 0
  title : Text := []
  paste : Bool := false
  mouse : Mouse := {}
  synchronized : Bool := false
  saved : Option Saved := none

/-- What a terminal is told: a text, a single control or escape, a control sequence
or an operating-system command. -/
inductive Command where
  | text (text : Text)
  | control (c : Char)
  | escape (c : Char)
  | csi (marks : Text) (params : List Nat) (inter : Text) (final : Char)
  | osc (payload : Text)
  deriving DecidableEq, Repr

namespace Pen

/-- One SGR parameter that stands alone. -/
def plain (p : Pen) (n : Nat) : Pen :=
  if n = 0 then {}
  else if n = 1 then { p with bold := true }
  else if n = 2 then { p with dim := true }
  else if n = 3 then { p with italic := true }
  else if n = 4 then { p with underline := true }
  else if n = 5 then { p with blink := true }
  else if n = 7 then { p with inverse := true }
  else if n = 8 then { p with hidden := true }
  else if n = 9 then { p with strike := true }
  else if 30 ≤ n ∧ n < 38 then { p with fg := .idx (n - 30) }
  else if n = 39 then { p with fg := .default }
  else if 40 ≤ n ∧ n < 48 then { p with bg := .idx (n - 40) }
  else if n = 49 then { p with bg := .default }
  else if 90 ≤ n ∧ n < 98 then { p with fg := .idx (n - 90 + 8) }
  else if 100 ≤ n ∧ n < 108 then { p with bg := .idx (n - 100 + 8) }
  else p

/-- A list of SGR parameters, read from the left. -/
def select : Pen → List Nat → Pen
  | p, [] => p
  | p, 38 :: 5 :: n :: rest => select { p with fg := .idx n } rest
  | p, 38 :: 2 :: r :: g :: b :: rest => select { p with fg := .rgb r g b } rest
  | p, 48 :: 5 :: n :: rest => select { p with bg := .idx n } rest
  | p, 48 :: 2 :: r :: g :: b :: rest => select { p with bg := .rgb r g b } rest
  | p, n :: rest => select (p.plain n) rest

end Pen

/-- A text up to its first semicolon, and what follows it. -/
def splitField (text : Text) : Text × Text :=
  (text.takeWhile (· ≠ ';'), (text.dropWhile (· ≠ ';')).drop 1)

/-- What writing text and moving about leaves alone. -/
structure Settings where
  visible : Bool
  shape : Nat
  title : Text
  paste : Bool
  mouse : Mouse
  synchronized : Bool
  saved : Option Saved

namespace Terminal

def settings (t : Terminal) : Settings :=
  ⟨t.visible, t.shape, t.title, t.paste, t.mouse, t.synchronized, t.saved⟩

def print (width : Text → Nat) (t : Terminal) (text : Text) : Terminal :=
  { t with
    cells := Function.update t.cells t.row
      ((t.cells t.row).put t.col text t.pen t.link (width text))
    col := t.col + width text }

def enterAlternate (t : Terminal) : Terminal :=
  match t.saved with
  | some _ => t
  | none => { t with
      saved := some ⟨t.cells, t.row, t.col, t.pen⟩
      cells := Plane.erased t.pen }

def leaveAlternate (t : Terminal) : Terminal :=
  match t.saved with
  | none => t
  | some s => { t with saved := none, cells := s.cells, row := s.row, col := s.col, pen := s.pen }

/-- A DEC private mode is set or reset. -/
def mode (on : Bool) (t : Terminal) (n : Nat) : Terminal :=
  if n = 25 then { t with visible := on }
  else if n = 1000 then { t with mouse := { t.mouse with press := on } }
  else if n = 1002 then { t with mouse := { t.mouse with button := on } }
  else if n = 1003 then { t with mouse := { t.mouse with motion := on } }
  else if n = 1006 then { t with mouse := { t.mouse with sgr := on } }
  else if n = 1049 then if on then t.enterAlternate else t.leaveAlternate
  else if n = 2004 then { t with paste := on }
  else if n = 2026 then { t with synchronized := on }
  else t

/-- A control sequence; those it does not know are ignored. -/
def control (t : Terminal) (marks : Text) (params : List Nat) (inter : Text) (final : Char) :
    Terminal :=
  if marks = [] ∧ inter = [] then
    if final = 'H' then { t with row := params.getD 0 1 - 1, col := params.getD 1 1 - 1 }
    else if final = 'J' ∧ params = [2] then { t with cells := Plane.erased t.pen }
    else if final = 'm' then { t with pen := if params = [] then {} else t.pen.select params }
    else t
  else if marks = ['?'] ∧ inter = [] then
    if final = 'h' then params.foldl (mode true) t
    else if final = 'l' then params.foldl (mode false) t
    else t
  else if marks = [] ∧ inter = [' '] ∧ final = 'q' then { t with shape := params.getD 0 0 }
  else t

/-- An operating-system command: the title, or a hyperlink opened or closed. -/
def operate (t : Terminal) (payload : Text) : Terminal :=
  let (number, rest) := splitField payload
  if number = ['0'] then { t with title := rest }
  else if number = ['8'] then
    let (params, uri) := splitField rest
    { t with link := if uri = [] then none else some ⟨params, uri⟩ }
  else t

def exec (width : Text → Nat) (t : Terminal) : Command → Terminal
  | .text text => t.print width text
  | .control _ | .escape _ => t
  | .csi marks params inter final => t.control marks params inter final
  | .osc payload => t.operate payload

def run (width : Text → Nat) (t : Terminal) (commands : List Command) : Terminal :=
  commands.foldl (exec width) t

end Terminal

namespace Command

def bell : Command := .control (Char.ofNat 7)

/-- Rows and columns count from one on the wire. -/
def moveTo (row col : Nat) : Command := .csi [] [row + 1, col + 1] [] 'H'

def home : Command := .csi [] [] [] 'H'

def eraseAll : Command := .csi [] [2] [] 'J'

def sgr (params : List Nat) : Command := .csi [] params [] 'm'

def cursorShape (n : Nat) : Command := .csi [] [n] [' '] 'q'

def setMode (n : Nat) (on : Bool) : Command := .csi ['?'] [n] [] (if on then 'h' else 'l')

def setTitle (title : Text) : Command := .osc ('0' :: ';' :: title)

def closeLink : Command := .osc ['8', ';', ';']

def openLink (params uri : Text) : Command := .osc ('8' :: ';' :: params ++ ';' :: uri)

end Command

theorem splitField_append (before : Text) (plain : ∀ c ∈ before, c ≠ ';') (after : Text) :
    splitField (before ++ ';' :: after) = (before, after) := by
  have holds : ∀ c ∈ before, decide (c ≠ ';') = true := fun c member =>
    decide_eq_true (plain c member)
  simp only [splitField]
  rw [List.takeWhile_append_of_pos holds, List.dropWhile_append_of_pos holds]
  simp

namespace Terminal
variable (width : Text → Nat) (t : Terminal)

@[simp] theorem run_nil : t.run width [] = t := rfl

@[simp] theorem run_cons (c : Command) (cs : List Command) :
    t.run width (c :: cs) = (t.exec width c).run width cs := rfl

@[simp] theorem run_append (cs ds : List Command) :
    t.run width (cs ++ ds) = (t.run width cs).run width ds :=
  List.foldl_append

@[simp] theorem exec_bell : t.exec width .bell = t := rfl

@[simp] theorem exec_moveTo (row col : Nat) :
    t.exec width (.moveTo row col) = { t with row := row, col := col } := rfl

@[simp] theorem exec_home : t.exec width .home = { t with row := 0, col := 0 } := rfl

@[simp] theorem exec_eraseAll :
    t.exec width .eraseAll = { t with cells := Plane.erased t.pen } := rfl

/-- A selection that starts with a reset does not depend on the pen before it. -/
@[simp] theorem exec_sgr_reset (params : List Nat) :
    t.exec width (.sgr (0 :: params)) = { t with pen := Pen.select {} params } := rfl

@[simp] theorem exec_cursorShape (n : Nat) :
    t.exec width (.cursorShape n) = { t with shape := n } := rfl

@[simp] theorem exec_setMode (n : Nat) (on : Bool) :
    t.exec width (.setMode n on) = t.mode on n := by
  cases on <;> rfl

@[simp] theorem exec_setTitle (title : Text) :
    t.exec width (.setTitle title) = { t with title := title } := by
  have split := splitField_append ['0'] (by simp) title
  simp only [exec, Command.setTitle, operate]
  rw [show '0' :: ';' :: title = ['0'] ++ ';' :: title from rfl, split]
  rfl

@[simp] theorem exec_closeLink : t.exec width .closeLink = { t with link := none } := rfl

theorem exec_openLink {params uri : Text} (plain : ∀ c ∈ params, c ≠ ';') (named : uri ≠ []) :
    t.exec width (.openLink params uri) = { t with link := some ⟨params, uri⟩ } := by
  have number := splitField_append ['8'] (by simp) (params ++ ';' :: uri)
  have fields := splitField_append params plain uri
  simp only [exec, Command.openLink, operate]
  rw [show '8' :: ';' :: params ++ ';' :: uri = ['8'] ++ ';' :: (params ++ ';' :: uri) from rfl,
    number]
  simp only [fields, named, if_false]
  rfl

end Terminal
end Oxutrm.Vt
