import Oxutrm.Proto.Types

/-!
Reducing a colour to what the terminal in front of the user can show, and the SGR
parameters that select it.
-/
namespace Oxutrm.Paint
open Proto

/-- What the client's own terminal can do. -/
structure TerminalCaps where
  colors : UInt32
  bracketedPaste : Bool
  mouseSgr : Bool
  osc52 : Bool
  osc8 : Bool
  deriving DecidableEq, Repr

structure Rgb where
  r : Nat
  g : Nat
  b : Nat
  deriving DecidableEq, Repr

def cubeLevels : List Nat := [0, 95, 135, 175, 215, 255]

def ansi16 : List Rgb :=
  [⟨0, 0, 0⟩, ⟨170, 0, 0⟩, ⟨0, 170, 0⟩, ⟨170, 85, 0⟩, ⟨0, 0, 170⟩, ⟨170, 0, 170⟩, ⟨0, 170, 170⟩,
    ⟨170, 170, 170⟩, ⟨85, 85, 85⟩, ⟨255, 85, 85⟩, ⟨85, 255, 85⟩, ⟨255, 255, 85⟩, ⟨85, 85, 255⟩,
    ⟨255, 85, 255⟩, ⟨85, 255, 255⟩, ⟨255, 255, 255⟩]

def absDiff (x y : Nat) : Nat := (x - y) + (y - x)

def dist (a b : Rgb) : Nat := absDiff a.r b.r ^ 2 + absDiff a.g b.g ^ 2 + absDiff a.b b.b ^ 2

/-- The loop of a nearest search: the first index with the least distance, and that
distance. -/
def nearestFrom (i : Nat) (best : Nat × Nat) : List Nat → Nat × Nat
  | [] => best
  | d :: ds => nearestFrom (i + 1) (if d < best.2 then (i, d) else best) ds

/-- `best_d` starts at `u32::MAX`. -/
def nearest (distances : List Nat) : Nat := (nearestFrom 0 (0, 2 ^ 32 - 1) distances).1

def nearestLevel (v : Nat) : Nat := nearest (cubeLevels.map fun l => absDiff v l ^ 2)

/-- The RGB an xterm palette index renders as. -/
def idxToRgb (i : Nat) : Rgb :=
  if i < 16 then ansi16.getD i ⟨0, 0, 0⟩
  else if i < 232 then
    ⟨cubeLevels.getD ((i - 16) / 36) 0, cubeLevels.getD ((i - 16) / 6 % 6) 0,
      cubeLevels.getD ((i - 16) % 6) 0⟩
  else ⟨8 + 10 * (i - 232), 8 + 10 * (i - 232), 8 + 10 * (i - 232)⟩

/-- `((avg - 8) / 10)` rounded to the nearest integer, half away from zero, and clamped
to the ramp. -/
def greyStep (avg : Nat) : Nat := min ((avg - 3) / 10) 23

def rgbTo256 (target : Rgb) : Nat :=
  let cubeIdx := 16 + 36 * nearestLevel target.r + 6 * nearestLevel target.g + nearestLevel target.b
  let greyIdx := 232 + greyStep ((target.r + target.g + target.b) / 3)
  if dist target (idxToRgb greyIdx) < dist target (idxToRgb cubeIdx) then greyIdx else cubeIdx

def rgbTo16 (target : Rgb) : Nat := nearest (ansi16.map (dist target))

/-- `Color::Default` always survives. -/
def downConvert (c : Color) (caps : TerminalCaps) : Color :=
  if caps.colors ≥ 16777216 then c
  else
    match c with
    | .default => .default
    | .rgb r g b =>
        let rgb : Rgb := ⟨r.toNat, g.toNat, b.toNat⟩
        if caps.colors ≥ 256 then .idx (UInt8.ofNat (rgbTo256 rgb))
        else if caps.colors ≥ 16 then .idx (UInt8.ofNat (rgbTo16 rgb))
        else .idx (UInt8.ofNat (rgbTo16 rgb) &&& 0x07)
    | .idx i =>
        if caps.colors ≥ 256 then .idx i
        else if caps.colors ≥ 16 then
          if i < 16 then .idx i else .idx (UInt8.ofNat (rgbTo16 (idxToRgb i.toNat)))
        else if i < 16 then .idx i
        else .idx (UInt8.ofNat (rgbTo16 (idxToRgb i.toNat)) &&& 0x07)

/-- The parameters that select a colour after a reset. -/
def pushColor (c : Color) (foreground : Bool) (colors : UInt32) : List Nat :=
  match c with
  | .default => []
  | .idx i =>
      if i < 8 then [(if foreground then 30 else 40) + i.toNat]
      else if i < 16 then
        if colors < 16 then [(if foreground then 30 else 40) + (i.toNat - 8)]
        else [(if foreground then 90 else 100) + (i.toNat - 8)]
      else [if foreground then 38 else 48, 5, i.toNat]
  | .rgb r g b => [if foreground then 38 else 48, 2, r.toNat, g.toNat, b.toNat]

namespace Attrs

def bold : Attrs := 0x01
def italic : Attrs := 0x02
def underline : Attrs := 0x04
def inverse : Attrs := 0x08
def blink : Attrs := 0x10
def strike : Attrs := 0x20
def dim : Attrs := 0x40
def hidden : Attrs := 0x80
def wideCont : Attrs := 0x100

end Attrs

def contains (a flag : Attrs) : Bool := a &&& flag == flag

/-- The full SGR selection for a cell: always a reset, then what is set. -/
def sgrFor (caps : TerminalCaps) (cell : Cell) : List Nat :=
  let fg := downConvert cell.fg caps
  let bg := downConvert cell.bg caps
  let promoteBold := decide (caps.colors < 16) &&
    match fg with
    | .idx i => decide (8 ≤ i ∧ i < 16)
    | .default | .rgb _ _ _ => false
  let flag := fun (f : Attrs) (n : Nat) => if contains cell.attrs f then [n] else []
  0 :: ((if contains cell.attrs Attrs.bold || promoteBold then [1] else []) ++
    flag Attrs.dim 2 ++ flag Attrs.italic 3 ++ flag Attrs.underline 4 ++ flag Attrs.blink 5 ++
    flag Attrs.inverse 7 ++ flag Attrs.hidden 8 ++ flag Attrs.strike 9 ++
    pushColor fg true caps.colors ++ pushColor bg false caps.colors)

/-- A blank is painted with the default pen, whatever the terminal can show. -/
theorem sgrFor_blank (caps : TerminalCaps) : sgrFor caps Cell.blank = [0] := by
  have fg : downConvert Color.default caps = .default := by
    simp only [downConvert]
    split
    · rfl
    · rfl
  simp only [sgrFor, Cell.blank, fg, Bool.and_false]
  rfl

example : downConvert (.rgb 255 0 0) ⟨256, true, true, true, true⟩ = .idx 196 := by decide +kernel

end Oxutrm.Paint
