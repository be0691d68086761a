import Oxutrm.Paint.Strokes

/-!
What the parts of a pass do to the terminal: the modes, the title, the cells of every
row and the cursor.
-/
namespace Oxutrm.Paint
open Proto
open Vt (Terminal Row Plane Command)

def rowOf (cells : List Cell) (cols row : Nat) : List Cell := (cells.drop (row * cols)).take cols

namespace Renderer

/-- A grid of cells as the terminal shows it. -/
def picture (r : Renderer) (links : Links) (width : Text → Nat) (cells : List Cell)
    (rows cols : Nat) : Plane := fun row =>
  if row < rows then r.shown links width (rowOf cells cols row) else fun _ => .blank {}

/-- The tracking modes of the terminal for a mouse mode. -/
def mouseOf (r : Renderer) (mode : MouseMode) : Vt.Mouse where
  press := mode = .press ∨ mode = .pressRelease
  button := mode = .buttonMotion
  motion := mode = .anyMotion
  sgr := mode ≠ .off ∧ r.caps.mouseSgr = true

def pasteOf (r : Renderer) (modes : Modes) : Bool := r.caps.bracketedPaste && modes.bracketedPaste

/-- The columns of a row that are to be painted. -/
def dirtyAt (r : Renderer) (cells : List Cell) (links : Links) (cols : Nat) (full : Bool)
    (row : Nat) : Nat → Bool :=
  dirty (rowOf cells cols row)
    (r.painted.bind fun p =>
      if p.cells.length = cells.length then some (rowOf p.cells cols row) else none)
    full (r.relinked links (rowOf cells cols row))

end Renderer

section
variable (width : Text → Nat) {r : Renderer}

theorem run_writeMouse (t : Terminal) (mode : MouseMode)
    (plain : r.caps.mouseSgr = false → t.mouse.sgr = false) :
    t.run width (r.writeMouse mode) = { t with mouse := r.mouseOf mode } := by
  cases sgr : r.caps.mouseSgr with
  | true =>
      cases mode <;>
        simp [Renderer.writeMouse, Renderer.mouseOf, sgr, Terminal.mode]
  | false =>
      have off := plain sgr
      cases mode <;>
        simp [Renderer.writeMouse, Renderer.mouseOf, sgr, Terminal.mode, off]

theorem run_unless {t : Terminal} (t' : Terminal) {commands : List Command} (c : Prop) [Decidable c]
    (states : c → t.run width commands = t') (known : ¬ c → t = t') :
    t.run width (if c then commands else []) = t' := by
  by_cases stated : c
  · rw [if_pos stated]
    exact states stated
  · rw [if_neg stated]
    exact known stated

theorem run_writeModes (t : Terminal) (s : ScreenState)
    (bare : r.caps.bracketedPaste = false → t.paste = false)
    (plain : r.caps.mouseSgr = false → t.mouse.sgr = false)
    (known : ∀ p, r.painted = some p →
      t.paste = r.pasteOf p.modes ∧ t.mouse = r.mouseOf p.modes.mouse) :
    t.run width (r.writeModes s r.painted.isNone) =
      { t with paste := r.pasteOf s.modes, mouse := r.mouseOf s.modes.mouse } := by
  have before : ∀ {α : Type} (f : Modes → α),
      (if r.painted.isNone then none else r.painted.map (·.modes)).map f = some (f s.modes) →
      ∃ p, r.painted = some p ∧ f p.modes = f s.modes := by
    intro α f same
    cases painted : r.painted with
    | none =>
        rw [painted] at same
        cases same
    | some p =>
        rw [painted] at same
        exact ⟨p, rfl, Option.some.inj same⟩
  simp only [Renderer.writeModes]
  rw [Terminal.run_append]
  refine (congrArg (Terminal.run width · _) (run_unless width
    { t with paste := r.pasteOf s.modes } _ (fun stated => ?_) fun left => ?_)).trans
    (run_unless width _ _ (fun _ => ?_) fun left => ?_)
  · rw [Terminal.run_cons, Terminal.run_nil, Terminal.exec_setMode, Renderer.pasteOf, stated.1]
    rfl
  · cases offered : r.caps.bracketedPaste with
    | false => rw [Renderer.pasteOf, offered, Bool.false_and, ← bare offered]
    | true =>
        rw [offered, eq_self, true_and, ne_eq, not_not] at left
        obtain ⟨p, painted, same⟩ := before (·.bracketedPaste) left
        have now := (known p painted).1
        rw [Renderer.pasteOf, same] at now
        rw [Renderer.pasteOf, ← now]
  · exact run_writeMouse width _ _ plain
  · rw [ne_eq, not_not] at left
    obtain ⟨p, painted, same⟩ := before (·.mouse) left
    have now := (known p painted).2
    rw [same] at now
    rw [← now]

theorem run_writeTitle (t : Terminal) (s : ScreenState) (full : Bool) :
    ∃ title, t.run width (r.writeTitle s full) = { t with title := title } := by
  obtain ⟨changed, title⟩ : ∃ changed : Bool,
      r.writeTitle s full = if changed then [.setTitle s.title] else [] := ⟨_, rfl⟩
  rw [title]
  cases changed with
  | true => exact ⟨s.title, by simp⟩
  | false => exact ⟨t.title, rfl⟩

theorem run_writeCursor (t : Terminal) (cursor : Cursor) (full painting : Bool)
    (known : full = false → ∃ p, r.painted = some p ∧ t.visible = p.cursor.visible ∧
      t.shape = Renderer.shapeCode p.cursor.shape ∧
      (painting = false → t.row = p.cursor.row.toNat ∧ t.col = p.cursor.col.toNat)) :
    t.run width (r.writeCursor cursor full painting) =
      { t with
        row := cursor.row.toNat
        col := cursor.col.toNat
        visible := cursor.visible
        shape := Renderer.shapeCode cursor.shape } := by
  have before : ∀ {α : Type} (f : Cursor → α),
      (if full then none else r.painted.map (·.cursor)).map f = some (f cursor) →
      ∃ p, r.painted = some p ∧ f p.cursor = f cursor ∧ t.visible = p.cursor.visible ∧
        t.shape = Renderer.shapeCode p.cursor.shape ∧
        (painting = false → t.row = p.cursor.row.toNat ∧ t.col = p.cursor.col.toNat) := by
    intro α f same
    cases full with
    | true => cases same
    | false =>
        obtain ⟨p, painted, rest⟩ := known rfl
        rw [painted] at same
        exact ⟨p, painted, Option.some.inj same, rest⟩
  simp only [Renderer.writeCursor]
  rw [Terminal.run_append, Terminal.run_append]
  have shape : t.run width (if (if full then none else r.painted.map (·.cursor)).map (·.shape) ≠
      some cursor.shape then [.cursorShape (Renderer.shapeCode cursor.shape)] else []) =
      { t with shape := Renderer.shapeCode cursor.shape } := by
    refine run_unless width _ _ (fun _ => by simp) fun left => ?_
    rw [ne_eq, not_not] at left
    obtain ⟨p, -, same, -, now, -⟩ := before (·.shape) left
    rw [same] at now
    rw [← now]
  rw [shape]
  refine (congrArg (Terminal.run width · _) (run_unless width { t with
    shape := Renderer.shapeCode cursor.shape, row := cursor.row.toNat, col := cursor.col.toNat } _
    (fun _ => by simp) fun left => ?_)).trans (run_unless width _ _ (fun _ => ?_) fun left => ?_)
  · simp only [Bool.or_eq_true, not_or, Bool.not_eq_true, decide_eq_false_iff_not, ne_eq,
      not_not] at left
    obtain ⟨p, -, same, -, -, position⟩ := before (fun b => (b.row, b.col)) left.1.1
    obtain ⟨rows, cols⟩ := Prod.mk.inj same
    obtain ⟨row, col⟩ := position left.1.2
    rw [← rows, ← cols, ← row, ← col]
  · simp [Terminal.mode]
  · rw [ne_eq, not_not] at left
    obtain ⟨p, -, same, now, -⟩ := before (·.visible) left
    rw [same] at now
    rw [← now]

end

section
variable {width : Text → Nat} {r : Renderer} {cells : List Cell} {links : Links} {rows cols : Nat}
  {full : Bool}

/-- What is not painted in a row is as it should be already. -/
structure Ready (width : Text → Nat) (r : Renderer) (cells : List Cell) (links : Links)
    (cols : Nat) (full : Bool) (t : Terminal) (row : Nat) : Prop where
  paired : (t.cells row).Paired
  stale : ∀ c, t.cells row c = r.shown links width (rowOf cells cols row) c ∨
    (c < (rowOf cells cols row).length ∧ (r.dirtyAt cells links cols full row c = true ∨
      ∃ j, c = j + 1 ∧ contAt (rowOf cells cols row) c = true ∧
        r.dirtyAt cells links cols full row j = true))

/-- What a full repaint starts with. -/
def Renderer.clearing (r : Renderer) : List Command :=
  (if r.caps.osc8 ∧ (r.linksOn ∨ r.linkMayBeOpen) then [.closeLink] else []) ++ [.home, .eraseAll]

/-- The ink of all rows. -/
def Renderer.inked (r : Renderer) (cells : List Cell) (links : Links) (rows cols : Nat)
    (full : Bool) : Ink :=
  (List.range rows).foldl (r.writeRow cells links cols full) {}

/-- What a pass ends its cells with. -/
def Ink.reset (ink : Ink) : List Command :=
  if ink.pen.any fun p => decide (p ≠ [0]) then [.sgr [0]] else []

theorem writeCells_eq (r : Renderer) (cells : List Cell) (links : Links) (rows cols : Nat)
    (full : Bool) :
    r.writeCells cells links rows cols full = (if full then r.clearing else []) ++
      ((r.inked cells links rows cols full).out ++
        (r.inked cells links rows cols full).reset) := by
  rw [← List.append_assoc]
  rfl

theorem run_reset (width : Text → Nat) (t : Terminal) {pen : Vt.Pen} (ink : Ink)
    (drawn : t.pen = ink.penFrom pen) :
    t.run width ink.reset = { t with pen := if ink.pen.isNone then pen else {} } := by
  cases selected : ink.pen with
  | none =>
      rw [Ink.penFrom, selected] at drawn
      simp only [Ink.reset, selected, Option.any_none, Bool.false_eq_true, if_false,
        Terminal.run_nil, Option.isNone_none, if_true, ← show t.pen = pen from drawn]
  | some p =>
      by_cases plain : p = [0]
      · rw [Ink.penFrom, selected, plain] at drawn
        simp only [Ink.reset, selected, plain, Option.any_some, ne_eq, not_true_eq_false,
          decide_false, Bool.false_eq_true, if_false, Terminal.run_nil, Option.isNone_some,
          ← show t.pen = {} from drawn]
      · simp only [Ink.reset, selected, plain, Option.any_some, ne_eq, not_false_eq_true,
          decide_true, if_true, Terminal.run_cons, Terminal.run_nil, Terminal.exec_sgr_reset,
          Option.isNone_some, Bool.false_eq_true, if_false]
        rfl

theorem run_rows (measure : Measure width) (zero : links[(0 : UInt16)]? = none)
    (formed : ∀ row < rows, Formed width (rowOf cells cols row))
    (spaced : ∀ row < rows, Spaced width (rowOf cells cols row)) {t : Terminal}
    (closed : t.link = none) (ready : ∀ row < rows, Ready width r cells links cols full t row)
    (k : Nat) (bound : k ≤ rows) :
    ∃ t', t.run width (r.inked cells links k cols full).out = t' ∧
      t'.settings = t.settings ∧
      (∀ row < k, t'.cells row = r.shown links width (rowOf cells cols row)) ∧
      (∀ row, k ≤ row → t'.cells row = t.cells row) ∧
      Between t.pen t' (r.inked cells links k cols full) := by
  induction k with
  | zero =>
      exact ⟨t, rfl, rfl, fun row none => (by cases none), fun row _ => rfl,
        rfl, closed⟩
  | succ k ih =>
      obtain ⟨t', ran, settings, above, below, between⟩ := ih (by omega)
      have next := ready k (by omega)
      have same := below k (Nat.le_refl k)
      obtain ⟨t'', written, settings', others, shown, between'⟩ :=
        run_row measure (formed k (by omega)) (spaced k (by omega)) zero
          (r.dirtyAt cells links cols full k) ran (by rw [same]; exact next.paired) between (by rw [same]; exact next.stale)
      rw [Renderer.inked, List.range_succ, List.foldl_append]
      refine ⟨t'', written, settings'.trans settings, fun row before => ?_, fun row past => ?_,
        between'⟩
      · by_cases last : row = k
        · rw [last]
          exact shown
        · rw [others row last]
          exact above row (by omega)
      · rw [others row (by omega)]
        exact below row (by omega)

theorem run_paint_rows (measure : Measure width) (zero : links[(0 : UInt16)]? = none)
    (formed : ∀ row < rows, Formed width (rowOf cells cols row))
    (spaced : ∀ row < rows, Spaced width (rowOf cells cols row)) {t : Terminal}
    (closed : t.link = none) (pen : t.pen = {})
    (ready : ∀ row < rows, Ready width r cells links cols full t row)
    (below : ∀ row, rows ≤ row → t.cells row = fun _ => .blank {}) :
    ∃ t', t.run width ((r.inked cells links rows cols full).out ++
        (r.inked cells links rows cols full).reset) = t' ∧ t'.settings = t.settings ∧
      t'.cells = r.picture links width cells rows cols ∧ t'.pen = {} ∧ t'.link = none := by
  obtain ⟨t', ran, settings, above, rest, between⟩ :=
    run_rows measure zero formed spaced closed ready rows (Nat.le_refl rows)
  have cells' : t'.cells = r.picture links width cells rows cols := by
    funext row
    simp only [Renderer.picture]
    split
    · next inside => exact above row inside
    · next outside => rw [rest row (Nat.not_lt.mp outside), below row (Nat.not_lt.mp outside)]
  have after := run_reset width t' _ between.pen
  rw [Terminal.run_append, ran, after]
  refine ⟨_, rfl, settings, cells', ?_, between.link⟩
  split
  · exact pen
  · rfl

end
end Oxutrm.Paint
