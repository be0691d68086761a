import Oxutrm.Paint.Framing

/-!
The terminal is given back. However much of a session's output has reached it, one
fixed string ends what was open and switches off what was on. The shape of the cursor
is not in it: it is as before only where no screen asked for another.
-/
namespace Oxutrm.Paint
open Proto
open Transition
open Vt (Command Terminal Plane Saved spelling)
open Vt.Ansi (parser Phase isSequence)

def terminalEnter : List UInt8 := Vt.Utf8.encode "\x1b[?1049h".toList

def terminalRestore : List UInt8 := Vt.Utf8.encode
  "\x1b[?2026l\x1b[?1049l\x1b]8;;\x07\x1b[?1003l\x1b[?1002l\x1b[?1000l\x1b[?1006l\x1b[?2004l\x1b[?25h\x1b[0m".toList

def restoring : List Command :=
  [.setMode 2026 false, .setMode 1049 false, .closeLink, .setMode 1003 false, .setMode 1002 false,
    .setMode 1000 false, .setMode 1006 false, .setMode 2004 false, .setMode 25 true, .sgr [0]]

theorem terminalEnter_eq : terminalEnter = Vt.written [.setMode 1049 true] := by decide +kernel

theorem terminalRestore_eq : terminalRestore = Vt.written restoring := by decide +kernel

theorem setMode_framed (n : Nat) (on : Bool) : (Command.setMode n on).Framed := by
  refine ⟨List.forall_mem_singleton.mpr (by decide), by simp, ?_⟩
  cases on with
  | false => decide
  | true => decide

theorem restoring_framed : ∀ c ∈ restoring, c.Framed := by
  intro c member
  simp only [restoring, List.mem_cons, List.not_mem_nil, or_false] at member
  rcases member with rfl | rfl | rfl | rfl | rfl | rfl | rfl | rfl | rfl | rfl
  case inr.inr.inl =>
    exact (Drawn.closeLink (s := ScreenState.blankState 0 0)).framed
  case inr.inr.inr.inr.inr.inr.inr.inr.inr =>
    exact (Drawn.sgr (s := ScreenState.blankState 0 0) [0]).framed
  all_goals exact setMode_framed _ _

/-- The buffer a shell writes to, shown or set aside. -/
def primary (t : Terminal) : Plane :=
  match t.saved with
  | none => t.cells
  | some saved => saved.cells

/-- The terminal is as a shell expects it, and as it was before. -/
structure Restored (before t : Terminal) : Prop where
  synchronized : t.synchronized = false
  shown : t.saved = none
  cells : t.cells = primary before
  link : t.link = none
  pen : t.pen = {}
  mouse : t.mouse = {}
  paste : t.paste = false
  visible : t.visible = true
  shape : t.shape = before.shape

/-- The alternate buffer is shown and the primary one is set aside as it was. -/
structure Aside (before t : Terminal) : Prop where
  saved : ∃ saved, t.saved = some saved ∧ saved.cells = primary before
  shape : t.shape = before.shape

/-- A control sequence that neither leaves the buffer nor gives the cursor another shape. -/
def Gentle (shape : Nat) (c : Command) : Prop :=
  isSequence c = true → ∃ s, Intended s c ∧ Renderer.shapeCode s.cursor.shape = shape

theorem mode_aside {before t : Terminal} {n : Nat} (on : Bool) (known : n ∈ paintModes)
    (aside : Aside before t) : Aside before (t.mode on n) := by
  simp only [paintModes, List.mem_cons, List.not_mem_nil, or_false] at known
  rcases known with rfl | rfl | rfl | rfl | rfl | rfl | rfl <;> exact ⟨aside.saved, aside.shape⟩

theorem exec_aside (width : Text → Nat) {before t : Terminal} (aside : Aside before t) {c : Command}
    (gentle : Gentle before.shape c) : Aside before (t.exec width c) := by
  cases c with
  | text text => exact ⟨aside.saved, aside.shape⟩
  | control _ | escape _ => exact aside
  | osc payload =>
      simp only [Terminal.exec, Terminal.operate]
      split
      · exact ⟨aside.saved, aside.shape⟩
      · split
        · exact ⟨aside.saved, aside.shape⟩
        · exact aside
  | csi marks params inter final =>
      obtain ⟨s, intended, shape⟩ := gentle rfl
      generalize made : Command.csi marks params inter final = c at intended
      cases intended with
      | inr title =>
          rw [title] at made
          cases made
      | inl drawn =>
          cases drawn with
          | cursorShape =>
              rw [Terminal.exec_cursorShape]
              exact ⟨aside.saved, shape⟩
          | setMode n on known =>
              rw [Terminal.exec_setMode]
              exact mode_aside on known aside
          | moveTo | home | eraseAll | sgr => exact ⟨aside.saved, aside.shape⟩
          | bell | closeLink | openLink | text => cases made

theorem run_aside (width : Text → Nat) {before t : Terminal} (aside : Aside before t)
    {commands : List Command} (gentle : ∀ c ∈ commands, Gentle before.shape c) :
    Aside before (t.run width commands) := by
  induction commands generalizing t with
  | nil => exact aside
  | cons c commands ih =>
      rw [List.forall_mem_cons] at gentle
      exact ih (exec_aside width aside gentle.1) gentle.2

theorem enter_aside (t : Terminal) : Aside t (t.mode true 1049) := by
  change Aside t t.enterAlternate
  cases saved : t.saved with
  | none =>
      rw [Terminal.enterAlternate, saved]
      refine ⟨⟨_, rfl, ?_⟩, rfl⟩
      rw [primary, saved]
  | some s =>
      rw [Terminal.enterAlternate, saved]
      refine ⟨⟨s, saved, ?_⟩, rfl⟩
      rw [primary, saved]

/-- The restoring string undoes everything from wherever a session may have left it. -/
theorem run_restoring (width : Text → Nat) {before t : Terminal} (aside : Aside before t) :
    Restored before (t.run width restoring) := by
  obtain ⟨⟨saved, buffer, cells⟩, shape⟩ := aside
  have left : (t.mode false 2026).mode false 1049 =
      { t with
        synchronized := false, saved := none, cells := saved.cells, row := saved.row,
        col := saved.col, pen := saved.pen } := by
    change Terminal.leaveAlternate _ = _
    rw [Terminal.leaveAlternate]
    simp only [Terminal.mode, buffer]
    rfl
  simp only [restoring, Terminal.run_cons, Terminal.exec_setMode, left]
  exact ⟨rfl, rfl, cells, rfl, rfl, rfl, rfl, rfl, shape⟩

/-- A renderer, and what has been written since the terminal was taken. -/
structure Screening where
  renderer : Renderer
  sent : List UInt8

/-- A write fails after so many bytes. -/
inductive ScreeningEvent where
  | render (s : ScreenState)
  | fail (s : ScreenState) (count : Nat)
  | setOverlay (overlay : Option Overlay)
  | resize (size : TermSize)
  | invalidate
  | setHyperlinks (on : Bool)

namespace Screening

def step (width : Text → Nat) (d : Screening) : ScreeningEvent → Option Screening
  | .render s => some
      { renderer := d.renderer.rendered width s
        sent := d.sent ++ Vt.written (d.renderer.output width s) }
  | .fail s count => some
      { renderer := d.renderer.interrupted s
        sent := d.sent ++ (Vt.written (d.renderer.output width s)).take count }
  | .setOverlay overlay => some { d with renderer := d.renderer.setOverlay overlay }
  | .resize size => some { d with renderer := d.renderer.resize size }
  | .invalidate => some { d with renderer := d.renderer.invalidate }
  | .setHyperlinks on => some { d with renderer := d.renderer.setHyperlinks on }

def start (size : TermSize) (caps : TerminalCaps) : Screening where
  renderer := Renderer.new size caps
  sent := []

/-- What is rendered validates, and so do the texts of an overlay. -/
def Allowed (_ : Screening) : ScreeningEvent → Prop
  | .render s | .fail s _ => s.validate = .ok ()
  | .setOverlay overlay => Overlay.Checked overlay
  | .resize _ | .invalidate | .setHyperlinks _ => True

/-- And no screen asks for another shape of the cursor. -/
def Shaped (shape : Nat) (d : Screening) (e : ScreeningEvent) : Prop :=
  d.Allowed e ∧ match e with
    | .render s | .fail s _ => Renderer.shapeCode s.cursor.shape = shape
    | .setOverlay _ | .resize _ | .invalidate | .setHyperlinks _ => True

/-- Wherever the output is cut off, and wherever the parser was before it, every control
sequence that was read is gentle. -/
structure Tame (shape : Nat) (d : Screening) : Prop where
  overlay : Overlay.Checked d.renderer.overlay
  sent : ∀ bytes, bytes <+: d.sent → ∀ state, ∀ c ∈ (parser.parse state bytes).2, Gentle shape c

variable {width : Text → Nat} {shape : Nat} {d : Screening}

theorem output_begins (width : Text → Nat) (r : Renderer) (s : ScreenState) :
    r.output width s = [] ∨ ∃ rest, Vt.script (r.output width s) = Vt.esc :: rest := by
  rw [Renderer.output, Renderer.wrap]
  split
  · exact Or.inl rfl
  · exact Or.inr ⟨_, rfl⟩

theorem Tame.append (tame : Tame shape d) {s : ScreenState} (valid : s.validate = .ok ())
    (shaped : Renderer.shapeCode s.cursor.shape = shape) {more : List UInt8}
    (part : more <+: Vt.written (d.renderer.output width s)) :
    ∀ bytes, bytes <+: d.sent ++ more → ∀ state, ∀ c ∈ (parser.parse state bytes).2,
      Gentle shape c := by
  have valid := (ScreenState.validate_ok s).mp valid
  have intended := output_intended width valid tame.overlay
  have framed : ∀ c ∈ d.renderer.output width s, c.Framed := fun c member =>
    (intended c member).framed valid
  intro bytes cut state c read
  rcases List.prefix_or_prefix_of_prefix cut (List.prefix_append d.sent more) with early | late
  · exact tame.sent bytes early state c read
  · obtain ⟨tail, rfl⟩ := late
    have tail' := (List.prefix_append_right_inj d.sent).mp cut
    rw [Vt.Parser.parse, Transducer.feed_append] at read
    cases List.mem_append.mp read with
    | inl before => exact tame.sent d.sent (List.prefix_refl _) state c before
    | inr after =>
        intro sequence
        refine ⟨s, ?_, shaped⟩
        rcases output_begins width d.renderer s with nothing | ⟨rest, begins⟩
        · have empty : tail = [] := by
            have short := tail'.trans part
            rw [nothing] at short
            exact List.prefix_nil.mp short
          rw [empty] at after
          exact absurd after List.not_mem_nil
        · exact intended c (Vt.Ansi.parse_cut framed begins (tail'.trans part) _ after sequence)

theorem Tame.step (tame : Tame shape d) {e : ScreeningEvent} {d' : Screening}
    (admitted : d.Shaped shape e) (taken : d.step width e = some d') : Tame shape d' := by
  cases e with
  | render s =>
      cases taken
      refine ⟨?_, tame.append admitted.1 admitted.2 (List.prefix_refl _)⟩
      rw [(rendered_settings width d.renderer s).2.1]
      exact tame.overlay
  | fail s count =>
      cases taken
      refine ⟨?_, tame.append admitted.1 admitted.2 (List.take_prefix count _)⟩
      have kept : (d.renderer.interrupted s).overlay = d.renderer.overlay :=
        (rendered_settings width d.renderer s).2.1
      rw [kept]
      exact tame.overlay
  | setOverlay overlay =>
      cases taken
      exact ⟨admitted.1, tame.sent⟩
  | resize size =>
      cases taken
      exact ⟨tame.overlay, tame.sent⟩
  | invalidate =>
      cases taken
      exact ⟨tame.overlay, tame.sent⟩
  | setHyperlinks on =>
      cases taken
      refine ⟨?_, tame.sent⟩
      simp only [Renderer.setHyperlinks]
      split
      · exact tame.overlay
      · exact tame.overlay

theorem tame_start (size : TermSize) (caps : TerminalCaps) : Tame shape (start size caps) := by
  refine ⟨fun o drawn => (by cases drawn), fun bytes cut state c read => ?_⟩
  rw [List.prefix_nil.mp cut] at read
  exact absurd read List.not_mem_nil

/-- Entering, any part of the output, and restoring: the terminal reads the second
from where the first left it and the third from wherever the second was cut off. -/
theorem parse_session (bytes : List UInt8) : ∃ stray,
    parser.parse ([], .ground) (terminalEnter ++ bytes ++ terminalRestore) =
      (([], .ground), [.setMode 1049 true] ++ (parser.parse ([], .ground) bytes).2 ++ stray ++
        restoring) ∧
      ∀ c ∈ stray, isSequence c = false := by
  have entered : parser.parse ([], .ground) terminalEnter =
      (([], .ground), [.setMode 1049 true]) := by
    rw [terminalEnter_eq]
    exact parser.parse_written (List.forall_mem_singleton.mpr (setMode_framed 1049 true))
  have restored : parser.parse ([], .ground) terminalRestore = (([], .ground), restoring) := by
    rw [terminalRestore_eq]
    exact parser.parse_written restoring_framed
  have begins : ∃ rest, terminalRestore = 0x1b :: rest := by
    rw [terminalRestore_eq]
    exact ⟨_, Vt.Ansi.written_cons_esc _⟩
  obtain ⟨rest, begins⟩ := begins
  obtain ⟨stray, resumed, plain⟩ := Vt.Ansi.parse_resumes (parser.parse ([], .ground) bytes).1 rest
  refine ⟨stray, ?_, plain⟩
  rw [← begins, restored] at resumed
  simp only [Vt.Parser.parse] at entered resumed ⊢
  rw [Transducer.feed_append, Transducer.feed_append, entered, resumed]
  simp only [List.append_assoc]

/-- In every session in which every screen asks for the shape the cursor had, the terminal
is given back as it was, wherever its output was cut off. -/
theorem terminal_is_given_back {t : Terminal} {size : TermSize} {caps : TerminalCaps}
    (run : Reaches (Screening.step width) (Shaped t.shape) (start size caps) d)
    {bytes : List UInt8} (cut : bytes <+: d.sent) :
    (parser.parse ([], .ground) (terminalEnter ++ bytes ++ terminalRestore)).1 = ([], .ground) ∧
      Restored t (t.run width
        (parser.parse ([], .ground) (terminalEnter ++ bytes ++ terminalRestore)).2) := by
  have tame : Tame t.shape d :=
    run.invariant (fun _ _ _ tame admitted taken => tame.step admitted taken)
      (tame_start size caps)
  obtain ⟨stray, read, plain⟩ := parse_session bytes
  rw [read]
  refine ⟨rfl, ?_⟩
  simp only [Terminal.run_append, Terminal.run_cons, Terminal.run_nil, Terminal.exec_setMode]
  refine run_restoring width (run_aside width (run_aside width (enter_aside t)
    (tame.sent bytes cut _)) fun c member sequence => ?_)
  rw [plain c member] at sequence
  cases sequence

/-- What has been written when the first screen is out. -/
def firstScreen : List UInt8 :=
  Vt.written (Display.opening.renderer.output Display.latinWidth (Display.three 'a' ' ' 'c'))

theorem step_firstScreen :
    (start ⟨3, 1⟩ Display.plainCaps).step Display.latinWidth (.render (Display.three 'a' ' ' 'c')) =
      some { renderer := Display.opening.renderer.rendered Display.latinWidth
               (Display.three 'a' ' ' 'c')
             sent := firstScreen } := rfl

/-- A session whose first screen is cut off, in a terminal with a steady block. -/
theorem terminal_is_given_back_block :
    Restored { shape := 2 } (Terminal.run Display.latinWidth { shape := 2 }
      (parser.parse ([], .ground)
        (terminalEnter ++ firstScreen.take 40 ++ terminalRestore)).2) := by
  have valid : (Display.three 'a' ' ' 'c').validate = .ok () := by decide +kernel
  have cut : firstScreen.take 40 <+: firstScreen := List.take_prefix 40 _
  exact (terminal_is_given_back (t := { shape := 2 })
    (Reaches.single (.render (Display.three 'a' ' ' 'c')) ⟨valid, rfl⟩ step_firstScreen) cut).2

/-- A terminal whose cursor had its own shape keeps the steady block of the first screen. -/
theorem cursor_shape_is_not_given_back :
    ∃ d, Reaches (Screening.step Display.latinWidth) Allowed (start ⟨3, 1⟩ Display.plainCaps) d ∧
      d.sent = firstScreen ∧
      ¬ Restored {} (Terminal.run Display.latinWidth {}
        (parser.parse ([], .ground) (terminalEnter ++ firstScreen ++ terminalRestore)).2) := by
  have valid : (Display.three 'a' ' ' 'c').validate = .ok () := by decide +kernel
  refine ⟨_, Reaches.single (.render (Display.three 'a' ' ' 'c')) valid step_firstScreen, rfl,
    fun restored => ?_⟩
  have shape := restored.shape
  revert shape
  decide +kernel

end Screening
end Oxutrm.Paint
