import Oxutrm.Paint.Incremental
import Oxutrm.Vt.Ansi

/-!
What a pass writes is read back as it was meant. Every command of a pass is one of a
short list, and what the host supplies for it, a text, a title or the target of a
link, holds nothing that a parser could take for the end of it.
-/
namespace Oxutrm.Paint
open Proto
open Vt (Command Parser spelling isControl splitField)

/-- The private modes a pass sets and resets. The alternate buffer is not among them. -/
def paintModes : List Nat := [25, 1000, 1002, 1003, 1006, 2004, 2026]

/-- What a pass writes besides the title. -/
inductive Drawn (s : ScreenState) : Command → Prop where
  | bell : Drawn s .bell
  | moveTo (row col : Nat) : Drawn s (.moveTo row col)
  | home : Drawn s .home
  | eraseAll : Drawn s .eraseAll
  | sgr (params : List Nat) : Drawn s (.sgr params)
  | cursorShape : Drawn s (.cursorShape (Renderer.shapeCode s.cursor.shape))
  | setMode (n : Nat) (on : Bool) (known : n ∈ paintModes) : Drawn s (.setMode n on)
  | closeLink : Drawn s .closeLink
  | openLink (id : UInt16) (uri : Text) (checked : checkLinkUri id uri = .ok ()) :
      Drawn s (.openLink (linkParams id) uri)
  | text (text : Text) (checked : checkCellText text = .ok ()) : Drawn s (.text text)

/-- The commands of a pass: those that draw, and the title of the screen. -/
def Intended (s : ScreenState) (c : Command) : Prop := Drawn s c ∨ c = .setTitle s.title

/-- The cells of the overlay are texts that a screen could hold. -/
def Overlay.Checked (overlay : Option Overlay) : Prop :=
  ∀ o, overlay = some o → ∀ cell ∈ o.cells, checkCellText cell.text = .ok ()

theorem composite_checked (width : Text → Nat) {overlay : Option Overlay} {s : ScreenState}
    (valid : s.Valid) (checked : Overlay.Checked overlay) :
    ∀ cell ∈ composite width overlay s, checkCellText cell.text = .ok () := by
  refine composite_invariant (P := fun cells => ∀ cell ∈ cells, checkCellText cell.text = .ok ())
    overlay (fun o drawn cells i cell kept member => ?_) (fun cells i cell kept _ => ?_) valid.text
  · intro other place
    cases List.mem_or_eq_of_mem_set place with
    | inl before => exact kept other before
    | inr new => exact new ▸ checked o drawn cell member
  · intro other place
    cases List.mem_or_eq_of_mem_set place with
    | inl before => exact kept other before
    | inr new =>
        rw [new]
        exact (by decide +kernel : checkCellText [' '] = .ok ())

theorem eq_of_mem_when {p : Prop} [Decidable p] {c d : Command}
    (member : c ∈ if p then [d] else []) : c = d :=
  List.mem_singleton.mp (List.mem_ite_nil_right.mp member).2

section
variable {s : ScreenState} (r : Renderer)

theorem mode_of_writeMouse (mode : MouseMode) :
    ∀ c ∈ r.writeMouse mode, ∃ n on, n ∈ paintModes ∧ c = .setMode n on := by
  intro c member
  simp only [Renderer.writeMouse, List.mem_append] at member
  rcases member with (cleared | enabled) | encoding
  · simp only [List.mem_cons, List.not_mem_nil, or_false] at cleared
    rcases cleared with rfl | rfl | rfl
    · exact ⟨1003, false, by decide, rfl⟩
    · exact ⟨1002, false, by decide, rfl⟩
    · exact ⟨1000, false, by decide, rfl⟩
  · cases mode with
    | off => exact absurd enabled List.not_mem_nil
    | press | pressRelease => exact ⟨1000, true, by decide, List.mem_singleton.mp enabled⟩
    | buttonMotion => exact ⟨1002, true, by decide, List.mem_singleton.mp enabled⟩
    | anyMotion => exact ⟨1003, true, by decide, List.mem_singleton.mp enabled⟩
  · split at encoding
    · exact ⟨1006, false, by decide, List.mem_singleton.mp encoding⟩
    · exact ⟨1006, true, by decide, eq_of_mem_when encoding⟩

theorem mode_of_writeModes (s : ScreenState) (full : Bool) :
    ∀ c ∈ r.writeModes s full, ∃ n on, n ∈ paintModes ∧ c = .setMode n on := by
  intro c member
  simp only [Renderer.writeModes, List.mem_append] at member
  cases member with
  | inl paste => exact ⟨2004, s.modes.bracketedPaste, by decide, eq_of_mem_when paste⟩
  | inr mouse => exact mode_of_writeMouse r _ c (List.mem_ite_nil_right.mp mouse).2

theorem drawn_writeModes (full : Bool) : ∀ c ∈ r.writeModes s full, Drawn s c := by
  intro c member
  obtain ⟨n, on, known, rfl⟩ := mode_of_writeModes r s full c member
  exact .setMode n on known

/-- A property of the commands that cells are painted with, their texts apart. -/
structure Strokes (P : Command → Prop) : Prop where
  moveTo : ∀ row col, P (.moveTo row col)
  home : P .home
  eraseAll : P .eraseAll
  sgr : ∀ params, P (.sgr params)
  closeLink : P .closeLink
  openLink : ∀ id uri, checkLinkUri id uri = .ok () → P (.openLink (linkParams id) uri)
  blank : P (.text [' '])

section
variable {P : Command → Prop} (strokes : Strokes P)
include strokes

theorem strokes_writeLink (links : Links) (cell : Cell) (opened : UInt16) :
    ∀ c ∈ (r.writeLink links cell opened).1, P c := by
  have closes : ∀ c ∈ (if opened ≠ 0 then [Command.closeLink] else []), P c := by
    intro c member
    cases eq_of_mem_when member
    exact strokes.closeLink
  intro c member
  simp only [Renderer.writeLink] at member
  split at member
  · split at member
    · next uri found =>
        cases List.mem_append.mp member with
        | inl close => exact closes c close
        | inr opens =>
            cases List.mem_singleton.mp opens
            exact strokes.openLink cell.link uri (paintable_some found).2
    · exact closes c member
  · exact absurd member List.not_mem_nil

theorem strokes_writeCell (links : Links) {acc : Ink × UInt16} {cell : Cell}
    (text : P (.text cell.text)) (before : ∀ c ∈ acc.1.out, P c) :
    ∀ c ∈ (r.writeCell links acc cell).1.out, P c := by
  simp only [Renderer.writeCell]
  split
  · exact before
  · intro c member
    simp only [List.mem_append] at member
    rcases member with ((early | link) | select) | shown
    · exact before c early
    · exact strokes_writeLink r strokes links cell acc.2 c link
    · split at select
      · exact absurd select List.not_mem_nil
      · cases List.mem_singleton.mp select
        exact strokes.sgr _
    · cases List.mem_singleton.mp shown
      split
      · exact strokes.blank
      · exact text

theorem strokes_writeRun (links : Links) (row : Nat) {desired : List Cell} {ink : Ink}
    (run : Nat × Nat) (text : ∀ cell ∈ desired, P (.text cell.text))
    (before : ∀ c ∈ ink.out, P c) :
    ∀ c ∈ (r.writeRun links row desired ink run).out, P c := by
  have painted : ∀ c ∈ (((desired.take run.2).drop run.1).foldl (r.writeCell links)
      ({ ink with out := ink.out ++ [.moveTo row run.1] }, 0)).1.out, P c := by
    refine List.foldlRecOn (motive := fun acc : Ink × UInt16 => ∀ c ∈ acc.1.out, P c) _ _
      (fun c member => ?_) fun acc kept cell inside =>
        strokes_writeCell r strokes links
          (text cell (List.mem_of_mem_take (List.mem_of_mem_drop inside))) kept
    cases List.mem_append.mp member with
    | inl early => exact before c early
    | inr moved =>
        cases List.mem_singleton.mp moved
        exact strokes.moveTo row run.1
  simp only [Renderer.writeRun]
  split
  · intro c member
    cases List.mem_append.mp member with
    | inl early => exact painted c early
    | inr closed =>
        cases List.mem_singleton.mp closed
        exact strokes.closeLink
  · exact painted

theorem strokes_writeCells {cells : List Cell} (links : Links) (rows cols : Nat) (full : Bool)
    (text : ∀ cell ∈ cells, P (.text cell.text)) :
    ∀ c ∈ r.writeCells cells links rows cols full, P c := by
  have painted : ∀ c ∈ ((List.range rows).foldl (r.writeRow cells links cols full) {}).out, P c := by
    refine List.foldlRecOn (motive := fun ink : Ink => ∀ c ∈ ink.out, P c) _ _
      (fun c none => absurd none List.not_mem_nil) fun ink kept row _ => ?_
    refine List.foldlRecOn (motive := fun ink : Ink => ∀ c ∈ ink.out, P c) _ _ kept
      fun ink kept run _ => ?_
    exact strokes_writeRun r strokes links row run (fun cell inside => text cell
      (List.mem_of_mem_drop (List.mem_of_mem_take inside))) kept
  intro c member
  simp only [Renderer.writeCells, List.mem_append] at member
  rcases member with (clear | paint) | reset
  · cases List.mem_append.mp (List.mem_ite_nil_right.mp clear).2 with
    | inl close =>
        cases eq_of_mem_when close
        exact strokes.closeLink
    | inr erase =>
        simp only [List.mem_cons, List.not_mem_nil, or_false] at erase
        cases erase with
        | inl home => exact home ▸ strokes.home
        | inr all => exact all ▸ strokes.eraseAll
  · exact painted c paint
  · cases eq_of_mem_when reset
    exact strokes.sgr _

end

theorem drawn_strokes : Strokes (Drawn s) where
  moveTo := .moveTo
  home := .home
  eraseAll := .eraseAll
  sgr := .sgr
  closeLink := .closeLink
  openLink := .openLink
  blank := .text _ (by decide +kernel)

theorem drawn_writeCells {cells : List Cell} (links : Links) (rows cols : Nat) (full : Bool)
    (checked : ∀ cell ∈ cells, checkCellText cell.text = .ok ()) :
    ∀ c ∈ r.writeCells cells links rows cols full, Drawn s c :=
  strokes_writeCells r drawn_strokes links rows cols full fun cell member =>
    .text cell.text (checked cell member)

theorem drawn_writeCursor {cursor : Cursor} (full painting : Bool)
    (shape : cursor.shape = s.cursor.shape) :
    ∀ c ∈ r.writeCursor cursor full painting, Drawn s c := by
  intro c member
  simp only [Renderer.writeCursor, List.mem_append] at member
  rcases member with (shaped | moved) | visible
  · cases eq_of_mem_when shaped
    exact shape ▸ .cursorShape
  · cases eq_of_mem_when moved
    exact .moveTo _ _
  · cases eq_of_mem_when visible
    exact .setMode 25 _ (by decide)

end

/-- The title is not the one last written, or nothing is known and there is one. -/
def Renderer.retitled (r : Renderer) (s : ScreenState) : Bool :=
  match ((r.reshape s).leaving s).painted with
  | some p => decide (p.title ≠ s.title)
  | none => !s.title.isEmpty

theorem writeTitle_leaving (r : Renderer) (s : ScreenState) :
    (r.leaving s).writeTitle s (r.painted.isNone || r.bufferSwapped s) =
      if (match (r.leaving s).painted with
        | some p => decide (p.title ≠ s.title)
        | none => !s.title.isEmpty) then [.setTitle s.title] else [] := by
  cases swapped : r.bufferSwapped s with
  | true =>
      simp only [Renderer.writeTitle, Renderer.leaving, swapped, if_true]
  | false =>
      cases painted : r.painted with
      | none => simp only [Renderer.writeTitle, Renderer.leaving, swapped, painted, if_false,
          Bool.false_eq_true]
      | some p => simp only [Renderer.writeTitle, Renderer.leaving, swapped, painted, if_false,
          Bool.false_eq_true, Option.isNone_some, Bool.or_self]

/-- A pass draws, writes the title where it changed, and draws on. -/
theorem paint_parts (width : Text → Nat) {r : Renderer} {s : ScreenState} (valid : s.Valid)
    (checked : Overlay.Checked r.overlay) :
    ∃ early late, (r.reshape s).paint width s =
        early ++ (if r.retitled s then [.setTitle s.title] else []) ++ late ∧
      (∀ c ∈ early, Drawn s c) ∧ ∀ c ∈ late, Drawn s c := by
  have overlay : (r.reshape s).overlay = r.overlay := (reshape_settings r s).2.1
  have cells := composite_checked width valid checked
  have shape : ((r.reshape s).shownCursor s).shape = s.cursor.shape := by
    simp only [Renderer.shownCursor]
    split
    · rfl
    · rfl
  simp only [Renderer.paint, writeTitle_leaving, Renderer.retitled, List.append_assoc]
  refine ⟨_, _, rfl, drawn_writeModes _ _, fun c member => ?_⟩
  simp only [List.mem_append, overlay] at member
  rcases member with cell | cursor | bell
  · exact drawn_writeCells _ _ _ _ _ cells c cell
  · exact drawn_writeCursor _ _ _ shape c cursor
  · cases eq_of_mem_when bell
    exact .bell

theorem output_intended (width : Text → Nat) {r : Renderer} {s : ScreenState} (valid : s.Valid)
    (checked : Overlay.Checked r.overlay) : ∀ c ∈ r.output width s, Intended s c := by
  obtain ⟨early, late, parts, drawnEarly, drawnLate⟩ := paint_parts width valid checked
  have known : 2026 ∈ paintModes := by decide
  intro c member
  rw [Renderer.output, Renderer.wrap, parts, List.mem_ite_nil_left, List.mem_append, List.mem_append,
    List.mem_append, List.mem_append, List.mem_singleton, List.mem_singleton] at member
  rcases member.2 with (rfl | (before | title) | after) | rfl
  · exact Or.inl (.setMode 2026 true known)
  · exact Or.inl (drawnEarly c before)
  · exact Or.inr (eq_of_mem_when title)
  · exact Or.inl (drawnLate c after)
  · exact Or.inl (.setMode 2026 false known)

def isTitle : Command → Bool
  | .osc payload => (splitField payload).1 == ['0']
  | _ => false

theorem isTitle_setTitle (title : Text) : isTitle (.setTitle title) = true := by
  have split := Vt.splitField_append ['0'] (by simp) title
  change ((splitField (['0'] ++ ';' :: title)).1 == ['0']) = true
  rw [split]
  rfl

theorem Drawn.not_title {s : ScreenState} {c : Command} (drawn : Drawn s c) : isTitle c = false := by
  cases drawn with
  | openLink id uri checked =>
      have split := Vt.splitField_append ['8'] (by simp) (linkParams id ++ ';' :: uri)
      change ((splitField (['8'] ++ ';' :: (linkParams id ++ ';' :: uri))).1 == ['0']) = false
      rw [split]
      rfl
  | closeLink => decide
  | _ => rfl

theorem output_titles (width : Text → Nat) {r : Renderer} {s : ScreenState} (valid : s.Valid)
    (checked : Overlay.Checked r.overlay) :
    (r.output width s).filter isTitle = if r.retitled s then [.setTitle s.title] else [] := by
  obtain ⟨early, late, parts, drawnEarly, drawnLate⟩ := paint_parts width valid checked
  have none : ∀ l : List Command, (∀ c ∈ l, Drawn s c) → l.filter isTitle = [] := fun l drawn =>
    List.filter_eq_nil_iff.mpr fun c member => by
      rw [(drawn c member).not_title]
      decide
  have body : ((r.reshape s).paint width s).filter isTitle =
      if r.retitled s then [.setTitle s.title] else [] := by
    rw [parts, List.filter_append, List.filter_append, none early drawnEarly, none late drawnLate]
    split
    · simp only [List.filter_cons, isTitle_setTitle, if_true, List.filter_nil, List.nil_append,
        List.append_nil]
    · rfl
  rw [Renderer.output, Renderer.wrap]
  split
  · next empty =>
      rw [List.isEmpty_iff.mp empty] at body
      exact body
  · have wrapped : ∀ on, [Command.setMode 2026 on].filter isTitle = [] := fun _ => rfl
    rw [List.filter_append, List.filter_append, body, wrapped, wrapped, List.nil_append,
      List.append_nil]

theorem isControl_of_checked {c : Char} (plain : isControlScalar c = false) :
    isControl c = false := by
  simp only [isControlScalar, Bool.or_eq_false_iff, Bool.and_eq_false_iff, decide_eq_false_iff_not,
    beq_eq_false_iff_ne, UInt32.le_iff_toNat_le, ne_eq, ← UInt32.toNat_inj] at plain
  obtain ⟨⟨low, del⟩, high⟩ := plain
  have low : ¬ c.toNat ≤ 31 := low
  have del : ¬ c.toNat = 127 := del
  have high : ¬ 128 ≤ c.toNat ∨ ¬ c.toNat ≤ 159 := high
  rw [isControl, decide_eq_false_iff_not]
  omega

theorem checkText_plain {text : Text} {field : TextField} (checked : checkText text field = .ok ()) :
    ∀ c ∈ text, isControl c = false := by
  simp only [checkText, checked_seq_ok] at checked
  have clean := checked.2
  split at clean
  · cases clean
  · next none =>
      intro c member
      have scalar := List.find?_eq_none.mp none c member
      exact isControl_of_checked (Bool.not_eq_true _ ▸ scalar)

theorem checkLinkUri_plain {id : UInt16} {uri : Text} (checked : checkLinkUri id uri = .ok ()) :
    ∀ c ∈ uri, isControl c = false := by
  simp only [checkLinkUri, checked_seq_ok] at checked
  have clean := checked.2.2
  split at clean
  · cases clean
  · next none =>
      intro c member
      obtain ⟨first, tails, shape, -, -⟩ := Vt.Utf8.encodeChar_shape c
      have own : first ∈ String.utf8EncodeChar c := by
        rw [shape]
        exact List.mem_cons_self
      have printable := List.find?_eq_none.mp none first (List.mem_flatMap.mpr ⟨c, member, own⟩)
      simp only [Bool.not_eq_true', Bool.not_eq_false, Bool.and_eq_true, decide_eq_true_eq,
        UInt8.le_iff_toNat_le] at printable
      obtain ⟨low, high⟩ := printable
      have low : 0x20 ≤ first.toNat := low
      have high : first.toNat ≤ 0x7e := high
      have ascii := Vt.Utf8.toNat_of_mem_encodeChar own (by omega)
      rw [isControl, decide_eq_false_iff_not]
      omega

theorem linkParams_unbroken (id : UInt16) : ∀ c ∈ linkParams id, isControl c = false := by
  intro c member
  cases List.mem_append.mp member with
  | inl label =>
      simp only [List.mem_cons, List.not_mem_nil, or_false] at label
      rcases label with rfl | rfl | rfl
      · decide
      · decide
      · decide
  | inr digit =>
      have digit := Vt.toDigits_digits _ c digit
      simp only [Char.isDigit, Bool.and_eq_true, decide_eq_true_eq, UInt32.le_iff_toNat_le] at digit
      have low : 48 ≤ c.toNat := digit.1
      have high : c.toNat ≤ 57 := digit.2
      rw [isControl, decide_eq_false_iff_not]
      omega

theorem openLink_framed {id : UInt16} {uri : Text} (checked : checkLinkUri id uri = .ok ()) :
    (Command.openLink (linkParams id) uri).Framed := by
  refine List.forall_mem_cons.mpr ⟨by decide, List.forall_mem_cons.mpr ⟨by decide, ?_⟩⟩
  refine List.forall_mem_append.mpr ⟨linkParams_unbroken id, ?_⟩
  exact List.forall_mem_cons.mpr ⟨by decide, checkLinkUri_plain checked⟩

theorem Drawn.framed {s : ScreenState} {c : Command} (drawn : Drawn s c) : c.Framed := by
  cases drawn with
  | bell => exact (rfl : _ = Vt.bel)
  | moveTo | home | eraseAll | sgr => exact ⟨by simp, by simp, by decide⟩
  | cursorShape => exact ⟨by simp, List.forall_mem_singleton.mpr (by decide), by decide⟩
  | setMode n on known =>
      refine ⟨List.forall_mem_singleton.mpr (by decide), by simp, ?_⟩
      cases on with
      | false => decide
      | true => decide
  | closeLink =>
      refine List.forall_mem_cons.mpr ⟨by decide, List.forall_mem_cons.mpr ⟨by decide, ?_⟩⟩
      exact List.forall_mem_singleton.mpr (by decide)
  | openLink id uri checked => exact openLink_framed checked
  | text text checked => exact checkText_plain checked

theorem setTitle_framed {title : Text} (checked : checkTitle title = .ok ()) :
    (Command.setTitle title).Framed :=
  List.forall_mem_cons.mpr ⟨by decide, List.forall_mem_cons.mpr ⟨by decide,
    checkText_plain checked⟩⟩

theorem Intended.framed {s : ScreenState} (valid : s.Valid) {c : Command} (intended : Intended s c) :
    c.Framed := by
  cases intended with
  | inl drawn => exact drawn.framed
  | inr title => exact title ▸ setTitle_framed valid.title

/-- The same command with another payload that passes its check. -/
inductive Reworded : Command → Command → Prop where
  | same (c : Command) : Reworded c c
  | text (before : Text) {after : Text} (checked : checkCellText after = .ok ()) :
      Reworded (.text before) (.text after)
  | title (before : Text) {after : Text} (checked : checkTitle after = .ok ()) :
      Reworded (.setTitle before) (.setTitle after)
  | link (id : UInt16) (before : Text) {after : Text} (checked : checkLinkUri id after = .ok ()) :
      Reworded (.openLink (linkParams id) before) (.openLink (linkParams id) after)

/-- The control sequences, controls and strings of a list of commands. -/
def sequences (commands : List Command) : List Command :=
  commands.filter fun c => match c with
    | .text _ => false
    | _ => true

theorem Reworded.framed {c d : Command} (reworded : Reworded c d) (framed : c.Framed) :
    d.Framed := by
  cases reworded with
  | same => exact framed
  | text before checked => exact checkText_plain checked
  | title before checked => exact setTitle_framed checked
  | link id before checked => exact openLink_framed checked

theorem framed_reworded {cs ds : List Command} (reworded : List.Forall₂ Reworded cs ds)
    (framed : ∀ c ∈ cs, c.Framed) : ∀ d ∈ ds, d.Framed := by
  induction reworded with
  | nil => exact framed
  | cons one _ ih =>
      rw [List.forall_mem_cons] at framed ⊢
      exact ⟨one.framed framed.1, ih framed.2⟩

theorem sequences_append (cs ds : List Command) :
    sequences (cs ++ ds) = sequences cs ++ sequences ds := List.filter_append cs ds

theorem sequences_text (text : Text) : sequences (Command.spelled (.text text)) = [] := by
  simp only [sequences, Command.spelled, List.filter_eq_nil_iff, List.mem_map]
  rintro c ⟨d, -, rfl⟩
  exact Bool.false_ne_true

theorem Reworded.sequences {c d : Command} (reworded : Reworded c d) :
    List.Forall₂ Reworded (sequences c.spelled) (sequences d.spelled) := by
  cases reworded with
  | same => exact List.forall₂_same.mpr fun c _ => .same c
  | text before checked =>
      rw [sequences_text, sequences_text]
      exact .nil
  | title before checked => exact .cons (.title before checked) .nil
  | link id before checked => exact .cons (.link id before checked) .nil

theorem sequences_reworded {cs ds : List Command} (reworded : List.Forall₂ Reworded cs ds) :
    List.Forall₂ Reworded (sequences (spelling cs)) (sequences (spelling ds)) := by
  induction reworded with
  | nil => exact .nil
  | cons one _ ih =>
      simp only [spelling, List.flatMap_cons, sequences_append] at ih ⊢
      exact List.rel_append one.sequences ih

end Oxutrm.Paint
