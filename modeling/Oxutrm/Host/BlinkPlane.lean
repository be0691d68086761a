import Oxutrm.Host.BlinkTap

/-!
The cells that blink, against the cells that were written blinking. A character that arrives
while the cursor waits to wrap is recorded where the cursor waits, and the line its wrap
scrolls off is not noticed.
-/
namespace Oxutrm.Host.Blink

variable {τ κ : Type}

namespace BlinkPlane

theorem mem_note (plane : BlinkPlane) (p q : Point) :
    p ∈ (plane.note q).cells ↔ if p = q then plane.active = true else p ∈ plane.cells := by
  unfold note
  cases plane.active with
  | true =>
      change p ∈ insert q plane.cells ↔ _
      rw [Finset.mem_insert]
      by_cases here : p = q
      · rw [if_pos here]
        exact iff_of_true (.inl here) rfl
      · rw [if_neg here]
        exact or_iff_right here
  | false =>
      change p ∈ plane.cells.erase q ↔ _
      rw [Finset.mem_erase]
      by_cases here : p = q
      · rw [if_pos here]
        exact iff_of_false (fun both => both.1 here) Bool.false_ne_true
      · rw [if_neg here]
        exact and_iff_right here

theorem mem_scrolled_one (plane : BlinkPlane) (topmost : Int) (p : Point) :
    p ∈ (plane.scrolled 1 topmost).cells ↔
      topmost ≤ p.line ∧ { p with line := p.line + 1 } ∈ plane.cells := by
  change p ∈ Finset.filter _ _ ↔ _
  rw [Finset.mem_filter, Finset.mem_image, and_comm]
  refine and_congr_right fun _ => ⟨?_, fun old => ⟨_, old, ?_⟩⟩
  · rintro ⟨old, member, rfl⟩
    rwa [show old.line - 1 + 1 = old.line from Int.sub_add_cancel _ _]
  · rw [show p.line + 1 - 1 = p.line from Int.add_sub_cancel _ _]

theorem setActive_cells (plane : BlinkPlane) (attr : Attr) :
    (plane.setActive attr).cells = plane.cells := by
  cases attr with
  | reset | blinkSlow | blinkFast | cancelBlink | other _ => rfl

end BlinkPlane

/-- A tap, and what it should know: where the last character was written blinking. -/
structure Watched (τ : Type) extends BlinkTap τ where
  written : Point → Bool := fun _ => false

namespace Term
variable (e : Term τ Move κ)

/-- A place of the screen. -/
def Visible (t : τ) (p : Point) : Prop :=
  0 ≤ p.line ∧ p.line < e.screenLines t ∧ p.column < e.columns t

instance (t : τ) (p : Point) : Decidable (e.Visible t p) := inferInstanceAs (Decidable (_ ∧ _ ∧ _))

/-- What is on the screen after so many of its lines left. -/
def movedUp (t : τ) (lines : Nat) (written : Point → Bool) (p : Point) : Bool :=
  decide (p.line + lines < e.screenLines t) && written { p with line := p.line + lines }

/-- What a call writes, and moves. -/
def wrote (t : τ) (active : Bool) (written : Point → Bool) (call : Call Move) : Point → Bool :=
  match call with
  | .input c => fun p =>
      if p = e.lands t c then active else e.movedUp t (e.intoHistory t call) written p
  | _ => e.movedUp t (e.intoHistory t call) written

/-- Characters of one column, attributes, linefeeds and moves of the cursor. -/
def Plain : Call Move → Prop
  | .input c => e.width c = some 1
  | .scrollUp _ => False
  | _ => True

instance : (call : Call Move) → Decidable (e.Plain call)
  | .input c => inferInstanceAs (Decidable (e.width c = some 1))
  | .scrollUp _ => inferInstanceAs (Decidable False)
  | .linefeed | .terminalAttribute _ | .forwarded _ => inferInstanceAs (Decidable True)

/-- Such a call on the primary screen, where the region is the whole screen. -/
def watch (s : Watched τ) (call : Call Move) : Option (Watched τ) :=
  if e.altScreen s.term = false ∧ e.region s.term = (0, e.screenLines s.term) ∧ e.Plain call then
    some {
      toBlinkTap := e.handle s.toBlinkTap call
      written := e.wrote s.term s.blink.active s.written call }
  else none

/-- What the tap can rely on when characters are written. -/
structure Writes : Prop where
  /-- The cursor is on the screen. -/
  inside : ∀ t, e.Visible t (e.cursor t)
  clamp : ∀ t p, e.Visible t p → e.gridClamp t p = p
  topmost : ∀ t, e.topmostLine t ≤ 0
  wraps : ∀ t c, e.width c = some 1 → e.wraps t c = e.inputNeedsWrap t
  /-- At a pending wrap a character goes to the start of the next line. -/
  lands : ∀ t c, e.width c = some 1 → e.lands t c =
    if e.inputNeedsWrap t then
      ⟨if (e.cursor t).line + 1 = e.screenLines t then (e.cursor t).line
        else (e.cursor t).line + 1, 0⟩
    else e.cursor t
  moves : ∀ t move, e.intoHistory t (.forwarded move) = 0
  screenLines : ∀ t call, e.screenLines (e.call t call) = e.screenLines t
  columns : ∀ t call, e.columns (e.call t call) = e.columns t

/-- The cells of the screen that blink are those that were written blinking. -/
def Right (s : Watched τ) : Prop :=
  ∀ p, e.Visible s.term p → (p ∈ s.blink.cells ↔ s.written p = true)

/-- Nothing is recorded below the screen. -/
def Above (s : Watched τ) : Prop := ∀ p ∈ s.blink.cells, p.line < e.screenLines s.term

/-- To record the character where the cursor waits leaves the same cells of the screen
blinking as to scroll, and record it where it lands. -/
def Alike (s : Watched τ) (c : Char) : Prop :=
  ∀ p, e.Visible s.term p →
    (p ∈ (s.blink.note (e.cursor s.term)).cells ↔
      if p = e.lands s.term c then s.blink.active = true
      else { p with line := p.line + e.intoHistory s.term (.input c) } ∈ s.blink.cells)

/-- No character at a pending wrap. -/
def Ready (s : Watched τ) : Call Move → Prop
  | .input _ => e.inputNeedsWrap s.term = false
  | _ => True

/-- No character at a pending wrap, unless it makes no difference. -/
def Unwrapped (s : Watched τ) : Call Move → Prop
  | .input c => e.inputNeedsWrap s.term = true → e.Alike s c
  | _ => True

/-- What a call leaves in the plane. -/
def Recorded (s : Watched τ) (p : Point) : Call Move → Prop
  | .input _ => p ∈ (s.blink.note (e.cursor s.term)).cells
  | .linefeed =>
      if e.AtBottom s.term then
        e.topmostLine (e.call s.term .linefeed) ≤ p.line ∧
          { p with line := p.line + 1 } ∈ s.blink.cells
      else p ∈ s.blink.cells
  | _ => p ∈ s.blink.cells

variable {e} {s : Watched τ}

theorem markFits_of_width {t : τ} {c : Char} (single : e.width c = some 1) :
    e.markFits t c = true := by
  rw [markFits, single, if_pos (by decide)]

theorem noteScroll_cells (tap : BlinkTap τ) :
    (e.noteScroll tap 1).blink = tap.blink.scrolled 1 (e.topmostLine tap.term) := rfl

/-- The place that moves to `p` is recorded if the character there was written blinking. -/
theorem recorded_movedUp (above : e.Above s) (right : e.Right s) {p : Point}
    (visible : e.Visible s.term p) (lines : Nat) :
    { p with line := p.line + lines } ∈ s.blink.cells ↔
      e.movedUp s.term lines s.written p = true := by
  rw [movedUp, Bool.and_eq_true, decide_eq_true_iff]
  by_cases stays : p.line + lines < e.screenLines s.term
  · have old : e.Visible s.term { p with line := p.line + lines } :=
      ⟨Int.add_nonneg visible.1 (Int.natCast_nonneg _), stays, visible.2.2⟩
    rw [right _ old]
    exact (and_iff_right stays).symm
  · exact iff_of_false (fun member => stays (above _ member)) fun both => stays both.1

theorem movedUp_zero {p : Point} (visible : e.Visible s.term p) :
    e.movedUp s.term 0 s.written p = s.written p := by
  have stays : p.line + (0 : Nat) < e.screenLines s.term := by
    rw [Nat.cast_zero, Int.add_zero]
    exact visible.2.1
  rw [movedUp, decide_eq_true stays, Bool.true_and]
  exact congrArg s.written (by rw [Nat.cast_zero, Int.add_zero])

theorem stays_iff (known : e.Scrolls) {t : τ} (primary : e.altScreen t = false)
    (whole : e.region t = (0, e.screenLines t)) :
    (e.cursor (e.call t .linefeed)).line = (e.cursor t).line ↔ e.AtBottom t := by
  have bottom : e.AtBottom t ↔ (e.cursor t).line + 1 = e.screenLines t := by rw [AtBottom, whole]
  rw [known.cursor _ primary]
  by_cases last : e.AtBottom t
  · rw [if_pos (Or.inl last)]
    exact iff_of_true rfl last
  · rw [if_neg (not_or.mpr ⟨last, fun end_ => last (bottom.mpr end_)⟩)]
    exact iff_of_false (by omega) last

theorem handle_cells (known : e.Scrolls) (writes : e.Writes) {call : Call Move}
    (primary : e.altScreen s.term = false)
    (whole : e.region s.term = (0, e.screenLines s.term)) (plain : e.Plain call) (p : Point) :
    p ∈ (e.handle s.toBlinkTap call).blink.cells ↔ e.Recorded s p call := by
  cases call with
  | input c =>
      change p ∈ (e.input s.toBlinkTap c).blink.cells ↔ _
      rw [input, if_pos (markFits_of_width plain), writes.clamp _ _ (writes.inside _)]
      exact Iff.rfl
  | linefeed =>
      have stays := stays_iff known primary whole
      change p ∈ (e.linefeed s.toBlinkTap).blink.cells ↔ if e.AtBottom s.term then _ else _
      by_cases last : e.AtBottom s.term
      · rw [linefeed, if_pos ⟨primary, stays.mpr last⟩, if_pos last, noteScroll_cells,
          BlinkPlane.mem_scrolled_one]
      · rw [linefeed, if_neg fun both => last (stays.mp both.2), if_neg last]
  | scrollUp lines => exact plain.elim
  | terminalAttribute attr =>
      change p ∈ (s.blink.setActive attr).cells ↔ _
      rw [BlinkPlane.setActive_cells]
      exact Iff.rfl
  | forwarded move => exact Iff.rfl

theorem handle_term (s : BlinkTap τ) {call : Call Move} (plain : e.Plain call) :
    (e.handle s call).term = e.call s.term call := by
  cases call with
  | input c =>
      change (e.input s c).term = _
      rw [input, if_pos (markFits_of_width plain)]
  | linefeed =>
      change (e.linefeed s).term = _
      by_cases stays : e.altScreen s.term = false ∧
          (e.cursor (e.call s.term .linefeed)).line = (e.cursor s.term).line
      · rw [linefeed, if_pos stays, e.noteScroll_term]
      · rw [linefeed, if_neg stays]
  | scrollUp lines => exact plain.elim
  | terminalAttribute attr => rfl
  | forwarded move => rfl

theorem watch_some {t : Watched τ} {call : Call Move} (taken : e.watch s call = some t) :
    e.altScreen s.term = false ∧ e.region s.term = (0, e.screenLines s.term) ∧ e.Plain call ∧
      t.toBlinkTap = e.handle s.toBlinkTap call ∧
      t.written = e.wrote s.term s.blink.active s.written call := by
  unfold watch at taken
  split at taken
  · next open_ =>
      obtain rfl := Option.some.inj taken
      exact ⟨open_.1, open_.2.1, open_.2.2, rfl, rfl⟩
  · cases taken

theorem visible_call (writes : e.Writes) {t : Watched τ} {call : Call Move}
    (taken : e.watch s call = some t) (p : Point) :
    e.Visible t.term p ↔ e.Visible s.term p := by
  obtain ⟨_, _, plain, same, _⟩ := watch_some taken
  rw [Visible, Visible, same, handle_term _ plain, writes.screenLines, writes.columns]

theorem above_call (known : e.Scrolls) (writes : e.Writes) {t : Watched τ} {call : Call Move}
    (above : e.Above s) (taken : e.watch s call = some t) : e.Above t := by
  obtain ⟨primary, whole, plain, same, _⟩ := watch_some taken
  intro p member
  rw [same, handle_cells known writes primary whole plain] at member
  rw [same, handle_term _ plain, writes.screenLines]
  cases call with
  | input c =>
      change p ∈ (s.blink.note (e.cursor s.term)).cells at member
      rw [BlinkPlane.mem_note] at member
      by_cases here : p = e.cursor s.term
      · rw [here]
        exact (writes.inside s.term).2.1
      · rw [if_neg here] at member
        exact above p member
  | linefeed =>
      change if e.AtBottom s.term then _ ∧ _ else _ at member
      by_cases last : e.AtBottom s.term
      · rw [if_pos last] at member
        have below := above _ member.2
        change p.line + 1 < _ at below
        omega
      · rw [if_neg last] at member
        exact above p member
  | scrollUp lines => exact plain.elim
  | terminalAttribute attr => exact above p member
  | forwarded move => exact above p member

theorem right_input (known : e.Scrolls) (writes : e.Writes) {t : Watched τ} {c : Char}
    (above : e.Above s) (right : e.Right s) (taken : e.watch s (.input c) = some t) :
    e.Right t ↔ e.Alike s c := by
  obtain ⟨primary, whole, plain, same, written⟩ := watch_some taken
  refine forall_congr' fun p => ?_
  rw [visible_call writes taken]
  refine forall_congr' fun visible => ?_
  rw [same, handle_cells known writes primary whole plain, written]
  change (_ ↔ (if p = e.lands s.term c then _ else _) = true) ↔ _
  by_cases here : p = e.lands s.term c
  · rw [if_pos here, if_pos here]
    exact Iff.rfl
  · rw [if_neg here, if_neg here, recorded_movedUp above right visible]
    exact Iff.rfl

theorem alike_of_unwrapped (known : e.Scrolls) (writes : e.Writes) {c : Char}
    (primary : e.altScreen s.term = false) (single : e.width c = some 1)
    (ready : e.inputNeedsWrap s.term = false) : e.Alike s c := by
  intro p visible
  rw [BlinkPlane.mem_note, writes.lands _ _ single, known.input _ _ primary,
    writes.wraps _ _ single, ready]
  simp only [Bool.false_eq_true, if_false, Nat.cast_zero, Int.add_zero]

theorem right_other (known : e.Scrolls) (writes : e.Writes) {t : Watched τ} {call : Call Move}
    (above : e.Above s) (right : e.Right s) (taken : e.watch s call = some t)
    (other : ∀ c, call ≠ .input c) : e.Right t := by
  obtain ⟨primary, whole, plain, same, written⟩ := watch_some taken
  intro p visible
  rw [visible_call writes taken] at visible
  rw [same, handle_cells known writes primary whole plain, written]
  cases call with
  | input c => exact absurd rfl (other c)
  | linefeed =>
      change (if e.AtBottom s.term then _ else _) ↔
        e.movedUp s.term (e.intoHistory s.term .linefeed) s.written p = true
      rw [known.linefeed _ primary, whole]
      by_cases last : e.AtBottom s.term
      · have inGrid : e.topmostLine (e.call s.term .linefeed) ≤ p.line :=
          (writes.topmost _).trans visible.1
        rw [if_pos last, if_pos ⟨last, rfl⟩, ← recorded_movedUp above right visible]
        exact and_iff_right inGrid
      · rw [if_neg last, if_neg fun both => last both.1, movedUp_zero visible]
        exact right p visible
  | scrollUp lines => exact plain.elim
  | terminalAttribute attr =>
      change _ ↔ e.movedUp s.term (e.intoHistory s.term (.terminalAttribute attr)) s.written p = true
      rw [known.terminalAttribute _ _ primary, movedUp_zero visible]
      exact right p visible
  | forwarded move =>
      change _ ↔ e.movedUp s.term (e.intoHistory s.term (.forwarded move)) s.written p = true
      rw [writes.moves, movedUp_zero visible]
      exact right p visible

theorem right_iff (known : e.Scrolls) (writes : e.Writes) {t : Watched τ} {call : Call Move}
    (above : e.Above s) (right : e.Right s) (taken : e.watch s call = some t) :
    e.Right t ↔ e.Unwrapped s call := by
  cases call with
  | input c =>
      obtain ⟨primary, _, single, _⟩ := watch_some taken
      rw [right_input known writes above right taken, Unwrapped]
      refine ⟨fun alike _ => alike, fun unwrapped => ?_⟩
      cases pending : e.inputNeedsWrap s.term with
      | true => exact unwrapped pending
      | false => exact alike_of_unwrapped known writes primary single pending
  | linefeed | scrollUp _ | terminalAttribute _ | forwarded _ =>
      exact iff_of_true (right_other known writes above right taken (by rintro c ⟨⟩)) trivial

theorem unwrapped_of_ready {call : Call Move} (ready : e.Ready s call) : e.Unwrapped s call := by
  cases call with
  | input c => exact fun pending => absurd (pending.symm.trans ready) Bool.true_eq_false.mp
  | linefeed | scrollUp _ | terminalAttribute _ | forwarded _ => trivial

/-- From a screen where nothing blinks, what blinks is what was written blinking in every
state of a run in which no character arrives at a pending wrap, and exactly if none
arrives there where that makes a difference. -/
theorem blink_is_where_it_was_written (known : e.Scrolls) (writes : e.Writes) (t : τ)
    (calls : List (Call Move)) :
    (Transition.Along e.watch (fun _ _ s => e.Right s) { term := t } calls ↔
      Transition.Along e.watch (fun s call _ => e.Unwrapped s call) { term := t } calls) ∧
    (Transition.Along e.watch (fun s call _ => e.Ready s call) { term := t } calls →
      Transition.Along e.watch (fun _ _ s => e.Right s) { term := t } calls) := by
  have exact_ : Transition.Along e.watch (fun _ _ s => e.Right s) { term := t } calls ↔
      Transition.Along e.watch (fun s call _ => e.Unwrapped s call) { term := t } calls :=
    Transition.along_right_iff (fun _ _ _ above taken => above_call known writes above taken)
      (fun _ _ _ above right taken => right_iff known writes above right taken) calls
      (fun _ member => absurd member (Finset.notMem_empty _))
      (fun _ _ => iff_of_false (Finset.notMem_empty _) Bool.false_ne_true)
  refine ⟨exact_, fun ready => exact_.mpr ?_⟩
  exact Transition.Along.mono (fun _ _ _ => unwrapped_of_ready) ready

end Term

namespace Page

theorem writes : emulator.Writes where
  inside t := ⟨Int.natCast_nonneg _, Int.ofNat_lt.mpr t.line.isLt, t.column.isLt⟩
  clamp t p visible := by
    obtain ⟨line, column⟩ := p
    obtain ⟨above, below, inside⟩ := visible
    change 0 ≤ line at above
    change line < 2 at below
    change column < 2 at inside
    change Point.mk (max (-(t.history : Int)) (min line 1)) (min column 1) = ⟨line, column⟩
    congr
    · omega
    · omega
  topmost t := by
    change -(t.history : Int) ≤ 0
    omega
  wraps _ _ _ := rfl
  lands t c _ := by
    change (if t.needsWrap = true then Point.mk 1 0 else _) =
      if t.needsWrap = true then
        ⟨if (t.line.val : Int) + 1 = 2 then (t.line.val : Int) else t.line.val + 1, 0⟩
      else ⟨t.line.val, t.column.val⟩
    have next_ : (if (t.line.val : Int) + 1 = 2 then (t.line.val : Int) else t.line.val + 1) = 1 := by
      split
      · omega
      · omega
    rw [next_]
  moves _ _ := rfl
  screenLines _ _ := rfl
  columns _ _ := rfl

end Page

namespace Term
open Page (emulator)

/-- A letter that blinks, and one in its place that does not. -/
theorem blink_is_where_it_was_written_twice :
    Transition.Along emulator.watch (fun _ _ s => emulator.Right s) { term := {} }
      [.terminalAttribute .blinkSlow, .input 'a', .forwarded .carriageReturn,
        .terminalAttribute .reset, .input 'b'] :=
  (blink_is_where_it_was_written Page.scrolls Page.writes _ _).2
    ⟨trivial, rfl, trivial, trivial, rfl, trivial⟩

/-- The third letter goes to the second line, and is recorded on the first. -/
theorem blink_misses_a_wrap :
    emulator.Scrolls ∧ emulator.Writes ∧
      (Transition.runFrom emulator.watch { term := {} } [.terminalAttribute .blinkSlow,
        .input 'a', .input 'b', .input 'c']).any (fun s =>
          s.written ⟨1, 0⟩ && decide (⟨1, 0⟩ ∉ s.blink.cells)) = true ∧
      ¬ Transition.Along emulator.watch (fun _ _ s => emulator.Right s) { term := {} }
        [.terminalAttribute .blinkSlow, .input 'a', .input 'b', .input 'c'] := by
  refine ⟨Page.scrolls, Page.writes, by decide, fun right => ?_⟩
  have third := right.2.2.2.1 ⟨1, 0⟩ (by decide)
  exact absurd (third.mpr rfl) (by decide)

end Term
end Oxutrm.Host.Blink
