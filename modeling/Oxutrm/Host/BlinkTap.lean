import Mathlib.Data.Finset.Image
import Oxutrm.Host.Cells
import Oxutrm.Lib.Transition

/-!
The tap between the parser and the emulator, and the lines it counts. It reads a scroll off
the cursor, which stays where it is in a linefeed that scrolls, and believes the parser how
many lines a `CSI S` scrolls. The emulator is a parameter.
-/
namespace Oxutrm.Host.Blink
open Proto

/-- A place of the emulator's grid. History is above line 0. -/
structure Point where
  line : Int
  column : Nat
  deriving DecidableEq, Repr

/-- The attributes, those the tap does not look at by number. -/
inductive Attr
  | reset
  | blinkSlow
  | blinkFast
  | cancelBlink
  | other (number : Nat)
  deriving DecidableEq, Repr

/-- What the parser calls. The methods the tap only forwards are of any type. -/
inductive Call (ο : Type)
  | input (c : Char)
  | linefeed
  | scrollUp (lines : UInt64)
  | terminalAttribute (attr : Attr)
  | forwarded (method : ο)
  deriving DecidableEq, Repr

/-- The methods that move the cursor. -/
inductive Move
  | carriageReturn
  | goto (line : Int) (column : Nat)
  | gotoLine (line : Int)
  | gotoCol (column : Nat)
  | moveUp (lines : Nat)
  | moveDown (lines : Nat)
  | moveForward (columns : Nat)
  | moveBackward (columns : Nat)
  deriving DecidableEq, Repr

/-- The emulator: what a call makes of it, what the tap sees of it, and what else it does. -/
structure Term (τ ο κ : Type) where
  call : τ → Call ο → τ
  cursor : τ → Point
  inputNeedsWrap : τ → Bool
  altScreen : τ → Bool
  topmostLine : τ → Int
  gridClamp : τ → Point → Point
  grid : τ → Point → VteCell κ
  /-- The columns of a character, none if it is a control. -/
  width : Char → Option Nat
  screenLines : τ → Nat
  columns : τ → Nat
  /-- The first line of the scrolling region, and the first one behind it. -/
  region : τ → Nat × Nat
  /-- The line is wrapped before the character is written. -/
  wraps : τ → Char → Bool
  /-- Where the character is written. -/
  lands : τ → Char → Point
  /-- How many lines a call moves into the history. -/
  intoHistory : τ → Call ο → Nat

/-- `Point::saturating_sub` on the column. -/
def Point.back (p : Point) : Point := { p with column := p.column - 1 }

structure BlinkPlane where
  cells : Finset Point := ∅
  active : Bool := false

namespace BlinkPlane

/-- Every recorded point moves up, and is dropped past the top of the grid. -/
def scrolled (plane : BlinkPlane) (lines topmost : Int) : BlinkPlane :=
  if lines = 0 then plane
  else
    { plane with
      cells := (plane.cells.image fun p => { p with line := p.line - lines }).filter
        fun p => p.line ≥ topmost }

/-- The place of a character that is written, or overwritten. -/
def note (plane : BlinkPlane) (p : Point) : BlinkPlane :=
  if plane.active then { plane with cells := insert p plane.cells }
  else { plane with cells := plane.cells.erase p }

def setActive (plane : BlinkPlane) : Attr → BlinkPlane
  | .blinkSlow | .blinkFast => { plane with active := true }
  | .cancelBlink | .reset => { plane with active := false }
  | .other _ => plane

end BlinkPlane

/-- What the tap holds of the terminal. -/
structure BlinkTap (τ : Type) where
  term : τ
  blink : BlinkPlane := {}
  scrolled : UInt64 := 0

def saturatingAdd64 (a b : UInt64) : UInt64 := UInt64.ofNat (min (a.toNat + b.toNat) (2 ^ 64 - 1))

variable {τ ο κ : Type}

namespace Term
variable (e : Term τ ο κ)

def cellAt (t : τ) (point : Point) : Option (VteCell κ) :=
  if e.gridClamp t point ≠ point then none else some (e.grid t point)

/-- The cell a character without columns is put on. -/
def landing (t : τ) : Point :=
  let point := e.cursor t
  let point := if e.inputNeedsWrap t then point else point.back
  if (e.cellAt t point).any (·.flags.wideCharSpacer) then point.back else point

/-- Whether the character may go on to the emulator. -/
def markFits (t : τ) (c : Char) : Bool :=
  if e.width c ≠ some 0 then true
  else
    match e.cellAt t (e.landing t) with
    | none => true
    | some cell => Text.len (cell.c :: cell.zerowidth) + Text.len [c] ≤ maxCellText

def noteScroll (tap : BlinkTap τ) (lines : UInt64) : BlinkTap τ :=
  if lines = 0 then tap
  else
    { tap with
      scrolled := saturatingAdd64 tap.scrolled lines
      blink := tap.blink.scrolled (min lines.toNat 2147483647 : Nat) (e.topmostLine tap.term) }

def input (tap : BlinkTap τ) (c : Char) : BlinkTap τ :=
  let point := e.gridClamp tap.term (e.cursor tap.term)
  let tap := { tap with blink := tap.blink.note point }
  if e.markFits tap.term c then { tap with term := e.call tap.term (.input c) } else tap

def linefeed (tap : BlinkTap τ) : BlinkTap τ :=
  let before := (e.cursor tap.term).line
  let alt := e.altScreen tap.term
  let tap := { tap with term := e.call tap.term .linefeed }
  if alt = false ∧ (e.cursor tap.term).line = before then e.noteScroll tap 1 else tap

def scrollUp (tap : BlinkTap τ) (lines : UInt64) : BlinkTap τ :=
  let alt := e.altScreen tap.term
  let tap := { tap with term := e.call tap.term (.scrollUp lines) }
  if alt then tap else e.noteScroll tap lines

def terminalAttribute (tap : BlinkTap τ) (attr : Attr) : BlinkTap τ :=
  { tap with
    blink := tap.blink.setActive attr
    term := e.call tap.term (.terminalAttribute attr) }

/-- One call of the parser. -/
def handle (tap : BlinkTap τ) : Call ο → BlinkTap τ
  | .input c => e.input tap c
  | .linefeed => e.linefeed tap
  | .scrollUp lines => e.scrollUp tap lines
  | .terminalAttribute attr => e.terminalAttribute tap attr
  | .forwarded method => { tap with term := e.call tap.term (.forwarded method) }

/-- A call on the primary screen. -/
def step (tap : BlinkTap τ) (call : Call ο) : Option (BlinkTap τ) :=
  if e.altScreen tap.term then none else some (e.handle tap call)

/-- The cursor is on the last line of the scrolling region. -/
def AtBottom (t : τ) : Prop := (e.cursor t).line + 1 = (e.region t).2

instance (t : τ) : Decidable (e.AtBottom t) := inferInstanceAs (Decidable (_ = _))

/-- What the tap can rely on, on the primary screen. -/
structure Scrolls : Prop where
  /-- A wrap is a linefeed of its own. -/
  input : ∀ t c, e.altScreen t = false →
    e.intoHistory t (.input c) = if e.wraps t c then e.intoHistory t .linefeed else 0
  linefeed : ∀ t, e.altScreen t = false →
    e.intoHistory t .linefeed = if e.AtBottom t ∧ (e.region t).1 = 0 then 1 else 0
  cursor : ∀ t, e.altScreen t = false →
    (e.cursor (e.call t .linefeed)).line =
      if e.AtBottom t ∨ (e.cursor t).line + 1 = e.screenLines t then (e.cursor t).line
      else (e.cursor t).line + 1
  scrollUp : ∀ t lines, e.altScreen t = false →
    e.intoHistory t (.scrollUp lines) =
      if (e.region t).1 = 0 then min lines.toNat (e.region t).2 else 0
  terminalAttribute : ∀ t attr, e.altScreen t = false → e.intoHistory t (.terminalAttribute attr) = 0

/-- How many lines a call of the parser moves into the history. -/
def leaves (t : τ) : Call ο → Nat
  | .input c => if e.markFits t c then e.intoHistory t (.input c) else 0
  | call => e.intoHistory t call

/-- How many lines a run moves into the history. -/
def left : BlinkTap τ → List (Call ο) → Nat
  | _, [] => 0
  | tap, call :: calls => e.leaves tap.term call + left (e.handle tap call) calls

/-- The calls whose lines the tap counts right. -/
def Counted (tap : BlinkTap τ) : Call ο → Prop
  | .input c => e.markFits tap.term c = true → e.wraps tap.term c = true →
      ¬ (e.AtBottom tap.term ∧ (e.region tap.term).1 = 0)
  | .linefeed =>
      if e.AtBottom tap.term then (e.region tap.term).1 = 0
      else (e.cursor tap.term).line + 1 ≠ e.screenLines tap.term
  | .scrollUp lines =>
      lines = 0 ∨ (e.region tap.term).1 = 0 ∧ lines.toNat ≤ (e.region tap.term).2
  | .terminalAttribute _ => True
  | .forwarded method => e.intoHistory tap.term (.forwarded method) = 0

instance (tap : BlinkTap τ) : (call : Call ο) → Decidable (e.Counted tap call)
  | .input c => inferInstanceAs (Decidable (e.markFits tap.term c = true →
      e.wraps tap.term c = true → ¬ (e.AtBottom tap.term ∧ (e.region tap.term).1 = 0)))
  | .linefeed => inferInstanceAs (Decidable (if e.AtBottom tap.term then (e.region tap.term).1 = 0
      else (e.cursor tap.term).line + 1 ≠ e.screenLines tap.term))
  | .scrollUp _ => inferInstanceAs (Decidable (_ ∨ _ ∧ _))
  | .terminalAttribute _ => inferInstanceAs (Decidable True)
  | .forwarded _ => inferInstanceAs (Decidable (_ = 0))

/-- The lines the tap counts. -/
def noted (t : τ) : Call ο → UInt64
  | .linefeed => if (e.cursor (e.call t .linefeed)).line = (e.cursor t).line then 1 else 0
  | .scrollUp lines => lines
  | _ => 0

theorem saturatingAdd64_toNat (a b : UInt64) :
    (saturatingAdd64 a b).toNat = min (a.toNat + b.toNat) (2 ^ 64 - 1) :=
  UInt64.toNat_ofNat_of_lt' (Nat.lt_of_le_of_lt (Nat.min_le_right _ _) (by decide))

theorem saturatingAdd64_zero (a : UInt64) : saturatingAdd64 a 0 = a := by
  apply UInt64.toNat_inj.mp
  rw [saturatingAdd64_toNat]
  have := a.toNat_lt
  change min (a.toNat + 0) _ = _
  omega

theorem noteScroll_scrolled (tap : BlinkTap τ) (lines : UInt64) :
    (e.noteScroll tap lines).scrolled = saturatingAdd64 tap.scrolled lines := by
  unfold noteScroll
  split
  · next none_ => rw [none_, saturatingAdd64_zero]
  · rfl

theorem noteScroll_term (tap : BlinkTap τ) (lines : UInt64) :
    (e.noteScroll tap lines).term = tap.term := by
  unfold noteScroll
  split
  · rfl
  · rfl

theorem handle_scrolled {tap : BlinkTap τ} (primary : e.altScreen tap.term = false)
    (call : Call ο) :
    (e.handle tap call).scrolled = saturatingAdd64 tap.scrolled (e.noted tap.term call) := by
  cases call with
  | input c =>
      change (if e.markFits tap.term c then _ else _ : BlinkTap τ).scrolled = _
      rw [noted, saturatingAdd64_zero]
      · split
        · rfl
        · rfl
      · rintro ⟨⟩
      · rintro _ ⟨⟩
  | linefeed =>
      unfold handle linefeed noted
      by_cases stays : (e.cursor (e.call tap.term .linefeed)).line = (e.cursor tap.term).line
      · rw [if_pos ⟨primary, stays⟩, if_pos stays, noteScroll_scrolled]
      · rw [if_neg fun both => stays both.2, if_neg stays, saturatingAdd64_zero]
  | scrollUp lines =>
      change (if e.altScreen tap.term = true then _ else _ : BlinkTap τ).scrolled = _
      rw [if_neg (Bool.eq_false_iff.mp primary), noteScroll_scrolled]
      rfl
  | terminalAttribute attr => exact (saturatingAdd64_zero _).symm
  | forwarded method => exact (saturatingAdd64_zero _).symm

variable {e}

theorem noted_linefeed (known : e.Scrolls) {t : τ} (primary : e.altScreen t = false) :
    e.noted t .linefeed =
      if e.AtBottom t ∨ (e.cursor t).line + 1 = e.screenLines t then 1 else 0 := by
  rw [noted, known.cursor t primary]
  by_cases last : e.AtBottom t ∨ (e.cursor t).line + 1 = e.screenLines t
  · rw [if_pos last, if_pos rfl, if_pos last]
  · rw [if_neg last, if_neg (by omega), if_neg last]

theorem noted_iff (known : e.Scrolls) {tap : BlinkTap τ} (primary : e.altScreen tap.term = false)
    (call : Call ο) :
    (e.noted tap.term call).toNat = e.leaves tap.term call ↔ e.Counted tap call := by
  cases call with
  | input c =>
      change 0 = (if e.markFits tap.term c = true then _ else _) ↔ _
      rw [Counted, known.input _ _ primary, known.linefeed _ primary]
      cases e.markFits tap.term c with
      | false => exact ⟨fun _ fits => absurd fits Bool.false_ne_true, fun _ => rfl⟩
      | true =>
          cases e.wraps tap.term c with
          | false => exact ⟨fun _ _ wraps => absurd wraps Bool.false_ne_true, fun _ => rfl⟩
          | true =>
              constructor
              · intro none_ _ _ scrolls
                rw [if_pos rfl, if_pos rfl, if_pos scrolls] at none_
                cases none_
              · intro inner
                rw [if_pos rfl, if_pos rfl, if_neg (inner rfl rfl)]
  | linefeed =>
      change _ = e.intoHistory tap.term .linefeed ↔ _
      rw [noted_linefeed known primary, Counted, known.linefeed _ primary]
      by_cases bottom : e.AtBottom tap.term
      · rw [if_pos (Or.inl bottom), if_pos bottom]
        by_cases top : (e.region tap.term).1 = 0
        · rw [if_pos ⟨bottom, top⟩]
          exact ⟨fun _ => top, fun _ => rfl⟩
        · rw [if_neg fun both => top both.2]
          exact ⟨fun one => absurd one (by decide), fun zero => absurd zero top⟩
      · have inner : ¬ (e.AtBottom tap.term ∧ (e.region tap.term).1 = 0) := fun both => bottom both.1
        rw [if_neg inner, if_neg bottom]
        by_cases last : (e.cursor tap.term).line + 1 = e.screenLines tap.term
        · rw [if_pos (Or.inr last)]
          exact ⟨fun one => absurd one (by decide), fun no => absurd last no⟩
        · rw [if_neg (not_or.mpr ⟨bottom, last⟩)]
          exact ⟨fun _ => last, fun _ => rfl⟩
  | scrollUp lines =>
      change lines.toNat = e.intoHistory tap.term (.scrollUp lines) ↔ _
      rw [Counted, known.scrollUp _ _ primary, ← UInt64.toNat_inj]
      change _ ↔ lines.toNat = 0 ∨ _
      by_cases top : (e.region tap.term).1 = 0
      · rw [if_pos top]
        omega
      · rw [if_neg top]
        omega
  | terminalAttribute attr =>
      change 0 = e.intoHistory tap.term (.terminalAttribute attr) ↔ True
      rw [known.terminalAttribute _ _ primary]
      exact iff_true_intro rfl
  | forwarded method => exact eq_comm

/-- In a run of such calls the counter grows by the lines that left. -/
theorem scrollback_len_counts_what_left (known : e.Scrolls) {calls : List (Call ο)}
    {tap after : BlinkTap τ} (run : Transition.runFrom e.step tap calls = some after)
    (counted : Transition.Admits e.step e.Counted tap calls)
    (room : tap.scrolled.toNat + e.left tap calls < 2 ^ 64) :
    after.scrolled.toNat = tap.scrolled.toNat + e.left tap calls := by
  induction calls generalizing tap with
  | nil =>
      obtain rfl : tap = after := Option.some.inj run
      rfl
  | cons call calls ih =>
      obtain ⟨between, taken, rest⟩ := Option.bind_eq_some_iff.mp run
      have later := counted.2
      rw [taken] at later
      have primary : e.altScreen tap.term = false := by
        cases alt : e.altScreen tap.term with
        | false => rfl
        | true =>
            rw [step, alt] at taken
            cases taken
      rw [step, primary] at taken
      obtain rfl := Option.some.inj taken
      have one := (noted_iff known primary call).mpr counted.1
      have grown := e.handle_scrolled primary call
      rw [left] at room ⊢
      have now : (e.handle tap call).scrolled.toNat = tap.scrolled.toNat + e.leaves tap.term call := by
        rw [grown, saturatingAdd64_toNat, one]
        omega
      rw [ih rest later (by omega), now, Nat.add_assoc]

end Term

local instance neZero_two : NeZero 2 := ⟨by decide⟩

/-- An emulator of two lines of two columns. The region is the whole screen. -/
structure Page where
  line : Fin 2 := 0
  column : Fin 2 := 0
  needsWrap : Bool := false
  history : Nat := 0

namespace Page

def go (t : Page) (line : Int) (column : Nat) : Page :=
  { t with
    line := if line ≤ 0 then 0 else 1
    column := if column = 0 then 0 else 1
    needsWrap := false }

def move (t : Page) : Move → Page
  | .carriageReturn => t.go t.line.val 0
  | .goto line column => t.go line column
  | .gotoLine line => t.go line t.column.val
  | .gotoCol column => t.go t.line.val column
  | .moveUp lines => t.go (t.line.val - lines) t.column.val
  | .moveDown lines => t.go (t.line.val + lines) t.column.val
  | .moveForward columns => t.go t.line.val (t.column.val + columns)
  | .moveBackward columns => t.go t.line.val (t.column.val - columns)

def feed (t : Page) : Page :=
  if t.line = 1 then { t with history := t.history + 1 } else { t with line := 1 }

def wrap (t : Page) : Page := { t.feed with column := 0, needsWrap := false }

def write (t : Page) : Page :=
  if t.column = 1 then { t with needsWrap := true } else { t with column := 1 }

def call (t : Page) : Call Move → Page
  | .input _ => if t.needsWrap then t.wrap.write else t.write
  | .linefeed => t.feed
  | .scrollUp lines => { t with history := t.history + min lines.toNat 2 }
  | .terminalAttribute _ => t
  | .forwarded method => t.move method

def emulator : Term Page Move Unit where
  call := call
  cursor t := ⟨t.line.val, t.column.val⟩
  inputNeedsWrap := needsWrap
  altScreen _ := false
  topmostLine t := -t.history
  gridClamp t p := ⟨max (-t.history) (min p.line 1), min p.column 1⟩
  grid _ _ := ⟨' ', [], (), (), {}⟩
  width c := if isControlScalar c then none else some 1
  screenLines _ := 2
  columns _ := 2
  region _ := (0, 2)
  wraps t _ := t.needsWrap
  lands t _ := if t.needsWrap then ⟨1, 0⟩ else ⟨t.line.val, t.column.val⟩
  intoHistory t
    | .input _ => if t.needsWrap ∧ t.line = 1 then 1 else 0
    | .linefeed => if t.line = 1 then 1 else 0
    | .scrollUp lines => min lines.toNat 2
    | _ => 0

theorem atBottom_iff (t : Page) : emulator.AtBottom t ↔ t.line = 1 := by
  change (t.line.val : Int) + 1 = 2 ↔ _
  omega

theorem scrolls : emulator.Scrolls where
  input t c _ := by
    change (if t.needsWrap = true ∧ t.line = 1 then 1 else 0) =
      if t.needsWrap = true then if t.line = 1 then 1 else 0 else 0
    rw [ite_and]
  linefeed t _ := by
    change (if t.line = 1 then 1 else 0) = if emulator.AtBottom t ∧ 0 = 0 then 1 else 0
    simp only [atBottom_iff, and_true]
  cursor t _ := by
    change (t.feed.line.val : Int) = if emulator.AtBottom t ∨ (t.line.val : Int) + 1 = 2 then
      (t.line.val : Int) else t.line.val + 1
    rw [feed]
    simp only [atBottom_iff]
    by_cases last : t.line = 1
    · rw [if_pos last, if_pos (Or.inl last)]
    · rw [if_neg last, if_neg (by omega)]
      change (1 : Int) = _
      omega
  scrollUp _ _ _ := rfl
  terminalAttribute _ _ _ := rfl

end Page

namespace Term
open Page (emulator)

/-- The second of two linefeeds scrolls. -/
theorem scrollback_len_counts_a_linefeed :
    (emulator.handle (emulator.handle { term := {} } .linefeed) .linefeed).scrolled.toNat = 1 := by
  have run : Transition.runFrom emulator.step { term := {} } [.linefeed, .linefeed] =
      some (emulator.handle (emulator.handle { term := {} } .linefeed) .linefeed) := rfl
  exact scrollback_len_counts_what_left Page.scrolls run (by decide) (by decide)

/-- The third character scrolls the last line, unnoted. -/
theorem scrollback_len_misses_a_wrap :
    emulator.Scrolls ∧ (Transition.runFrom emulator.step { term := { line := 1 } }
        [.input 'a', .input 'b', .input 'c']).map (·.scrolled) = some 0 ∧
      emulator.left { term := { line := 1 } } [.input 'a', .input 'b', .input 'c'] = 1 :=
  ⟨Page.scrolls, by decide, by decide⟩

end Term
end Oxutrm.Host.Blink
