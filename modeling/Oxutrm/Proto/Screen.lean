import Oxutrm.Proto.Types

/-!
The replicated screen and the rules it must obey. `validate` is what one state
can show on its own (I1, I2, I3, I7, I8, I10); `validateTransition` adds what
only two states can show (I5, I6, I9).
-/
namespace Oxutrm.Proto

structure ScreenState where
  seq : UInt64
  rows : UInt16
  cols : UInt16
  cells : List Cell
  cursor : Cursor
  modes : Modes
  title : Text
  bell : UInt32
  scrollbackLen : UInt64
  clipboard : Clipboard
  links : Links

namespace ScreenState

def size (s : ScreenState) : TermSize := { cols := s.cols, rows := s.rows }

def expected (s : ScreenState) : Nat := s.rows.toNat * s.cols.toNat

/-- One whole row, left to right. -/
def row (s : ScreenState) (r : Nat) : List Cell :=
  (s.cells.drop (r * s.cols.toNat)).take s.cols.toNat

def validate (s : ScreenState) : Checked := do
  s.size.checkBounds
  refuse (s.cells.length ≠ s.expected) (.lengthMismatch s.cells.length s.rows s.cols)
  refuse (s.seq = 0) .seqZero
  refuse (s.expected ≠ 0 ∧ (s.cursor.row ≥ s.rows ∨ s.cursor.col ≥ s.cols))
    (.cursorOutOfBounds s.cursor.row s.cursor.col s.rows s.cols)
  checkEach (fun cell => checkCellText cell.text) s.cells
  checkTitle s.title
  checkClipboard s.clipboard
  checkLinks s.links
  checkEach (fun cell => refuse (cell.link ≠ 0 ∧ ¬ s.links.contains cell.link)
    (.unknownLink cell.link)) s.cells

def validateTransition (s previous : ScreenState) : Checked := do
  s.validate
  refuse (s.bell < previous.bell) (.bellWentBackwards previous.bell s.bell)
  refuse (s.scrollbackLen < previous.scrollbackLen)
    (.scrollbackShrank previous.scrollbackLen s.scrollbackLen)
  refuse (s.clipboard.serial < previous.clipboard.serial)
    (.clipboardWentBackwards previous.clipboard.serial s.clipboard.serial)

def blankState (rows cols : UInt16) : ScreenState where
  seq := 1
  rows := rows
  cols := cols
  cells := List.replicate (rows.toNat * cols.toNat) Cell.blank
  cursor := { row := 0, col := 0, visible := true, shape := .block }
  modes := {}
  title := []
  bell := 0
  scrollbackLen := 0
  clipboard := {}
  links := ∅

def blank (rows cols : UInt16) : Except ApplyError ScreenState := do
  TermSize.checkBounds { rows := rows, cols := cols }
  (blankState rows cols).validate
  pure (blankState rows cols)

/-- The three counters that never go back between two states of one link. -/
def CountersLe (before after : ScreenState) : Prop :=
  before.bell ≤ after.bell ∧ before.scrollbackLen ≤ after.scrollbackLen ∧
    before.clipboard.serial ≤ after.clipboard.serial

theorem CountersLe.trans {a b c : ScreenState} (h : CountersLe a b) (k : CountersLe b c) :
    CountersLe a c :=
  ⟨UInt32.le_trans h.1 k.1, UInt64.le_trans h.2.1 k.2.1, UInt32.le_trans h.2.2 k.2.2⟩

theorem validateTransition_ok (s previous : ScreenState) :
    s.validateTransition previous = .ok () ↔
      s.validate = .ok () ∧ CountersLe previous s := by
  simp only [validateTransition, checked_seq_ok, refuse_ok, UInt32.not_lt, UInt64.not_lt,
    CountersLe]

/-- What an accepted state is known to satisfy, check by check. -/
structure Valid (s : ScreenState) : Prop where
  bounds : s.size.checkBounds = .ok ()
  length : s.cells.length = s.expected
  seq : s.seq ≠ 0
  cursor : s.expected = 0 ∨ (s.cursor.row < s.rows ∧ s.cursor.col < s.cols)
  text : ∀ cell ∈ s.cells, checkCellText cell.text = .ok ()
  title : checkTitle s.title = .ok ()
  clipboard : checkClipboard s.clipboard = .ok ()
  links : checkLinks s.links = .ok ()
  known : ∀ cell ∈ s.cells, cell.link = 0 ∨ s.links.contains cell.link

theorem validate_ok (s : ScreenState) : s.validate = .ok () ↔ s.Valid := by
  simp only [validate, checked_seq_ok, refuse_ok, checkEach_ok, not_not]
  constructor
  · rintro ⟨bounds, length, seq, cursor, text, title, clipboard, links, known⟩
    refine ⟨bounds, length, seq, ?_, text, title, clipboard, links, ?_⟩
    · by_cases empty : s.expected = 0
      · exact Or.inl empty
      · simp only [empty, ne_eq, not_false_eq_true, true_and, not_or, ge_iff_le,
          UInt16.not_le] at cursor
        exact Or.inr cursor
    · intro cell member
      have := known cell member
      by_cases zero : cell.link = 0
      · exact Or.inl zero
      · simp only [zero, ne_eq, not_false_eq_true, true_and, not_not] at this
        exact Or.inr this
  · intro valid
    refine ⟨valid.bounds, valid.length, valid.seq, ?_, valid.text, valid.title,
      valid.clipboard, valid.links, ?_⟩
    · rintro ⟨nonempty, outside⟩
      rcases valid.cursor with empty | ⟨row, col⟩
      · exact nonempty empty
      · rcases outside with high | high
        · exact absurd row (UInt16.not_lt.mpr high)
        · exact absurd col (UInt16.not_lt.mpr high)
    · rintro cell member ⟨nonzero, missing⟩
      rcases valid.known cell member with zero | present
      · exact nonzero zero
      · exact missing present

theorem blankState_valid {rows cols : UInt16}
    (bounds : TermSize.checkBounds { rows := rows, cols := cols } = .ok ()) :
    (blankState rows cols).Valid := by
  have cells : ∀ cell ∈ (blankState rows cols).cells, cell = Cell.blank :=
    fun cell member => List.eq_of_mem_replicate member
  have seq : (1 : UInt64) ≠ 0 := by decide
  have title : checkTitle [] = .ok () := by decide
  refine ⟨bounds, List.length_replicate, seq, ?_, ?_, title, rfl, ?_, ?_⟩
  · by_cases empty : rows.toNat * cols.toNat = 0
    · exact Or.inl empty
    · have positive := Nat.pos_of_ne_zero empty
      exact Or.inr ⟨UInt16.lt_iff_toNat_lt.mpr (Nat.pos_of_mul_pos_right positive),
        UInt16.lt_iff_toNat_lt.mpr (Nat.pos_of_mul_pos_left positive)⟩
  · intro cell member
    rw [cells cell member]
    decide
  · have size : (blankState rows cols).links.size = 0 := Std.ExtTreeMap.size_empty
    have entries : (blankState rows cols).links.toList = [] :=
      Std.ExtTreeMap.toList_eq_nil_iff.mpr rfl
    simp [checkLinks, size, entries, maxLinks]
  · intro cell member
    rw [cells cell member]
    exact Or.inl rfl

theorem blank_ok {rows cols : UInt16}
    (bounds : TermSize.checkBounds { rows := rows, cols := cols } = .ok ()) :
    blank rows cols = .ok (blankState rows cols) := by
  have valid := (validate_ok _).mpr (blankState_valid bounds)
  simp [blank, bounds, valid, bind, Except.bind, pure, Except.pure]

theorem blank_error {rows cols : UInt16}
    (bounds : TermSize.checkBounds { rows := rows, cols := cols } ≠ .ok ()) :
    blank rows cols = .error (.screenTooLarge rows cols) := by
  have outside : TermSize.checkBounds { rows := rows, cols := cols } =
      .error (.screenTooLarge rows cols) := by
    simp only [TermSize.checkBounds, ne_eq, refuse_ok, not_not] at bounds
    simp only [TermSize.checkBounds, refuse, bounds, if_true]
  simp [blank, outside, bind, Except.bind]

end ScreenState
end Oxutrm.Proto
