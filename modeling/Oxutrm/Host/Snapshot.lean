import Oxutrm.Host.Cells
import Oxutrm.Host.LinkIds

/-!
The state a host builds of its emulator. Whatever the emulator shows, every text is
fitted, the cursor is clamped, the links are interned and no copy is too long, so that
the client accepts the state.
-/
namespace Oxutrm.Host
open Proto

variable {κ : Type}

/-- A cell of the emulator with the link that covers it. -/
structure LinkedCell (κ : Type) extends VteCell κ where
  hyperlink : Option Hyperlink

/-- The modes of the emulator that a state carries. -/
structure TermMode where
  altScreen : Bool := false
  bracketedPaste : Bool := false
  mouseMotion : Bool := false
  mouseDrag : Bool := false
  mouseReportClick : Bool := false
  appCursor : Bool := false
  appKeypad : Bool := false
  showCursor : Bool := true
  deriving DecidableEq, Repr

inductive VteCursorShape where
  | block
  | underline
  | beam
  | hollowBlock
  | hidden
  deriving DecidableEq, Repr

/-- What is read of the emulator. Its grid has a size of its own. -/
structure Emulator (κ : Type) where
  lines : Nat
  columns : Nat
  grid : Nat → Nat → LinkedCell κ
  blinking : Nat → Nat → Bool
  cursorLine : Int
  cursorColumn : Nat
  mode : TermMode
  cursorShape : VteCursorShape

/-- Nothing outside the grid. -/
def Emulator.cellAt (term : Emulator κ) (line column : Nat) : Option (LinkedCell κ) :=
  if line < term.lines ∧ column < term.columns then some (term.grid line column) else none

def mouseMode (m : TermMode) : MouseMode :=
  if m.mouseMotion then .anyMotion
  else if m.mouseDrag then .buttonMotion
  else if m.mouseReportClick then .pressRelease
  else .off

def modesOf (m : TermMode) : Modes where
  altScreen := m.altScreen
  bracketedPaste := m.bracketedPaste
  mouse := mouseMode m
  appCursor := m.appCursor
  appKeypad := m.appKeypad

inductive ClipboardType where
  | clipboard
  | selection
  deriving DecidableEq, Repr

/-- The length of a copy that was refused. -/
def recordCopy (clipboard : Clipboard) (kind : ClipboardType) (text : Text) : Clipboard × Except Nat Unit :=
  if text.len > maxClipboard then (clipboard, .error text.len)
  else
    ({ serial := if clipboard.serial.toNat + 1 < 2 ^ 32 then clipboard.serial + 1 else clipboard.serial
       copy := some
        { target := match kind with
            | .clipboard => .clipboard
            | .selection => .selection
          text := text } },
      .ok ())

/-- The copies of a run, one folded in after the other. -/
def recordCopies (clipboard : Clipboard) (copies : List (ClipboardType × Text)) : Clipboard :=
  copies.foldl (fun c copy => (recordCopy c copy.1 copy.2).1) clipboard

def fitTitle (title : Text) : Text :=
  if checkTitle title = .ok () then title else fitLoop maxTitle [] title

structure StateMeta where
  seq : UInt64
  title : Text
  bell : UInt32
  scrollbackLen : UInt64
  clipboard : Clipboard

def points (size : TermSize) : List (Nat × Nat) :=
  (List.range size.rows.toNat).flatMap fun row => (List.range size.cols.toNat).map fun col => (row, col)

def cellOf (toProtoColor : κ → Color) (term : Emulator κ) (point : Nat × Nat) : Cell :=
  match term.cellAt point.1 point.2 with
  | some c => convertCell toProtoColor (term.blinking point.1 point.2) c.toVteCell
  | none => Cell.blank

/-- The right half of a wide glyph belongs to its left half's link. -/
def linkOf (term : Emulator κ) (found : List (Option Hyperlink)) (point : Nat × Nat) : Option Hyperlink :=
  match term.cellAt point.1 point.2 with
  | some c => if c.flags.wideCharSpacer ∧ point.2 > 0 then found.getLast?.join else c.hyperlink
  | none => none

def foundLinks (term : Emulator κ) (points : List (Nat × Nat)) : List (Option Hyperlink) :=
  points.foldl (fun found point => found ++ [linkOf term found point]) []

/-- The ids are laid over the cells. -/
def layLinks : List Cell → List UInt16 → List Cell
  | cell :: cells, id :: ids => { cell with link := id } :: layLinks cells ids
  | cells, [] => cells
  | [], _ => []

def saturatingSub (n : UInt16) : UInt16 := if n = 0 then 0 else n - 1

def clamp (value low high : Int) : Int := if value < low then low else if value > high then high else value

def cursorOf (term : Emulator κ) (size : TermSize) : Cursor where
  row := UInt16.ofNat (clamp term.cursorLine 0 (saturatingSub size.rows).toNat).toNat
  col := min (UInt16.ofNat term.cursorColumn) (saturatingSub size.cols)
  visible := term.mode.showCursor
  shape := match term.cursorShape with
    | .block | .hollowBlock => .block
    | .underline => .underline
    | .beam => .bar
    | .hidden => .block

def stateOf (term : Emulator κ) (size : TermSize) (meta_ : StateMeta) (cells : List Cell) (links : Links) :
    ScreenState where
  seq := meta_.seq
  rows := size.rows
  cols := size.cols
  cells := cells
  cursor := cursorOf term size
  modes := modesOf term.mode
  title := fitTitle meta_.title
  bell := meta_.bell
  scrollbackLen := meta_.scrollbackLen
  clipboard := meta_.clipboard
  links := links

/-- Nothing is a panic of `assign`. Without a table no cell has a link. -/
def screenStateOf (toProtoColor : κ → Color) (term : Emulator κ) (size : TermSize) (meta_ : StateMeta)
    (links : Option LinkTable) : Option (ScreenState × Option LinkTable) :=
  let cells := (points size).map (cellOf toProtoColor term)
  match links with
  | none => some (stateOf term size meta_ cells ∅, none)
  | some links => do
      let (ids, links) ← links.assign (foundLinks term (points size))
      some (stateOf term size meta_ (layLinks cells ids) links.table, some links)

theorem checkText_ok {text : Text} {field : TextField} :
    checkText text field = .ok () ↔ text.len ≤ field.maxBytes ∧ ∀ c ∈ text, isControlScalar c = false := by
  rw [checkText, checked_seq_ok, refuse_ok, gt_iff_lt, not_lt]
  refine and_congr_right fun _ => ?_
  cases found : text.find? isControlScalar with
  | none =>
      rw [List.find?_eq_none] at found
      exact ⟨fun _ c member => by simpa using found c member, fun _ => rfl⟩
  | some c =>
      refine ⟨fun ok => (by cases ok), fun plain => ?_⟩
      have control := List.find?_some found
      rw [plain c (List.mem_of_find?_eq_some found)] at control
      cases control

theorem len_append (front back : Text) : Text.len (front ++ back) = front.len + back.len := by
  simp [Text.len, Text.bytes]

theorem plain_snoc {text : Text} {c : Char} (plain : ∀ d ∈ text, isControlScalar d = false)
    (glyph : isControlScalar c = false) : ∀ d ∈ text ++ [c], isControlScalar d = false := by
  intro d member
  cases List.mem_append.mp member with
  | inl before => exact plain d before
  | inr last => rw [List.mem_singleton.mp last]; exact glyph

theorem fitLoop_fits {max : Nat} {out : Text} (short : out.len ≤ max)
    (plain : ∀ c ∈ out, isControlScalar c = false) (text : Text) :
    (fitLoop max out text).len ≤ max ∧ ∀ c ∈ fitLoop max out text, isControlScalar c = false := by
  induction text generalizing out with
  | nil => exact ⟨short, plain⟩
  | cons c text ih =>
      rw [fitLoop]
      split
      next => exact ih short plain
      next glyph =>
          split
          next => exact ⟨short, plain⟩
          next room =>
              refine ih ?_ (plain_snoc plain (by simpa using glyph))
              rw [len_append]
              exact Nat.le_of_not_lt room

theorem fitTitle_ok (title : Text) : checkTitle (fitTitle title) = .ok () := by
  unfold fitTitle
  split
  next fits => exact fits
  next =>
      have fits := @fitLoop_fits maxTitle [] (Nat.zero_le _) nofun title
      exact checkText_ok.mpr fits

theorem fitCellText_ok (text : Text) : checkCellText (fitCellText text) = .ok () := by
  unfold fitCellText
  split
  next fits => exact fits
  next =>
      have fits := @fitLoop_fits maxCellText [] (Nat.zero_le _) nofun text
      exact checkText_ok.mpr fits

theorem cellText_ok (cell : VteCell κ) : checkCellText cell.cellText = .ok () := by
  unfold VteCell.cellText
  split
  next => decide
  next => exact fitCellText_ok _

theorem cellOf_ok (toProtoColor : κ → Color) (term : Emulator κ) (point : Nat × Nat) :
    checkCellText (cellOf toProtoColor term point).text = .ok () := by
  unfold cellOf
  split
  next c _ => exact cellText_ok c.toVteCell
  next => decide

theorem recordCopy_ok {clipboard : Clipboard} (checked : checkClipboard clipboard = .ok ())
    (kind : ClipboardType) (text : Text) : checkClipboard (recordCopy clipboard kind text).1 = .ok () := by
  unfold recordCopy
  split
  next => exact checked
  next short =>
      rw [checkClipboard, checkSome_ok]
      intro c same
      cases same
      rw [refuse_ok]
      exact short

theorem recordCopies_ok {clipboard : Clipboard} (checked : checkClipboard clipboard = .ok ())
    (copies : List (ClipboardType × Text)) : checkClipboard (recordCopies clipboard copies) = .ok () := by
  induction copies generalizing clipboard with
  | nil => exact checked
  | cons copy copies ih => exact ih (recordCopy_ok checked copy.1 copy.2)

theorem checkLinkUri_any {id : UInt16} {uri : Text} (checked : checkLinkUri id uri = .ok ()) (other : UInt16) :
    checkLinkUri other uri = .ok () := by
  rw [checkLinkUri, checked_seq_ok, checked_seq_ok, refuse_ok, refuse_ok] at checked ⊢
  refine ⟨checked.1, checked.2.1, ?_⟩
  have bytes := checked.2.2
  split at bytes
  · cases bytes
  next => rfl

theorem LinkTable.Sound.checkLinks {t : LinkTable} (sound : t.Sound) : checkLinks t.table = .ok () := by
  rw [Proto.checkLinks, checked_seq_ok, refuse_ok, checkEach_ok]
  refine ⟨?_, ?_⟩
  · rw [LinkTable.table, Std.ExtTreeMap.size_map]
    exact Nat.not_lt.mpr sound.bounded
  · intro entry member
    have present := Std.ExtTreeMap.mem_toList_iff_getElem?_eq_some.mp member
    rw [LinkTable.table, Std.ExtTreeMap.getElem?_map, Option.map_eq_some_iff] at present
    obtain ⟨held, here, uri⟩ := present
    rw [checked_seq_ok, refuse_ok]
    refine ⟨sound.nonzero _ _ here, ?_⟩
    rw [← uri, sound.named _ _ here]
    exact checkLinkUri_any (sound.checked _ _ here) _

theorem length_points (size : TermSize) : (points size).length = size.rows.toNat * size.cols.toNat := by
  simp [points, List.length_flatMap]

theorem length_layLinks (cells : List Cell) (ids : List UInt16) : (layLinks cells ids).length = cells.length := by
  fun_induction layLinks cells ids with
  | case1 cell cells id ids ih => rw [List.length_cons, ih, List.length_cons]
  | case2 => rfl
  | case3 => rfl

/-- A cell keeps its text and has one of the ids, or the link it came with. -/
theorem mem_layLinks {cells : List Cell} {ids : List UInt16} {cell : Cell} (member : cell ∈ layLinks cells ids) :
    ∃ old ∈ cells, cell.text = old.text ∧ (cell.link ∈ ids ∨ cell.link = old.link) := by
  fun_induction layLinks cells ids with
  | case1 first cells id ids ih =>
      cases List.mem_cons.mp member with
      | inl here =>
          rw [here]
          exact ⟨first, List.mem_cons_self, rfl, .inl List.mem_cons_self⟩
      | inr later =>
          obtain ⟨old, there, text, link⟩ := ih later
          exact ⟨old, List.mem_cons_of_mem _ there, text, link.imp_left (List.mem_cons_of_mem _)⟩
  | case2 cells => exact ⟨cell, member, rfl, .inr rfl⟩
  | case3 => exact absurd member List.not_mem_nil

theorem saturatingSub_lt {n : UInt16} (positive : 0 < n.toNat) : (saturatingSub n).toNat + 1 = n.toNat := by
  have nonzero : n ≠ 0 := fun zero => absurd positive (by rw [zero]; decide)
  rw [saturatingSub, if_neg nonzero, UInt16.toNat_sub_of_le]
  · exact Nat.sub_add_cancel positive
  · exact UInt16.le_iff_toNat_le.mpr positive

theorem cursorOf_inside (term : Emulator κ) {size : TermSize} (rows : 0 < size.rows.toNat)
    (cols : 0 < size.cols.toNat) :
    (cursorOf term size).row < size.rows ∧ (cursorOf term size).col < size.cols := by
  have lastRow := saturatingSub_lt rows
  have lastCol := saturatingSub_lt cols
  refine ⟨?_, ?_⟩
  · have low : (clamp term.cursorLine 0 (saturatingSub size.rows).toNat).toNat ≤ (saturatingSub size.rows).toNat := by
      unfold clamp
      split
      · exact Nat.zero_le _
      · split <;> omega
    have small : size.rows.toNat < UInt16.size := size.rows.toNat_lt
    rw [UInt16.lt_iff_toNat_lt, cursorOf, UInt16.toNat_ofNat_of_lt' (Nat.lt_of_le_of_lt low (by omega))]
    omega
  · have below : (cursorOf term size).col ≤ saturatingSub size.cols := by
      exact Std.min_le_right
    rw [UInt16.lt_iff_toNat_lt]
    have := UInt16.le_iff_toNat_le.mp below
    omega

/-- Everything but the cells and the table is settled by how the state is built. -/
theorem stateOf_valid (term : Emulator κ) {size : TermSize} {meta_ : StateMeta} {cells : List Cell}
    {links : Links} (bounds : size.checkBounds = .ok ()) (seq : meta_.seq ≠ 0)
    (clipboard : checkClipboard meta_.clipboard = .ok ())
    (length : cells.length = size.rows.toNat * size.cols.toNat)
    (text : ∀ cell ∈ cells, checkCellText cell.text = .ok ()) (checked : checkLinks links = .ok ())
    (known : ∀ cell ∈ cells, cell.link = 0 ∨ links.contains cell.link) :
    (stateOf term size meta_ cells links).validate = .ok () := by
  refine (ScreenState.validate_ok _).mpr
    ⟨bounds, length, seq, ?_, text, fitTitle_ok meta_.title, clipboard, checked, known⟩
  by_cases empty : size.rows.toNat * size.cols.toNat = 0
  · exact .inl empty
  · have positive := Nat.pos_of_ne_zero empty
    exact .inr (cursorOf_inside term (Nat.pos_of_mul_pos_right positive) (Nat.pos_of_mul_pos_left positive))

section
variable (toProtoColor : κ → Color) (term : Emulator κ) {size : TermSize} {meta_ : StateMeta}

theorem cellOf_link (point : Nat × Nat) : (cellOf toProtoColor term point).link = 0 := by
  unfold cellOf
  split <;> rfl

theorem picture_valid (bounds : size.checkBounds = .ok ()) (seq : meta_.seq ≠ 0)
    (clipboard : checkClipboard meta_.clipboard = .ok ()) :
    ∃ s, screenStateOf toProtoColor term size meta_ none = some (s, none) ∧ s.validate = .ok () := by
  refine ⟨_, rfl, stateOf_valid term bounds seq clipboard ?_ ?_ ?_ ?_⟩
  · rw [List.length_map, length_points]
  · intro cell member
    obtain ⟨point, -, same⟩ := List.mem_map.mp member
    rw [← same]
    exact cellOf_ok toProtoColor term point
  · exact LinkTable.sound_empty.checkLinks
  · intro cell member
    obtain ⟨point, -, same⟩ := List.mem_map.mp member
    rw [← same]
    exact .inl (cellOf_link toProtoColor term point)

theorem snapshot_valid {links : LinkTable} (sound : links.Sound) (bounds : size.checkBounds = .ok ())
    (seq : meta_.seq ≠ 0) (clipboard : checkClipboard meta_.clipboard = .ok ()) :
    ∃ s after, screenStateOf toProtoColor term size meta_ (some links) = some (s, some after) ∧
      s.validate = .ok () := by
  obtain ⟨idOf, after, call, assigned⟩ := LinkTable.assign_assigned sound (foundLinks term (points size))
  let cells := layLinks ((points size).map (cellOf toProtoColor term))
    ((foundLinks term (points size)).map (LinkTable.answer idOf))
  refine ⟨stateOf term size meta_ cells after.table, after, ?_,
    stateOf_valid term bounds seq clipboard ?_ ?_ assigned.sound.checkLinks ?_⟩
  · simp only [screenStateOf, call, Option.bind_eq_bind, Option.bind_some, cells]
  · rw [length_layLinks, List.length_map, length_points]
  · intro cell member
    obtain ⟨old, there, text, -⟩ := mem_layLinks member
    obtain ⟨point, -, same⟩ := List.mem_map.mp there
    rw [text, ← same]
    exact cellOf_ok toProtoColor term point
  · intro cell member
    obtain ⟨old, there, -, link⟩ := mem_layLinks member
    obtain ⟨point, -, same⟩ := List.mem_map.mp there
    by_cases zero : cell.link = 0
    · exact .inl zero
    · refine .inr (Std.ExtTreeMap.contains_iff_mem.mpr ((assigned.table_keys cell.link).mpr ⟨?_, zero⟩))
      refine link.resolve_right fun own => zero ?_
      rw [own, ← same, cellOf_link]

end

/-- Whatever came before, with links or without. -/
theorem honest_state_is_accepted (toProtoColor : κ → Color) (term : Emulator κ) (size : TermSize)
    (seq : UInt64) (title : Text) (bell : UInt32) (scrollbackLen : UInt64)
    (copies : List (ClipboardType × Text)) (calls : List (List (Option Hyperlink)))
    (bounds : size.checkBounds = .ok ()) (numbered : seq ≠ 0) :
    (∃ s, screenStateOf toProtoColor term size
        ⟨seq, title, bell, scrollbackLen, recordCopies {} copies⟩ none = some (s, none) ∧
      s.validate = .ok ()) ∧
    ∃ links s after, LinkTable.empty.assignAll calls = some links ∧
      screenStateOf toProtoColor term size
        ⟨seq, title, bell, scrollbackLen, recordCopies {} copies⟩ (some links) = some (s, some after) ∧
      s.validate = .ok () := by
  have clipboard : checkClipboard (recordCopies {} copies) = .ok () := recordCopies_ok rfl copies
  refine ⟨picture_valid toProtoColor term bounds numbered clipboard, ?_⟩
  obtain ⟨links, run, sound⟩ := LinkTable.assignAll_sound LinkTable.sound_empty calls
  obtain ⟨s, after, built, valid⟩ := @snapshot_valid _ toProtoColor term size
    ⟨seq, title, bell, scrollbackLen, recordCopies {} copies⟩ links sound bounds numbered clipboard
  exact ⟨links, s, after, run, built, valid⟩

/-- An emulator of one cell, with a tab and a thousand marks on it and a link that no
client takes, on a host that has already grown to three columns. -/
def strangeEmulator : Emulator Unit where
  lines := 1
  columns := 1
  grid := fun _ _ =>
    { c := '\t', zerowidth := List.replicate 1000 (Char.ofNat 0x301), fg := (), bg := (), flags := {},
      hyperlink := some ⟨[], [Char.ofNat 0x1b]⟩ }
  blinking := fun _ _ => true
  cursorLine := -4
  cursorColumn := 70000
  mode := {}
  cursorShape := .beam

theorem honest_state_is_accepted_strange :
    TermSize.checkBounds ⟨3, 1⟩ = .ok () ∧ (7 : UInt64) ≠ 0 ∧
    (∃ s, screenStateOf (fun _ => .default) strangeEmulator ⟨3, 1⟩
        ⟨7, [Char.ofNat 7], 0, 0, recordCopies {} [(.selection, ['x'])]⟩ none = some (s, none) ∧
      s.validate = .ok ()) ∧
    ∃ links s after, LinkTable.empty.assignAll [[none, some ⟨[], ['u']⟩]] = some links ∧
      screenStateOf (fun _ => .default) strangeEmulator ⟨3, 1⟩
        ⟨7, [Char.ofNat 7], 0, 0, recordCopies {} [(.selection, ['x'])]⟩ (some links) = some (s, some after) ∧
      s.validate = .ok () :=
  ⟨by decide, by decide, honest_state_is_accepted (fun _ => .default) strangeEmulator ⟨3, 1⟩ 7
    [Char.ofNat 7] 0 0 [(.selection, ['x'])] [[none, some ⟨[], ['u']⟩]] (by decide) (by decide)⟩

end Oxutrm.Host
