import Oxutrm.Paint.Rows

/-!
What a selection makes of the pen, and that only a cell in the default colours and without
attribute is painted in the default pen.
-/
namespace Oxutrm.Vt.Pen

theorem select_alone (p : Pen) {n : Nat} (fg : n ≠ 38) (bg : n ≠ 48) (rest : List Nat) :
    p.select (n :: rest) = (p.plain n).select rest := by
  rw [select.eq_def]
  split
  · next same => cases same
  · next same => exact absurd (List.cons.inj same).1 fg
  · next same => exact absurd (List.cons.inj same).1 fg
  · next same => exact absurd (List.cons.inj same).1 bg
  · next same => exact absurd (List.cons.inj same).1 bg
  · next same =>
      obtain ⟨rfl, rfl⟩ := List.cons.inj same
      rfl

theorem select_flag (p : Pen) (on : Bool) {n : Nat} (small : n < 38) (rest : List Nat) :
    p.select ((if on then [n] else []) ++ rest) = (if on then p.plain n else p).select rest := by
  cases on with
  | true => exact select_alone p (by omega) (by omega) rest
  | false => rfl

theorem plain_flag (p : Pen) (on : Bool) :
    (if on then p.plain 1 else p) = { p with bold := on || p.bold } ∧
      (if on then p.plain 2 else p) = { p with dim := on || p.dim } ∧
      (if on then p.plain 3 else p) = { p with italic := on || p.italic } ∧
      (if on then p.plain 4 else p) = { p with underline := on || p.underline } ∧
      (if on then p.plain 5 else p) = { p with blink := on || p.blink } ∧
      (if on then p.plain 7 else p) = { p with inverse := on || p.inverse } ∧
      (if on then p.plain 8 else p) = { p with hidden := on || p.hidden } ∧
      (if on then p.plain 9 else p) = { p with strike := on || p.strike } := by
  cases on with
  | true => exact ⟨rfl, rfl, rfl, rfl, rfl, rfl, rfl, rfl⟩
  | false => exact ⟨rfl, rfl, rfl, rfl, rfl, rfl, rfl, rfl⟩

theorem select_flags (bold dim italic underline blink inverse hidden strike : Bool) (rest : List Nat) :
    Pen.select {} (0 :: ((if bold then [1] else []) ++ ((if dim then [2] else []) ++
        ((if italic then [3] else []) ++ ((if underline then [4] else []) ++ ((if blink then [5] else []) ++
          ((if inverse then [7] else []) ++ ((if hidden then [8] else []) ++
            ((if strike then [9] else []) ++ rest))))))))) =
      Pen.select { bold, dim, italic, underline, blink, inverse, hidden, strike } rest := by
  rw [select_alone {} (by decide) (by decide)]
  rw [select_flag _ _ (by decide), (plain_flag _ _).1, select_flag _ _ (by decide), (plain_flag _ _).2.1,
    select_flag _ _ (by decide), (plain_flag _ _).2.2.1, select_flag _ _ (by decide), (plain_flag _ _).2.2.2.1,
    select_flag _ _ (by decide), (plain_flag _ _).2.2.2.2.1,
    select_flag _ _ (by decide), (plain_flag _ _).2.2.2.2.2.1,
    select_flag _ _ (by decide), (plain_flag _ _).2.2.2.2.2.2.1,
    select_flag _ _ (by decide), (plain_flag _ _).2.2.2.2.2.2.2]
  simp only [plain, if_true, Bool.or_false]

end Oxutrm.Vt.Pen

namespace Oxutrm.Paint
open Proto

/-- The attributes a cell can be painted with. -/
def styles : List Attrs :=
  [Attrs.bold, Attrs.dim, Attrs.italic, Attrs.underline, Attrs.blink, Attrs.inverse, Attrs.hidden,
    Attrs.strike]

/-- In the default colours and without attribute. -/
def unstyled (cell : Cell) : Bool :=
  decide (cell.fg = .default) && decide (cell.bg = .default) && styles.all fun f => !contains cell.attrs f

/-- The colour that a selection stands for. -/
def inkOf (colors : UInt32) : Color → Vt.Color
  | .default => .default
  | .idx i => if 8 ≤ i ∧ i < 16 ∧ colors < 16 then .idx (i.toNat - 8) else .idx i.toNat
  | .rgb r g b => .rgb r.toNat g.toNat b.toNat

theorem inkOf_eq_default {colors : UInt32} {c : Color} : inkOf colors c = .default ↔ c = .default := by
  cases c with
  | default => exact iff_of_true rfl rfl
  | idx i =>
      refine iff_of_false (fun same => ?_) (fun same => by cases same)
      rw [inkOf] at same
      split at same
      · cases same
      · cases same
  | rgb r g b => exact iff_of_false (fun same => by cases same) (fun same => by cases same)

theorem downConvert_eq_default {c : Color} {caps : TerminalCaps} :
    downConvert c caps = .default ↔ c = .default := by
  cases c with
  | default => simp only [downConvert, ite_self]
  | rgb r g b =>
      simp only [downConvert]
      split_ifs <;> simp
  | idx i =>
      simp only [downConvert]
      split_ifs <;> simp

theorem plain_low (p : Vt.Pen) {n : Nat} (low : n < 8) :
    p.plain (30 + n) = { p with fg := .idx n } ∧ p.plain (40 + n) = { p with bg := .idx n } := by
  constructor
  · rw [Vt.Pen.plain]
    iterate 9 rw [if_neg (by omega)]
    rw [if_pos (by omega), Nat.add_sub_cancel_left]
  · rw [Vt.Pen.plain]
    iterate 11 rw [if_neg (by omega)]
    rw [if_pos (by omega), Nat.add_sub_cancel_left]

theorem plain_bright (p : Vt.Pen) {n : Nat} (low : n < 8) :
    p.plain (90 + n) = { p with fg := .idx (n + 8) } ∧ p.plain (100 + n) = { p with bg := .idx (n + 8) } := by
  constructor
  · rw [Vt.Pen.plain]
    iterate 13 rw [if_neg (by omega)]
    rw [if_pos (by omega), Nat.add_sub_cancel_left]
  · rw [Vt.Pen.plain]
    iterate 14 rw [if_neg (by omega)]
    rw [if_pos (by omega), Nat.add_sub_cancel_left]

theorem select_color (p : Vt.Pen) (c : Color) (colors : UInt32) (rest : List Nat) :
    (p.fg = .default → p.select (pushColor c true colors ++ rest) =
        Vt.Pen.select { p with fg := inkOf colors c } rest) ∧
      (p.bg = .default → p.select (pushColor c false colors ++ rest) =
        Vt.Pen.select { p with bg := inkOf colors c } rest) := by
  cases c with
  | default =>
      refine ⟨fun same => ?_, fun same => ?_⟩
      · rw [inkOf, ← same]
        rfl
      · rw [inkOf, ← same]
        rfl
  | rgb r g b => exact ⟨fun _ => rfl, fun _ => rfl⟩
  | idx i =>
      have eight : (8 : UInt8).toNat = 8 := rfl
      have sixteen : (16 : UInt8).toNat = 16 := rfl
      have alone : ∀ {n q}, p.plain n = q → n ≠ 38 ∧ n ≠ 48 → p.select ([n] ++ rest) = q.select rest :=
        fun made other => made ▸ Vt.Pen.select_alone p other.1 other.2 rest
      simp only [inkOf, pushColor, UInt8.lt_iff_toNat_lt, UInt8.le_iff_toNat_le, eight, sixteen, if_true,
        Bool.false_eq_true, if_false]
      by_cases low : i.toNat < 8
      · obtain ⟨fg, bg⟩ := plain_low p low
        simp only [if_pos low, show ¬ 8 ≤ i.toNat by omega, false_and, if_false]
        exact ⟨fun _ => alone fg (by omega), fun _ => alone bg (by omega)⟩
      · simp only [if_neg low]
        by_cases bright : i.toNat < 16
        · obtain ⟨fg, bg⟩ := plain_low p (show i.toNat - 8 < 8 by omega)
          obtain ⟨fg', bg'⟩ := plain_bright p (show i.toNat - 8 < 8 by omega)
          rw [Nat.sub_add_cancel (by omega)] at fg' bg'
          simp only [bright, show 8 ≤ i.toNat by omega, true_and, if_true]
          by_cases few : colors < 16
          · simp only [if_pos few]
            exact ⟨fun _ => alone fg (by omega), fun _ => alone bg (by omega)⟩
          · simp only [if_neg few]
            exact ⟨fun _ => alone fg' (by omega), fun _ => alone bg' (by omega)⟩
        · simp only [bright, false_and, and_false, if_false]
          exact ⟨fun _ => rfl, fun _ => rfl⟩

theorem select_background {p : Vt.Pen} {c : Color} {colors : UInt32} (plain : p.bg = .default) :
    p.select (pushColor c false colors) = { p with bg := inkOf colors c } := by
  have pushed := (select_color p c colors []).2 plain
  rwa [List.append_nil] at pushed

/-- Bold also stands for brightness where the terminal has few colours. -/
def boldened (caps : TerminalCaps) (cell : Cell) : Bool :=
  contains cell.attrs Attrs.bold ||
    (decide (caps.colors < 16) &&
      match downConvert cell.fg caps with
      | .idx i => decide (8 ≤ i ∧ i < 16)
      | .default | .rgb _ _ _ => false)

theorem penOf_eq (r : Renderer) (cell : Cell) : r.penOf cell =
    { bold := boldened r.caps cell
      dim := contains cell.attrs Attrs.dim
      italic := contains cell.attrs Attrs.italic
      underline := contains cell.attrs Attrs.underline
      blink := contains cell.attrs Attrs.blink
      inverse := contains cell.attrs Attrs.inverse
      hidden := contains cell.attrs Attrs.hidden
      strike := contains cell.attrs Attrs.strike
      fg := inkOf r.caps.colors (downConvert cell.fg r.caps)
      bg := inkOf r.caps.colors (downConvert cell.bg r.caps) } := by
  rw [Renderer.penOf, sgrFor]
  simp only [List.append_assoc]
  rw [Vt.Pen.select_flags, (select_color _ _ _ _).1 rfl, select_background rfl]
  rfl

theorem penOf_eq_default (r : Renderer) (cell : Cell) : r.penOf cell = {} ↔ unstyled cell = true := by
  rw [penOf_eq]
  have bold : cell.fg = .default → (boldened r.caps cell = false ↔ contains cell.attrs Attrs.bold = false) := by
    intro plain
    rw [boldened, downConvert_eq_default.mpr plain, Bool.and_false, Bool.or_false]
  simp only [Vt.Pen.mk.injEq, inkOf_eq_default, downConvert_eq_default, unstyled, styles, List.all_cons,
    List.all_nil, Bool.and_true, Bool.and_eq_true, decide_eq_true_eq, Bool.not_eq_true']
  constructor
  · rintro ⟨bright, dim, italic, underline, blink, inverse, hidden, strike, fg, bg⟩
    exact ⟨⟨fg, bg⟩, (bold fg).mp bright, dim, italic, underline, blink, inverse, hidden, strike⟩
  · rintro ⟨⟨fg, bg⟩, plain, dim, italic, underline, blink, inverse, hidden, strike⟩
    exact ⟨(bold fg).mpr plain, dim, italic, underline, blink, inverse, hidden, strike, fg, bg⟩

/-- In no style, and without a hyperlink that is painted. -/
def Renderer.unmarked (r : Renderer) (links : Links) (cell : Cell) : Bool :=
  unstyled cell && !(r.linksOn && (paintable links cell.link).isSome)

theorem unmarked_iff (r : Renderer) (links : Links) (cell : Cell) :
    r.unmarked links cell = true ↔ r.penOf cell = {} ∧ r.linkAt links cell.link = none := by
  rw [Renderer.unmarked, Bool.and_eq_true, penOf_eq_default, Renderer.linkAt]
  refine and_congr_right fun _ => ?_
  cases r.linksOn with
  | false => exact iff_of_true rfl rfl
  | true =>
      cases paintable links cell.link with
      | none => exact iff_of_true rfl rfl
      | some uri => exact iff_of_false (fun no => by cases no) (fun no => by cases no)

end Oxutrm.Paint
