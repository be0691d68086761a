import Oxutrm.Vt.Rows

/-!
Two terminals that were cleared with different pens and then told the same: they agree
wherever something has been written since, and elsewhere one is tinted.
-/
namespace Oxutrm.Vt

def Spot.tinted (bg : Color) (s : Spot) : Spot := { s with pen := { bg := bg } }

namespace Row

/-- Equal in the columns of `done`, and otherwise blank but for the background. -/
structure Twin (bg : Color) (done : Nat → Prop) (a b : Row) : Prop where
  inked : ∀ c, done c → a c = b c
  bare : ∀ c, ¬ done c → (b c).pen = {} ∧ a c = (b c).tinted bg

namespace Twin
variable {bg : Color} {done more : Nat → Prop} {a b : Row}

theorem glyph (twin : Twin bg done a b) (c : Nat) : (a c).glyph = (b c).glyph := by
  by_cases inked : done c
  · rw [twin.inked c inked]
  · rw [(twin.bare c inked).2]
    rfl

theorem congr (twin : Twin bg done a b) (same : ∀ c, more c ↔ done c) : Twin bg more a b :=
  ⟨fun c inked => twin.inked c ((same c).mp inked),
    fun c bare => twin.bare c fun inked => bare ((same c).mpr inked)⟩

/-- The same glyph is put in the same column, whatever its looks. -/
theorem reglyph (twin : Twin bg done a b) (k : Nat) (g : Glyph) :
    Twin bg done (Function.update a k { a k with glyph := g })
      (Function.update b k { b k with glyph := g }) := by
  refine ⟨fun c inked => ?_, fun c bare => ?_⟩
  · by_cases here : c = k
    · subst here
      rw [Function.update_self, Function.update_self, twin.inked c inked]
    · rw [Function.update_of_ne here, Function.update_of_ne here]
      exact twin.inked c inked
  · by_cases here : c = k
    · subst here
      rw [Function.update_self, Function.update_self]
      exact ⟨(twin.bare c bare).1, by rw [(twin.bare c bare).2]; rfl⟩
    · rw [Function.update_of_ne here, Function.update_of_ne here]
      exact twin.bare c bare

theorem write (twin : Twin bg done a b) (k : Nat) (s : Spot) :
    Twin bg (fun c => done c ∨ c = k) (Function.update a k s) (Function.update b k s) := by
  refine ⟨fun c inked => ?_, fun c bare => ?_⟩
  · by_cases here : c = k
    · subst here
      rw [Function.update_self, Function.update_self]
    · rw [Function.update_of_ne here, Function.update_of_ne here]
      exact twin.inked c (inked.resolve_right here)
  · rw [not_or] at bare
    rw [Function.update_of_ne bare.2, Function.update_of_ne bare.2]
    exact twin.bare c bare.1

theorem part (twin : Twin bg done a b) (k : Nat) : Twin bg done (a.part k) (b.part k) := by
  have same := twin.glyph k
  cases standing : (b k).glyph with
  | narrow _ =>
      rw [standing] at same
      simp only [Row.part, same, standing]
      exact twin
  | lead _ =>
      rw [standing] at same
      simp only [Row.part, same, standing]
      exact twin.reglyph (k + 1) _
  | trail =>
      rw [standing] at same
      simp only [Row.part, same, standing]
      exact twin.reglyph (k - 1) _

theorem join (twin : Twin bg done a b) (col : Nat) (text : Text) :
    Twin bg done (a.join col text) (b.join col text) := by
  cases col with
  | zero => exact twin
  | succ k =>
      have same := twin.glyph k
      cases standing : (b k).glyph with
      | narrow _ =>
          rw [standing] at same
          simp only [Row.join, same, standing]
          exact twin.reglyph k _
      | lead _ =>
          rw [standing] at same
          simp only [Row.join, same, standing]
          exact twin.reglyph k _
      | trail =>
          rw [standing] at same
          have before := twin.glyph (k - 1)
          simp only [Row.join, same, standing, before]
          split
          · exact twin.reglyph (k - 1) _
          · exact twin
          · exact twin

theorem put (twin : Twin bg done a b) (col : Nat) (text : Text) (pen : Pen) (link : Option Link)
    {w : Nat} (fits : w ≤ 2) :
    Twin bg (fun c => done c ∨ (col ≤ c ∧ c < col + w)) (a.put col text pen link w)
      (b.put col text pen link w) := by
  match w, fits with
  | 0, _ => exact (twin.join col text).congr fun c => or_iff_left (by omega)
  | 1, _ => exact ((twin.part col).write col _).congr fun c => or_congr_right (by omega)
  | 2, _ =>
      refine ((((twin.part col).part (col + 1)).write col _).write (col + 1) _).congr fun c => ?_
      rw [or_assoc]
      exact or_congr_right (by omega)

end Twin
end Row

/-- The two terminals, with the cursor in the same place. -/
structure Terminal.Twins (bg : Color) (done : Nat → Nat → Prop) (t u : Terminal) : Prop where
  row : t.row = u.row
  col : t.col = u.col
  cells : ∀ i, (t.cells i).Twin bg (done i) (u.cells i)

namespace Terminal.Twins
variable {bg : Color} {done more : Nat → Nat → Prop} {t u : Terminal}

theorem congr (twins : Twins bg done t u) (same : ∀ i c, more i c ↔ done i c) :
    Twins bg more t u :=
  ⟨twins.row, twins.col, fun i => (twins.cells i).congr (same i)⟩

/-- Both print a text, in the same looks. -/
theorem print (twins : Twins bg done t u) (width : Text → Nat) (pen : Pen) (link : Option Link)
    {text : Text} (fits : width text ≤ 2) :
    Twins bg (fun i c => done i c ∨ (i = t.row ∧ t.col ≤ c ∧ c < t.col + width text))
      (Terminal.print width { t with link := link, pen := pen } text)
      (Terminal.print width { u with link := link, pen := pen } text) := by
  refine ⟨twins.row, by simp only [Terminal.print, twins.col], fun i => ?_⟩
  simp only [Terminal.print, ← twins.row, ← twins.col]
  by_cases here : i = t.row
  · subst here
    rw [Function.update_self, Function.update_self]
    exact ((twins.cells t.row).put t.col text pen link fits).congr fun c => by
      simp only [true_and]
  · rw [Function.update_of_ne here, Function.update_of_ne here]
    exact (twins.cells i).congr fun c => by simp only [here, false_and, or_false]

end Terminal.Twins
end Oxutrm.Vt
