import Oxutrm.Lib.Checked

/-!
A grid that is drawn on. To draw outside it is a panic, and what is drawn in some of its
rows leaves the others as they are.
-/
namespace Oxutrm.Drawing
open Checked
variable {γ : Type*}

structure Rect where
  x : ℕ
  y : ℕ
  width : ℕ
  height : ℕ
  deriving DecidableEq, Repr

structure Canvas (γ : Type*) where
  width : ℕ
  height : ℕ
  cell : ℕ → ℕ → γ

namespace Canvas

/-- The area is on the canvas. -/
def Holds (c : Canvas γ) (r : Rect) : Prop := r.x + r.width ≤ c.width ∧ r.y + r.height ≤ c.height

instance (c : Canvas γ) (r : Rect) : Decidable (c.Holds r) := inferInstanceAs (Decidable (_ ∧ _))

/-- One cell is changed, if there is one. -/
def set (c : Canvas γ) (x y : ℕ) (f : γ → γ) : Option (Canvas γ) :=
  if x < c.width ∧ y < c.height then
    some { c with cell := fun i j => if i = x ∧ j = y then f (c.cell i j) else c.cell i j }
  else none

end Canvas

/-- Nothing but rows from `low` up to `high` differs. -/
structure Changes (low high : ℕ) (before after : Canvas γ) : Prop where
  width : after.width = before.width
  height : after.height = before.height
  rest : ∀ x y, y < low ∨ high ≤ y → after.cell x y = before.cell x y

namespace Changes
variable {low high : ℕ} {a b c : Canvas γ}

theorem refl (low high : ℕ) (a : Canvas γ) : Changes low high a a := ⟨rfl, rfl, fun _ _ _ => rfl⟩

theorem trans (first : Changes low high a b) (second : Changes low high b c) : Changes low high a c :=
  ⟨second.width.trans first.width, second.height.trans first.height,
    fun x y outside => (second.rest x y outside).trans (first.rest x y outside)⟩

theorem mono {low' high' : ℕ} (changes : Changes low high a b) (lower : low' ≤ low) (higher : high ≤ high') :
    Changes low' high' a b :=
  ⟨changes.width, changes.height, fun x y outside => changes.rest x y (by omega)⟩

theorem row (changes : Changes low high a b) {y : ℕ} (outside : y < low ∨ high ≤ y) (x : ℕ) :
    b.cell x y = a.cell x y := changes.rest x y outside

end Changes

theorem runs_set {c : Canvas γ} {x y : ℕ} (column : x < c.width) (row : y < c.height) (f : γ → γ) :
    Runs (c.set x y f) (Changes y (y + 1) c) := by
  refine ⟨_, if_pos ⟨column, row⟩, rfl, rfl, fun i j outside => ?_⟩
  exact if_neg fun here => by omega

/-- Lines drawn one below another, each in a row of its own, are all there in the end. -/
theorem runs_rows {α : Type} {f : Canvas γ → α → Option (Canvas γ)} {lines : List α} {top : ℕ} {start : Canvas γ}
    (each : ∀ j a, lines[j]? = some a → ∀ c, c.width = start.width → c.height = start.height →
      Runs (f c a) (Changes (top + j) (top + j + 1) c)) :
    Runs (lines.foldlM f start) fun last => Changes top (top + lines.length) start last ∧
      ∀ j a, lines[j]? = some a → ∃ before after, Changes top (top + j) start before ∧
        f before a = some after ∧ ∀ x, last.cell x (top + j) = after.cell x (top + j) := by
  induction lines generalizing top start with
  | nil => exact Runs.pure ⟨Changes.refl _ _ start, nofun⟩
  | cons a lines ih =>
      rw [List.foldlM_cons]
      obtain ⟨next, drawn, first⟩ := each 0 a rfl start rfl rfl
      rw [drawn]
      have later : ∀ j b, lines[j]? = some b → ∀ c, c.width = next.width → c.height = next.height →
          Runs (f c b) (Changes (top + 1 + j) (top + 1 + j + 1) c) := fun j b here c width height => by
        rw [Nat.add_right_comm top 1 j]
        exact each (j + 1) b here c (width.trans first.width) (height.trans first.height)
      refine (ih later).mono fun last ⟨below, every⟩ => ⟨?_, fun j b here => ?_⟩
      · rw [List.length_cons]
        exact (first.mono (Nat.le_refl _) (by omega)).trans (below.mono (by omega) (by omega))
      · cases j with
        | zero =>
            cases here
            exact ⟨start, next, Changes.refl _ _ start, drawn, below.row (.inl (Nat.lt_succ_self top))⟩
        | succ j =>
            obtain ⟨before, after, earlier, step, same⟩ := every j b here
            rw [Nat.add_right_comm top 1 j] at earlier same
            exact ⟨before, after,
              (first.mono (Nat.le_refl _) (by omega)).trans (earlier.mono (by omega) (Nat.le_refl _)), step, same⟩

end Oxutrm.Drawing
