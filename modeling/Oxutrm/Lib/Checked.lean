import Mathlib.Algebra.Group.Nat.Defs
import Mathlib.Data.Option.Basic
import Mathlib.Data.Nat.Notation

/-!
Computations that may panic, and what is known of the result of one that does not.
-/
namespace Oxutrm.Checked
universe u
variable {α β σ : Type u}

/-- The computation does not panic, and its result is as `P` has it. -/
def Runs (x : Option α) (P : α → Prop) : Prop := ∃ a, x = some a ∧ P a

theorem Runs.pure {P : α → Prop} {a : α} (holds : P a) : Runs (some a) P := ⟨a, rfl, holds⟩

theorem Runs.bind {x : Option α} {f : α → Option β} {P : α → Prop} {Q : β → Prop} (first : Runs x P)
    (next : ∀ a, P a → Runs (f a) Q) : Runs (x >>= f) Q := by
  obtain ⟨a, rfl, holds⟩ := first
  exact next a holds

theorem Runs.bind_some {x : Option α} {f : α → Option β} {a : α} {Q : β → Prop} (same : x = some a)
    (next : Runs (f a) Q) : Runs (x >>= f) Q := by
  rw [same]
  exact next

theorem Runs.mono {x : Option α} {P Q : α → Prop} (runs : Runs x P) (weaker : ∀ a, P a → Q a) : Runs x Q := by
  obtain ⟨a, same, holds⟩ := runs
  exact ⟨a, same, weaker a holds⟩

theorem Runs.ite {c : Prop} [Decidable c] {x y : Option α} {P : α → Prop} (yes : c → Runs x P)
    (no : ¬ c → Runs y P) : Runs (if c then x else y) P := by
  split
  next holds => exact yes holds
  next fails => exact no fails

theorem Runs.foldlM {f : σ → α → Option σ} {I : σ → Prop} {l : List α} {s : σ} (start : I s)
    (step : ∀ s, ∀ a ∈ l, I s → Runs (f s a) I) : Runs (l.foldlM f s) I := by
  induction l generalizing s with
  | nil => exact Runs.pure start
  | cons a l ih =>
      rw [List.foldlM_cons]
      exact Runs.bind (step s a List.mem_cons_self start) fun s' holds =>
        ih holds fun s b member => step s b (List.mem_cons_of_mem a member)

/-- An unsigned difference. -/
def sub (a b : ℕ) : Option ℕ := if b ≤ a then some (a - b) else none

/-- A sum of so many bits. -/
def add (width a b : ℕ) : Option ℕ := if a + b < 2 ^ width then some (a + b) else none

theorem runs_sub {a b : ℕ} (le : b ≤ a) : Runs (sub a b) (· = a - b) := ⟨_, if_pos le, rfl⟩

theorem runs_add {width a b : ℕ} (fits : a + b < 2 ^ width) : Runs (add width a b) (· = a + b) :=
  ⟨_, if_pos fits, rfl⟩

end Oxutrm.Checked
