import Mathlib.Data.List.Basic
import Mathlib.Logic.Function.Basic

/-!
A list written in numbered segments, one after another.
-/
namespace Oxutrm.Segments
variable {α : Type*}

/-- Segments `0` to `n`, in order. -/
def upTo (f : Nat → List α) (n : Nat) : List α := (List.range (n + 1)).flatMap f

theorem upTo_succ (f : Nat → List α) (n : Nat) : upTo f (n + 1) = upTo f n ++ f (n + 1) := by
  simp only [upTo, List.range_succ (n := n + 1), List.flatMap_append, List.flatMap_singleton]

theorem upTo_congr {f g : Nat → List α} {n : Nat} (same : ∀ i ≤ n, f i = g i) :
    upTo f n = upTo g n := by
  induction n with
  | zero => simp [upTo, same 0]
  | succ n ih =>
      rw [upTo_succ, upTo_succ, ih fun i inside => same i (Nat.le_succ_of_le inside),
        same (n + 1) (Nat.le_refl _)]

/-- Writing at the end of the last segment is writing at the end. -/
theorem upTo_update (f : Nat → List α) (n : Nat) (more : List α) :
    upTo (Function.update f n (f n ++ more)) n = upTo f n ++ more := by
  cases n with
  | zero => simp [upTo]
  | succ n =>
      have same : upTo (Function.update f (n + 1) (f (n + 1) ++ more)) n = upTo f n := by
        refine upTo_congr fun i inside => Function.update_of_ne ?_ _ _
        omega
      rw [upTo_succ, upTo_succ, same, Function.update_self, List.append_assoc]

theorem upTo_extend {f : Nat → List α} {n m : Nat} (le : n ≤ m)
    (empty : ∀ i, n < i → f i = []) : upTo f m = upTo f n := by
  induction le with
  | refl => rfl
  | @step m le ih => rw [upTo_succ, ih, empty (m + 1) (Nat.lt_succ_of_le le), List.append_nil]

theorem upTo_sublist {f g : Nat → List α} (within : ∀ i, (f i).Sublist (g i)) (n : Nat) :
    (upTo f n).Sublist (upTo g n) := by
  induction n with
  | zero => simpa [upTo] using within 0
  | succ n ih =>
      rw [upTo_succ, upTo_succ]
      exact ih.append (within (n + 1))

end Oxutrm.Segments
