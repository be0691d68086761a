import Mathlib.Data.List.Basic
import Mathlib.Data.List.TakeWhile
import Mathlib.Tactic.Common

/-!
Bounded windows over a sequence: the last `n` entries of a queue that grows at
its back. A window of strictly ranked entries keeps every entry whose rank is
within `n` of the newest, whatever else has been dropped from its front.
-/
namespace Oxutrm.Window
universe u
variable {α : Type u}

/-- What is left after popping the front while more than `n` entries remain. -/
def cap (n : Nat) (l : List α) : List α := l.drop (l.length - n)

theorem length_cap_le (n : Nat) (l : List α) : (cap n l).length ≤ n := by
  simp only [cap, List.length_drop]
  omega

theorem cap_ne_nil {n : Nat} (positive : 0 < n) {l : List α} (nonempty : l ≠ []) :
    cap n l ≠ [] := by
  have := List.length_pos_iff.mpr nonempty
  simp only [cap, ne_eq, List.drop_eq_nil_iff, not_le]
  omega

theorem mem_of_mem_cap {n : Nat} {l : List α} {a : α} (member : a ∈ cap n l) : a ∈ l :=
  List.mem_of_mem_drop member

theorem pairwise_cap {n : Nat} {l : List α} {r : α → α → Prop} (ordered : l.Pairwise r) :
    (cap n l).Pairwise r :=
  ordered.sublist (List.drop_sublist _ _)

theorem ne_nil_of_cap {n : Nat} {l : List α} (kept : cap n l ≠ []) : l ≠ [] := by
  rintro rfl
  simp [cap] at kept

theorem getLast_cap {n : Nat} {l : List α} (kept : cap n l ≠ []) :
    (cap n l).getLast kept = l.getLast (ne_nil_of_cap kept) :=
  List.getLast_drop kept

theorem cap_cap_append (n : Nat) (l : List α) (a : α) :
    cap n (cap n l ++ [a]) = cap n (l ++ [a]) := by
  simp only [cap, List.length_append, List.length_drop, List.length_cons, List.length_nil]
  by_cases long : n ≤ l.length
  · have inner : l.drop (l.length - n) ++ [a] = (l ++ [a]).drop (l.length - n) := by
      rw [List.drop_append_of_le_length (by omega)]
    rw [inner, List.drop_drop]
    congr 1
    omega
  · have none : l.length - n = 0 := by omega
    simp only [none, List.drop_zero, Nat.sub_zero]

/-- In a strictly ranked list the rank grows at least as fast as the index. -/
theorem rank_add_le (rank : α → Nat) {l : List α}
    (increasing : l.Pairwise fun a b => rank a < rank b) (i k : Nat)
    (inside : i + k < l.length) :
    rank (l.get ⟨i, by omega⟩) + k ≤ rank (l.get ⟨i + k, inside⟩) := by
  induction k with
  | zero => exact Nat.le_refl _
  | succ k ih =>
      have next := List.pairwise_iff_getElem.mp increasing (i + k) (i + (k + 1)) (by omega)
        inside (by omega)
      have previous := ih (by omega)
      simp only [List.get_eq_getElem] at previous ⊢
      omega

theorem mem_cap (rank : α → Nat) {n : Nat} {l : List α}
    (increasing : l.Pairwise fun a b => rank a < rank b) {a : α} (member : a ∈ l)
    (near : ∀ b ∈ l, rank b < rank a + n) : a ∈ cap n l := by
  obtain ⟨⟨i, inside⟩, rfl⟩ := List.get_of_mem member
  have grown := rank_add_le rank increasing i (l.length - 1 - i) (by omega)
  have last := near (l.get ⟨i + (l.length - 1 - i), by omega⟩) (List.get_mem _ _)
  refine List.mem_drop_iff_getElem.mpr ⟨i - (l.length - n), by omega, ?_⟩
  simp only [List.get_eq_getElem]
  congr 1
  omega

theorem mem_dropWhile {p : α → Bool} {l : List α} {a : α} (member : a ∈ l)
    (kept : p a = false) : a ∈ l.dropWhile p := by
  rw [← List.takeWhile_append_dropWhile (p := p) (l := l)] at member
  rcases List.mem_append.mp member with taken | rest
  · have := List.mem_takeWhile_imp taken
    rw [kept] at this
    contradiction
  · exact rest

end Oxutrm.Window
