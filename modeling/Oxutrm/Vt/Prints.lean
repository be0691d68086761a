import Oxutrm.Vt.Rows

/-!
Glyphs that are written below a column. What stands at the column changes only where
it was the right half of a glyph, and then it is a blank from the first glyph on that
takes the place of its left half.
-/
namespace Oxutrm.Vt.Row
variable {L : Nat} {row row' row'' : Row}

/-- Glyphs of one or two columns have been written below `L`. The flag says that one of
them ended there. -/
inductive Prints (L : Nat) (row : Row) : Bool → Row → Prop where
  | refl : Prints L row false row
  | put {reached : Bool} {row' : Row} (earlier : Prints L row reached row') {col n : Nat}
      (below : col + n ≤ L) (columns : n = 1 ∨ n = 2) (text : Text) (pen : Pen)
      (link : Option Link) :
      Prints L row (reached || decide (col + n = L)) (row'.put col text pen link n)

theorem put_paired (paired : row.Paired) {n : Nat} (columns : n = 1 ∨ n = 2) (col : Nat)
    (text : Text) (pen : Pen) (link : Option Link) : (row.put col text pen link n).Paired := by
  cases columns with
  | inl one =>
      rw [one]
      exact paired.one text pen link
  | inr two =>
      rw [two]
      exact paired.two text pen link

theorem put_beyond (paired : row.Paired) {col n : Nat} (below : col + n ≤ L)
    (columns : n = 1 ∨ n = 2) (text : Text) (pen : Pen) (link : Option Link) :
    row.put col text pen link n L =
      if col + n = L ∧ (row L).glyph.isTrail = true then (row L).halved else row L := by
  rcases columns with rfl | rfl
  · rw [put, one_apply paired text pen link (show L ≠ col by omega)]
    by_cases next : L = col + 1
    · subst next
      simp only [show ¬ col + 1 + 1 = col by omega, false_and, false_or, true_and, paired.pairs]
    · simp only [show ¬ L + 1 = col by omega, next, show ¬ col + 1 = L from fun h => next h.symm,
        false_and, or_self, if_false]
  · rw [put, two_apply paired text pen link (show L ≠ col by omega) (show L ≠ col + 1 by omega)]
    by_cases next : L = col + 2
    · subst next
      simp only [show ¬ col + 2 + 1 = col by omega, false_and, false_or, true_and,
        show col + 2 = col + 1 + 1 from rfl, paired.pairs]
    · simp only [show ¬ L + 1 = col by omega, next, show ¬ col + 2 = L from fun h => next h.symm,
        false_and, or_self, if_false]

namespace Prints
variable {reached further : Bool}

theorem trans (first : Prints L row reached row') (second : Prints L row' further row'') :
    Prints L row (reached || further) row'' := by
  induction second with
  | refl => rwa [Bool.or_false]
  | put _ below columns text pen link ih =>
      rw [← Bool.or_assoc]
      exact ih.put below columns text pen link

theorem paired (prints : Prints L row reached row') (before : row.Paired) : row'.Paired := by
  induction prints with
  | refl => exact before
  | put _ _ columns text pen link ih => exact put_paired ih columns _ text pen link

/-- The column itself, afterwards. -/
theorem beyond (prints : Prints L row reached row') (before : row.Paired) :
    row' L = if reached = true ∧ (row L).glyph.isTrail = true then (row L).halved else row L := by
  induction prints with
  | refl => simp only [Bool.false_eq_true, false_and, if_false]
  | put earlier below columns text pen link ih =>
      rw [put_beyond (earlier.paired before) below columns, ih]
      by_cases trail : (row L).glyph.isTrail = true
      · simp only [trail, and_true, Bool.or_eq_true, decide_eq_true_eq]
        split
        · next was => simp only [was, Spot.halved_isTrail, Bool.false_eq_true, and_false, if_false,
            true_or, if_true]
        · next was => simp only [was, trail, and_true, Bool.false_eq_true, false_or]
      · simp only [trail, and_false, Bool.false_eq_true, if_false]

end Prints
end Oxutrm.Vt.Row
