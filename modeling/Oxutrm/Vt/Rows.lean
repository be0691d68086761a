import Oxutrm.Vt.Terminal

/-!
Rows of two-column glyphs. A row is paired when every left half has its right half
beside it; writing keeps it so, and the columns it changes are known.
-/
namespace Oxutrm.Vt

namespace Glyph

def isLead : Glyph → Bool
  | .lead _ => true
  | .narrow _ | .trail => false

def isTrail : Glyph → Bool
  | .trail => true
  | .narrow _ | .lead _ => false

theorem not_both (g : Glyph) (lead : g.isLead = true) : g.isTrail = false := by
  cases g with
  | lead _ => rfl
  | narrow _ | trail => cases lead

end Glyph

@[simp] theorem Spot.halved_isLead (s : Spot) : s.halved.glyph.isLead = false := rfl

@[simp] theorem Spot.halved_isTrail (s : Spot) : s.halved.glyph.isTrail = false := rfl

namespace Row
variable {row : Row} {col : Nat}

structure Paired (row : Row) : Prop where
  first : (row 0).glyph.isTrail = false
  pairs : ∀ col, (row (col + 1)).glyph.isTrail = (row col).glyph.isLead

theorem Paired.next_not_lead (paired : row.Paired) (lead : (row col).glyph.isLead = true) :
    (row (col + 1)).glyph.isLead = false := by
  cases standing : (row (col + 1)).glyph.isLead with
  | false => rfl
  | true =>
      have alone := Glyph.not_both _ standing
      rw [paired.pairs, lead] at alone
      cases alone

theorem part_lead (lead : (row col).glyph.isLead = true) :
    row.part col = Function.update row (col + 1) (row (col + 1)).halved := by
  cases standing : (row col).glyph with
  | lead text => simp only [part, standing]
  | narrow _ | trail =>
      rw [standing] at lead
      cases lead

theorem part_trail (trail : (row col).glyph.isTrail = true) :
    row.part col = Function.update row (col - 1) (row (col - 1)).halved := by
  cases standing : (row col).glyph with
  | trail => simp only [part, standing]
  | narrow _ | lead _ =>
      rw [standing] at trail
      cases trail

theorem part_narrow (lead : (row col).glyph.isLead = false)
    (trail : (row col).glyph.isTrail = false) : row.part col = row := by
  cases standing : (row col).glyph with
  | narrow _ => simp only [part, standing]
  | lead _ =>
      rw [standing] at lead
      cases lead
  | trail =>
      rw [standing] at trail
      cases trail

theorem part_apply (paired : row.Paired) {c : Nat} (other : c ≠ col) :
    row.part col c =
      if (c + 1 = col ∧ (row col).glyph.isTrail) ∨ (c = col + 1 ∧ (row col).glyph.isLead)
      then (row c).halved else row c := by
  cases lead : (row col).glyph.isLead with
  | true =>
      have trail := Glyph.not_both _ lead
      rw [part_lead lead, trail]
      by_cases here : c = col + 1
      · subst here
        simp
      · rw [Function.update_of_ne here]
        simp [here]
  | false =>
      cases trail : (row col).glyph.isTrail with
      | false =>
          rw [part_narrow lead trail]
          simp
      | true =>
          rw [part_trail trail]
          cases col with
          | zero =>
              rw [paired.first] at trail
              cases trail
          | succ k =>
              by_cases here : c = k
              · subst here
                simp
              · rw [Nat.add_sub_cancel, Function.update_of_ne here]
                simp [here]

@[simp] theorem one_self (text : Text) (pen : Pen) (link : Option Link) :
    row.one col text pen link col = ⟨.narrow text, pen, link⟩ :=
  Function.update_self ..

theorem one_apply (paired : row.Paired) (text : Text) (pen : Pen) (link : Option Link) {c : Nat}
    (other : c ≠ col) :
    row.one col text pen link c =
      if (c + 1 = col ∧ (row col).glyph.isTrail) ∨ (c = col + 1 ∧ (row col).glyph.isLead)
      then (row c).halved else row c := by
  rw [one, Function.update_of_ne other, part_apply paired other]

@[simp] theorem two_lead (text : Text) (pen : Pen) (link : Option Link) :
    row.two col text pen link col = ⟨.lead text, pen, link⟩ := by
  rw [two, Function.update_of_ne (Nat.ne_of_lt (Nat.lt_succ_self col)), Function.update_self]

@[simp] theorem two_trail (text : Text) (pen : Pen) (link : Option Link) :
    row.two col text pen link (col + 1) = ⟨.trail, pen, link⟩ :=
  Function.update_self ..

theorem two_apply (paired : row.Paired) (text : Text) (pen : Pen) (link : Option Link) {c : Nat}
    (first : c ≠ col) (second : c ≠ col + 1) :
    row.two col text pen link c =
      if (c + 1 = col ∧ (row col).glyph.isTrail) ∨
        (c = col + 2 ∧ (row (col + 1)).glyph.isLead)
      then (row c).halved else row c := by
  rw [two, Function.update_of_ne second, Function.update_of_ne first]
  cases lead : (row col).glyph.isLead with
  | true =>
      -- the right half of the old glyph is gone before its column is overwritten
      have trail := Glyph.not_both _ lead
      rw [part_lead lead, part_narrow (by simp) (by simp), Function.update_of_ne second, trail,
        paired.next_not_lead lead]
      simp
  | false =>
      have alone : (row (col + 1)).glyph.isTrail = false := by rw [paired.pairs, lead]
      have here : row.part col (col + 1) = row (col + 1) := by
        have past : ¬ col + 1 + 1 = col := by omega
        rw [part_apply paired (Nat.succ_ne_self col), lead]
        simp [past]
      have there : row.part col c =
          if c + 1 = col ∧ (row col).glyph.isTrail then (row c).halved else row c := by
        rw [part_apply paired first, lead]
        simp
      cases next : (row (col + 1)).glyph.isLead with
      | false =>
          rw [part_narrow (by rw [here]; exact next) (by rw [here]; exact alone), there]
          simp
      | true =>
          rw [part_lead (by rw [here]; exact next)]
          by_cases end_ : c = col + 1 + 1
          · subst end_
            have past : ¬ col + 1 + 1 + 1 = col := by omega
            rw [Function.update_self, there]
            simp [past]
          · rw [Function.update_of_ne end_, there]
            simp [show ¬ c = col + 2 from end_]

theorem one_isLead (paired : row.Paired) (text : Text) (pen : Pen) (link : Option Link) (c : Nat) :
    (row.one col text pen link c).glyph.isLead =
      (decide (c ≠ col ∧ c + 1 ≠ col) && (row c).glyph.isLead) := by
  by_cases here : c = col
  · subst here
    rw [one_self]
    simp [Glyph.isLead]
  · have pair := paired.pairs c
    rw [one_apply paired _ _ _ here]
    split
    · next halved =>
        rw [Spot.halved_isLead]
        rcases halved with ⟨rfl, -⟩ | ⟨rfl, lead⟩
        · simp
        · simp [paired.next_not_lead lead]
    · next kept =>
        by_cases next : c + 1 = col
        · subst next
          have alone : (row (c + 1)).glyph.isTrail = false := by
            simpa using fun h => kept (Or.inl ⟨rfl, h⟩)
          simp [← pair, alone]
        · simp [here, next]

theorem one_isTrail (paired : row.Paired) (text : Text) (pen : Pen) (link : Option Link) (c : Nat) :
    (row.one col text pen link c).glyph.isTrail =
      (decide (c ≠ col ∧ c ≠ col + 1) && (row c).glyph.isTrail) := by
  by_cases here : c = col
  · subst here
    rw [one_self]
    simp [Glyph.isTrail]
  · rw [one_apply paired _ _ _ here]
    split
    · next halved =>
        rw [Spot.halved_isTrail]
        rcases halved with ⟨rfl, trail⟩ | ⟨rfl, -⟩
        · rw [paired.pairs] at trail
          simp [Glyph.not_both _ trail]
        · simp
    · next kept =>
        by_cases next : c = col + 1
        · subst next
          have alone : (row col).glyph.isLead = false := by
            simpa using fun h => kept (Or.inr ⟨rfl, h⟩)
          simp [paired.pairs, alone]
        · simp [here, next]

theorem Paired.one (paired : row.Paired) (text : Text) (pen : Pen) (link : Option Link) :
    (row.one col text pen link).Paired := by
  refine ⟨?_, fun c => ?_⟩
  · rw [one_isTrail paired, paired.first, Bool.and_false]
  · rw [one_isTrail paired, one_isLead paired, paired.pairs]
    congr 1
    rw [decide_eq_decide]
    omega

theorem two_isLead (paired : row.Paired) (text : Text) (pen : Pen) (link : Option Link) (c : Nat) :
    (row.two col text pen link c).glyph.isLead =
      (decide (c = col) || (decide (c ≠ col + 1 ∧ c + 1 ≠ col) && (row c).glyph.isLead)) := by
  by_cases first : c = col
  · subst first
    rw [two_lead]
    simp [Glyph.isLead]
  · by_cases second : c = col + 1
    · subst second
      rw [two_trail]
      simp [Glyph.isLead]
    · have pair := paired.pairs c
      rw [two_apply paired _ _ _ first second]
      split
      · next halved =>
          rw [Spot.halved_isLead]
          rcases halved with ⟨rfl, -⟩ | ⟨rfl, lead⟩
          · simp
          · simp [paired.next_not_lead lead]
      · next kept =>
          by_cases next : c + 1 = col
          · subst next
            have alone : (row (c + 1)).glyph.isTrail = false := by
              simpa using fun h => kept (Or.inl ⟨rfl, h⟩)
            simp [← pair, alone]
          · simp [first, second, next]

theorem two_isTrail (paired : row.Paired) (text : Text) (pen : Pen) (link : Option Link) (c : Nat) :
    (row.two col text pen link c).glyph.isTrail =
      (decide (c = col + 1) || (decide (c ≠ col ∧ c ≠ col + 2) && (row c).glyph.isTrail)) := by
  by_cases first : c = col
  · subst first
    rw [two_lead]
    simp [Glyph.isTrail]
  · by_cases second : c = col + 1
    · subst second
      rw [two_trail]
      simp [Glyph.isTrail]
    · rw [two_apply paired _ _ _ first second]
      split
      · next halved =>
          rw [Spot.halved_isTrail]
          rcases halved with ⟨rfl, trail⟩ | ⟨rfl, -⟩
          · rw [paired.pairs] at trail
            simp [Glyph.not_both _ trail, second]
          · simp
      · next kept =>
          by_cases next : c = col + 2
          · subst next
            have alone : (row (col + 1)).glyph.isLead = false := by
              simpa using fun h => kept (Or.inr ⟨rfl, h⟩)
            simp [paired.pairs (col + 1), alone]
          · simp [first, second, next]

theorem Paired.two (paired : row.Paired) (text : Text) (pen : Pen) (link : Option Link) :
    (row.two col text pen link).Paired := by
  refine ⟨?_, fun c => ?_⟩
  · rw [two_isTrail paired, paired.first, Bool.and_false]
    simp
  · rw [two_isTrail paired, two_isLead paired, paired.pairs]
    congr 1
    · rw [decide_eq_decide]
      omega
    · congr 1
      rw [decide_eq_decide]
      omega

end Row
end Oxutrm.Vt
