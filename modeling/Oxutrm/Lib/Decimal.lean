import Mathlib.Algebra.Group.Nat.Defs
import Mathlib.Data.List.Lex
import Mathlib.Data.List.Basic

/-!
Decimal numbers of a fixed width. Written so, numbers are ordered as texts the way they are
ordered as numbers, and so are texts made of blocks of the same lengths.
-/
namespace Oxutrm.Decimal

section Blocks
variable {α : Type*} [LT α]

/-- A block that is lower settles the order, whatever follows. -/
theorem append_lt_of_lt {a b : List α} (same : a.length = b.length) (lower : a < b) (c d : List α) :
    a ++ c < b ++ d := by
  induction a generalizing b with
  | nil =>
      rw [List.eq_nil_of_length_eq_zero same.symm] at lower
      exact absurd lower (List.not_lt_nil [])
  | cons x a ih =>
      cases b with
      | nil => cases same
      | cons y b =>
          rw [List.cons_append, List.cons_append, List.cons_lt_cons_iff]
          cases List.cons_lt_cons_iff.mp lower with
          | inl head => exact Or.inl head
          | inr tail => exact Or.inr ⟨tail.1, ih (Nat.succ.inj same) tail.2⟩

end Blocks

/-- The last `w` decimal digits. -/
def fixed : Nat → Nat → List Char
  | 0, _ => []
  | w + 1, n => fixed w (n / 10) ++ [Nat.digitChar (n % 10)]

@[simp] theorem length_fixed (w n : Nat) : (fixed w n).length = w := by
  induction w generalizing n with
  | zero => rfl
  | succ w ih => rw [fixed, List.length_append, ih, List.length_singleton]

theorem digitChar_lt {n m : Nat} (lower : n < m) (digit : m < 10) :
    Nat.digitChar n < Nat.digitChar m := by
  rw [Char.lt_def, UInt32.lt_iff_toNat_lt]
  change (Nat.digitChar n).toNat < (Nat.digitChar m).toNat
  rw [Nat.toNat_digitChar_of_lt_ten (Nat.lt_trans lower digit), Nat.toNat_digitChar_of_lt_ten digit]
  omega

theorem fixed_lt {w n m : Nat} (lower : n < m) (fits : m < 10 ^ w) : fixed w n < fixed w m := by
  induction w generalizing n m with
  | zero => omega
  | succ w ih =>
      rw [Nat.pow_succ] at fits
      rw [fixed, fixed]
      by_cases tens : n / 10 = m / 10
      · rw [tens]
        refine List.append_left_lt ?_
        rw [List.cons_lt_cons_iff]
        exact Or.inl (digitChar_lt (by omega) (Nat.mod_lt _ (by decide)))
      · refine append_lt_of_lt ?_ (ih (by omega) (by omega)) _ _
        rw [length_fixed, length_fixed]

theorem leftpad_toDigits {w n : Nat} (fits : n < 10 ^ (w + 1)) :
    List.leftpad (w + 1) '0' (Nat.toDigits 10 n) = fixed (w + 1) n := by
  induction w generalizing n with
  | zero =>
      have small : n < 10 := fits
      rw [Nat.toDigits_of_lt_base small, fixed, fixed, Nat.mod_eq_of_lt small]
      rfl
  | succ w ih =>
      rw [Nat.pow_succ] at fits
      by_cases small : n < 10
      · have rest := @ih 0 (Nat.pow_pos (by decide))
        rw [fixed, Nat.div_eq_of_lt small, ← rest, Nat.mod_eq_of_lt small,
          Nat.toDigits_of_lt_base small, Nat.toDigits_zero]
        simp only [List.leftpad, List.length_singleton, Nat.add_sub_cancel, List.append_assoc,
          List.singleton_append]
        rw [List.replicate_succ', List.append_assoc]
        rfl
      · have rest := @ih (n / 10) (by omega)
        rw [Nat.toDigits_of_base_le (by decide) (Nat.le_of_not_lt small), fixed, ← rest]
        simp only [List.leftpad, List.length_append, List.length_singleton, List.append_assoc]
        rw [Nat.add_sub_add_right]

/-- Numbers of fixed widths, each with its separator behind it. -/
def spell : List (Nat × List Char) → List Nat → List Char
  | (w, sep) :: shape, n :: ns => fixed w n ++ (sep ++ spell shape ns)
  | _, _ => []

/-- Every number fits its width. -/
def Fits : List (Nat × List Char) → List Nat → Prop
  | (w, _) :: shape, n :: ns => n < 10 ^ w ∧ Fits shape ns
  | [], [] => True
  | _, _ => False

theorem spell_lt {shape : List (Nat × List Char)} {ns ms : List Nat} (left : Fits shape ns)
    (right : Fits shape ms) (lower : ns < ms) : spell shape ns < spell shape ms := by
  induction shape generalizing ns ms with
  | nil =>
      cases ms with
      | nil => exact absurd lower (List.not_lt_nil ns)
      | cons m ms => cases right
  | cons field shape ih =>
      obtain ⟨w, sep⟩ := field
      cases ns with
      | nil => cases left
      | cons n ns =>
          cases ms with
          | nil => cases right
          | cons m ms =>
              rw [spell, spell]
              cases List.cons_lt_cons_iff.mp lower with
              | inl head =>
                  refine append_lt_of_lt ?_ (fixed_lt head right.1) _ _
                  rw [length_fixed, length_fixed]
              | inr tail =>
                  rw [tail.1]
                  exact List.append_left_lt (List.append_left_lt (ih left.2 right.2 tail.2))

end Oxutrm.Decimal
