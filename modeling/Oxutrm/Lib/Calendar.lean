import Mathlib.Order.Basic

/-!
The proleptic Gregorian calendar: the dates there are, and the day after each.
-/
namespace Oxutrm.Calendar

structure Date where
  year : Int
  month : Nat
  day : Nat
  deriving DecidableEq, Repr

/-- Every fourth year, without three centuries in four. -/
def leap (year : Int) : Bool := year % 4 = 0 && (year % 100 ≠ 0 || year % 400 = 0)

def daysIn (leap : Bool) (month : Nat) : Nat :=
  match month with
  | 2 => if leap then 29 else 28
  | 4 | 6 | 9 | 11 => 30
  | _ => 31

namespace Date

def Valid (d : Date) : Prop :=
  1 ≤ d.month ∧ d.month ≤ 12 ∧ 1 ≤ d.day ∧ d.day ≤ daysIn (leap d.year) d.month

/-- The day after. -/
def next (d : Date) : Date :=
  if d.day < daysIn (leap d.year) d.month then { d with day := d.day + 1 }
  else if d.month < 12 then { d with month := d.month + 1, day := 1 }
  else { year := d.year + 1, month := 1, day := 1 }

/-- Earlier in the calendar. -/
def Before (a b : Date) : Prop :=
  a.year < b.year ∨ a.year = b.year ∧ (a.month < b.month ∨ a.month = b.month ∧ a.day < b.day)

theorem before_next (d : Date) : d.Before d.next := by
  unfold next
  split
  · exact Or.inr ⟨rfl, Or.inr ⟨rfl, Nat.lt_succ_self _⟩⟩
  · split
    · exact Or.inr ⟨rfl, Or.inl (Nat.lt_succ_self _)⟩
    · exact Or.inl (Int.lt_succ _)

theorem Before.trans {a b c : Date} (first : a.Before b) (second : b.Before c) : a.Before c := by
  unfold Before at *
  omega

end Date
end Oxutrm.Calendar
