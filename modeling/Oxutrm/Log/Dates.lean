import Oxutrm.Lib.Calendar
import Oxutrm.Lib.Decimal
import Oxutrm.Proto.Types

/-!
The dates of the log: the day a number of days after 1970-01-01 is, and a time as text.
-/
namespace Oxutrm.Log
open Calendar Decimal
open Proto (Text)

/-- What one year of an era of 400 starts with, counted from the first of March. -/
def startOf (year : Nat) : Nat := 365 * year + year / 4 - year / 100

def yearOfEra (doe : Nat) : Nat := (doe - doe / 1460 + doe / 36524 - doe / 146096) / 365

/-- Days since 1970-01-01 to a proleptic Gregorian date. The dividends after the first two
are not negative. -/
def civil (days : Int) : Date :=
  let z := days + 719468
  let era := z / 146097
  let doe := z % 146097
  let yoe := (doe - doe / 1460 + doe / 36524 - doe / 146096) / 365
  let doy := doe - (365 * yoe + yoe / 4 - yoe / 100)
  let mp := (5 * doy + 2) / 153
  let d := doy - (153 * mp + 2) / 5 + 1
  let m := if mp < 10 then mp + 3 else mp - 9
  { year := yoe + era * 400 + if m ≤ 2 then 1 else 0
    month := m.toNat
    day := d.toNat }

/-- The month and the day of a day of the year that begins on the first of March. -/
def monthDay (doy : Nat) : Nat × Nat :=
  let mp := (5 * doy + 2) / 153
  (if mp < 10 then mp + 3 else mp - 9, doy + 1 - (153 * mp + 2) / 5)

/-- A day of a year that begins on the first of March. -/
def dateOf (year : Int) (doy : Nat) : Date where
  year := year + if (monthDay doy).1 ≤ 2 then 1 else 0
  month := (monthDay doy).1
  day := (monthDay doy).2

section Eras

/-- The days of a year that begins on the first of March: its February is the next one. -/
def lengthOf (year : Int) : Nat := if leap (year + 1) then 366 else 365

theorem year_table : ∀ y < 400, yearOfEra (startOf y) = y ∧ (y < 399 →
    yearOfEra (startOf (y + 1) - 1) = y ∧ startOf y + lengthOf y = startOf (y + 1)) := by
  decide +kernel

theorem startOf_yearOfEra {y : Nat} (small : y < 400) : yearOfEra (startOf y) = y := (year_table y small).1

theorem yearOfEra_before {y : Nat} (small : y < 399) : yearOfEra (startOf (y + 1) - 1) = y :=
  ((year_table y (Nat.lt_succ_of_lt small)).2 small).1

theorem startOf_succ {year : Nat} (small : year < 399) : startOf year + lengthOf year = startOf (year + 1) :=
  ((year_table year (Nat.lt_succ_of_lt small)).2 small).2

theorem yearOfEra_step {doe : Nat} (inside : doe + 1 < 146097) :
    yearOfEra doe ≤ yearOfEra (doe + 1) := by
  unfold yearOfEra
  apply Nat.div_le_div_right
  omega

theorem yearOfEra_mono {a b : Nat} (le : a ≤ b) (inside : b < 146097) :
    yearOfEra a ≤ yearOfEra b := by
  induction b, le using Nat.le_induction with
  | base => exact Nat.le_refl _
  | succ b _ ih => exact Nat.le_trans (ih (by omega)) (yearOfEra_step inside)

theorem yearOfEra_lt {doe : Nat} (inside : doe < 146097) : yearOfEra doe < 400 := by
  have top := yearOfEra_mono (Nat.le_of_lt_succ inside) (by decide : 146096 < 146097)
  have last : yearOfEra 146096 = 399 := by decide
  omega

theorem startOf_le {doe : Nat} (inside : doe < 146097) : startOf (yearOfEra doe) ≤ doe := by
  by_contra early
  have small := yearOfEra_lt inside
  cases same : yearOfEra doe with
  | zero =>
      rw [same] at early
      exact early (Nat.zero_le _)
  | succ y =>
      rw [same] at early small
      have start : startOf (y + 1) < 146097 := by
        unfold startOf
        omega
      have below := @yearOfEra_mono doe (startOf (y + 1) - 1) (by omega) (by omega)
      rw [@yearOfEra_before y (by omega), same] at below
      exact absurd below (Nat.not_succ_le_self y)

theorem lengthOf_era (year : Nat) (era : Int) :
    lengthOf (year + era * 400) = lengthOf year := by
  unfold lengthOf leap
  have four : (year + era * 400 + 1) % 4 = ((year : Int) + 1) % 4 := by omega
  have hundred : (year + era * 400 + 1) % 100 = ((year : Int) + 1) % 100 := by omega
  have all : (year + era * 400 + 1) % 400 = ((year : Int) + 1) % 400 := by omega
  rw [four, hundred, all]

theorem lt_startOf {doe : Nat} (inside : doe < 146097) :
    doe < startOf (yearOfEra doe) + lengthOf (yearOfEra doe) := by
  have small := yearOfEra_lt inside
  by_cases last : yearOfEra doe = 399
  · have whole : startOf 399 + lengthOf ((399 : Nat) : Int) = 146097 := by decide
    rw [last, whole]
    exact inside
  · rw [startOf_succ (by omega)]
    by_contra late
    have start : startOf (yearOfEra doe + 1) < 146097 := by
      unfold startOf
      omega
    have above := yearOfEra_mono (Nat.le_of_not_lt late) inside
    rw [startOf_yearOfEra (by omega)] at above
    exact absurd above (Nat.not_succ_le_self _)

end Eras

section Days

theorem yearOfEra_eq {year doy : Nat} (small : year < 400) (within : doy < lengthOf year)
    (inside : startOf year + doy < 146097) : yearOfEra (startOf year + doy) = year := by
  refine Nat.le_antisymm ?_ ?_
  · by_cases last : year = 399
    · have bound := yearOfEra_lt inside
      omega
    · have ends := @startOf_succ year (by omega)
      have below := @yearOfEra_mono (startOf year + doy) (startOf (year + 1) - 1) (by omega) (by
        unfold startOf
        omega)
      rw [@yearOfEra_before year (by omega)] at below
      exact below
  · have above := @yearOfEra_mono (startOf year) (startOf year + doy) (Nat.le_add_right _ _) inside
    rw [startOf_yearOfEra small] at above
    exact above

/-- The days of a year. From the first of March to the end of January no month is cut short,
and of February only the last two days depend on the year. -/
theorem day_table : ∀ doy < 366, (1 ≤ (monthDay doy).1 ∧ (monthDay doy).1 ≤ 12 ∧
    1 ≤ (monthDay doy).2 ∧ (monthDay doy).2 ≤ daysIn true (monthDay doy).1 ∧
      ((monthDay doy).1 = 2 → doy = 336 + (monthDay doy).2)) ∧
    (doy < 364 → (monthDay doy).1 = 2 → (monthDay doy).2 < 28) ∧
    (doy < 365 → monthDay (doy + 1) =
      if (monthDay doy).2 < daysIn true (monthDay doy).1 then
        ((monthDay doy).1, (monthDay doy).2 + 1)
      else if (monthDay doy).1 < 12 then ((monthDay doy).1 + 1, 1)
      else (1, 1)) := by
  decide +kernel

theorem monthDay_succ : ∀ doy < 365, monthDay (doy + 1) =
    if (monthDay doy).2 < daysIn true (monthDay doy).1 then
      ((monthDay doy).1, (monthDay doy).2 + 1)
    else if (monthDay doy).1 < 12 then ((monthDay doy).1 + 1, 1)
    else (1, 1) :=
  fun doy small => (day_table doy (Nat.lt_succ_of_lt small)).2.2 small

theorem monthDay_range : ∀ doy < 366, 1 ≤ (monthDay doy).1 ∧ (monthDay doy).1 ≤ 12 ∧
    1 ≤ (monthDay doy).2 ∧ (monthDay doy).2 ≤ daysIn true (monthDay doy).1 ∧
      ((monthDay doy).1 = 2 → doy = 336 + (monthDay doy).2) :=
  fun doy small => (day_table doy small).1

theorem daysIn_two (leap : Bool) : daysIn leap 2 = if leap then 29 else 28 := rfl

theorem daysIn_other {month : Nat} (other : month ≠ 2) (leap : Bool) :
    daysIn leap month = daysIn true month := by
  unfold daysIn
  split
  · exact absurd rfl other
  · rfl
  · rfl
  · rfl
  · rfl
  · rfl

theorem lengthOf_le (year : Int) : lengthOf year ≤ 366 := by
  unfold lengthOf
  split
  · decide
  · decide

theorem dateOf_next {year : Int} {doy : Nat} (within : doy + 1 < lengthOf year) :
    (dateOf year doy).next = dateOf year (doy + 1) := by
  have long := lengthOf_le year
  have step := monthDay_succ doy (by omega)
  obtain ⟨low, high, -, -, february⟩ := monthDay_range doy (by omega)
  -- only February depends on the year, and its last day is not reached here
  have same : (monthDay doy).2 < daysIn (leap (dateOf year doy).year) (monthDay doy).1 ↔
      (monthDay doy).2 < daysIn true (monthDay doy).1 := by
    by_cases two : (monthDay doy).1 = 2
    · have count := february two
      have year_ : (dateOf year doy).year = year + 1 := by
        simp only [dateOf, two]
        rfl
      rw [year_, two, daysIn_two, daysIn_two]
      unfold lengthOf at within
      split at within
      · rename_i leaps
        rw [leaps]
      · simp only [if_true]
        constructor
        · intro _
          omega
        · intro _
          split
          · omega
          · omega
    · rw [daysIn_other two]
  unfold Date.next
  change (if (monthDay doy).2 < daysIn (leap (dateOf year doy).year) (monthDay doy).1 then _
    else if (monthDay doy).1 < 12 then _ else _) = _
  by_cases inside : (monthDay doy).2 < daysIn true (monthDay doy).1
  · rw [if_pos (same.mpr inside)]
    rw [if_pos inside] at step
    simp only [dateOf, step]
  · rw [if_neg (mt same.mp inside)]
    rw [if_neg inside] at step
    have two : (monthDay doy).1 ≠ 2 := by
      intro two
      have count := february two
      rw [two] at inside
      change ¬ (monthDay doy).2 < 29 at inside
      omega
    by_cases december : (monthDay doy).1 < 12
    · rw [if_pos december]
      rw [if_pos december] at step
      simp only [dateOf, step]
      have offset : (monthDay doy).1 + 1 ≤ 2 ↔ (monthDay doy).1 ≤ 2 := by omega
      simp only [offset]
    · rw [if_neg december]
      rw [if_neg december] at step
      simp only [dateOf, step]
      rw [if_neg (by omega), if_pos (by decide), Int.add_zero]

theorem dateOf_next_last {year : Int} {doy : Nat} (last : doy + 1 = lengthOf year) :
    (dateOf year doy).next = dateOf (year + 1) 0 := by
  have first : monthDay 0 = (3, 1) := by decide
  unfold lengthOf at last
  unfold Date.next dateOf
  rw [first]
  split at last
  · rename_i leaps
    have day : doy = 365 := by omega
    have month : monthDay 365 = (2, 29) := by decide
    rw [day, month]
    simp only [Nat.le_refl, if_true, leaps]
    rw [if_neg (by decide), if_pos (by decide), if_neg (by decide), Int.add_zero]
  · rename_i plain
    have day : doy = 364 := by omega
    have month : monthDay 364 = (2, 28) := by decide
    rw [day, month]
    simp only [Nat.le_refl, if_true, plain]
    rw [if_neg (by decide), if_pos (by decide), if_neg (by decide), Int.add_zero]

/-- The day of the month is never taken from below one. -/
theorem cast_monthDay (doy : Nat) :
    (doy : Int) - (153 * ((5 * (doy : Int) + 2) / 153) + 2) / 5 + 1 = (monthDay doy).2 := by
  have early : (153 * ((5 * doy + 2) / 153) + 2) / 5 ≤ doy + 1 := by omega
  unfold monthDay
  dsimp only
  rw [Nat.cast_sub early]
  push_cast
  omega

/-- A number of days by era, year and day of the year. -/
theorem civil_eq {days era : Int} {year doy : Nat} (small : year < 400)
    (within : doy < lengthOf year) (split : days + 719468 = era * 146097 + startOf year + doy) :
    civil days = dateOf (year + era * 400) doy := by
  have long := lengthOf_le year
  have inside : startOf year + doy < 146097 := by
    by_cases last : year = 399
    · have whole : startOf 399 + lengthOf ((399 : Nat) : Int) = 146097 := by decide
      rw [last] at within ⊢
      omega
    · have ends := @startOf_succ year (by omega)
      have top : startOf (year + 1) ≤ 146097 := by
        unfold startOf
        omega
      omega
  have eras : (days + 719468) / 146097 = era := by omega
  have day : (days + 719468) % 146097 = ((startOf year + doy : Nat) : Int) := by omega
  have found := yearOfEra_eq small within inside
  have years : (((startOf year + doy : Nat) : Int) - ((startOf year + doy : Nat) : Int) / 1460 +
      ((startOf year + doy : Nat) : Int) / 36524 - ((startOf year + doy : Nat) : Int) / 146096) /
        365 = year := by
    unfold yearOfEra at found
    generalize startOf year + doy = n at found ⊢
    omega
  have left : ((startOf year + doy : Nat) : Int) -
      (365 * (year : Int) + (year : Int) / 4 - (year : Int) / 100) = doy := by
    unfold startOf
    omega
  unfold civil
  dsimp only
  rw [eras, day, years, left]
  have short : doy < 366 := by omega
  have month : (if (5 * (doy : Int) + 2) / 153 < 10 then (5 * (doy : Int) + 2) / 153 + 3
      else (5 * (doy : Int) + 2) / 153 - 9) = (monthDay doy).1 := by
    unfold monthDay
    dsimp only
    split
    · rw [if_pos (by omega)]
      omega
    · rw [if_neg (by omega)]
      omega
  rw [month, cast_monthDay, dateOf, Int.toNat_natCast, Int.toNat_natCast]
  norm_cast

theorem civil_split (days : Int) : ∃ era : Int, ∃ year doy : Nat, year < 400 ∧
    doy < lengthOf year ∧ days + 719468 = era * 146097 + startOf year + doy := by
  have low := Int.emod_nonneg (days + 719468) (by decide : (146097 : Int) ≠ 0)
  have high := Int.emod_lt_of_pos (days + 719468) (by decide : (0 : Int) < 146097)
  obtain ⟨doe, here⟩ := Int.eq_ofNat_of_zero_le low
  have inside : doe < 146097 := by omega
  have first := startOf_le inside
  have last := lt_startOf inside
  refine ⟨(days + 719468) / 146097, yearOfEra doe, doe - startOf (yearOfEra doe),
    yearOfEra_lt inside, by omega, ?_⟩
  omega

/-- One day more is the next day of the calendar, across months, years and eras. -/
theorem civil_succ (days : Int) : civil (days + 1) = (civil days).next := by
  obtain ⟨era, year, doy, small, within, split⟩ := civil_split days
  rw [civil_eq small within split]
  by_cases more : doy + 1 < lengthOf year
  · have next := @civil_eq (days + 1) era year (doy + 1) small more (by
      push_cast
      omega)
    rw [next, dateOf_next]
    rw [lengthOf_era]
    exact more
  · have last : doy + 1 = lengthOf (year + era * 400) := by
      rw [lengthOf_era]
      omega
    rw [dateOf_next_last last]
    rw [lengthOf_era] at last
    have march : ∀ year, 0 < lengthOf year := by
      intro year
      unfold lengthOf
      split
      · decide
      · decide
    by_cases same : year = 399
    · have whole : startOf 399 + lengthOf ((399 : Nat) : Int) = 146097 := by decide
      have zero : startOf 0 = 0 := by decide
      rw [same] at split last
      have next := @civil_eq (days + 1) (era + 1) 0 0 (by decide) (march _) (by
        rw [zero]
        push_cast
        omega)
      rw [next, same]
      congr 1
      push_cast
      omega
    · have ends := @startOf_succ year (by omega)
      have next := @civil_eq (days + 1) era (year + 1) 0 (by omega) (march _) (by
        push_cast
        omega)
      rw [next]
      congr 1
      push_cast
      omega

theorem civil_zero : civil 0 = { year := 1970, month := 1, day := 1 } := by decide

theorem civil_valid (days : Int) : (civil days).Valid := by
  obtain ⟨era, year, doy, small, within, split⟩ := civil_split days
  rw [civil_eq small within split]
  have long := lengthOf_le year
  obtain ⟨low, high, first, last, february⟩ := monthDay_range doy (by omega)
  refine ⟨low, high, first, ?_⟩
  change (monthDay doy).2 ≤ daysIn (leap (dateOf (year + era * 400) doy).year) (monthDay doy).1
  by_cases two : (monthDay doy).1 = 2
  · have count := february two
    have year_ : (dateOf (year + era * 400) doy).year = year + era * 400 + 1 := by
      simp only [dateOf, two]
      rfl
    rw [← lengthOf_era year era] at within
    rw [year_, two, daysIn_two]
    unfold lengthOf at within
    split at within
    · rename_i leaps
      rw [if_pos leaps]
      omega
    · rename_i plain
      rw [if_neg plain]
      omega
  · rw [daysIn_other two]
    exact last

theorem civil_before {a b : Int} (earlier : a < b) : (civil a).Before (civil b) := by
  induction b, earlier using Int.leInduction with
  | base =>
      rw [civil_succ]
      exact (civil a).before_next
  | succ b _ ih =>
      rw [civil_succ]
      exact ih.trans (civil b).before_next

end Days

/-- Nanoseconds since the epoch. -/
structure SystemTime where
  nanos : Int
  deriving DecidableEq, Repr

/-- `duration_since(UNIX_EPOCH)` in whole seconds; nothing before the epoch. -/
def SystemTime.asSecs (t : SystemTime) : Nat := (t.nanos / 10 ^ 9).toNat

/-- `{:0w}` of an integer: the sign counts. -/
def padded (w : Nat) (n : Int) : Text :=
  if n < 0 then '-' :: List.leftpad (w - 1) '0' (Nat.toDigits 10 n.natAbs)
  else List.leftpad w '0' (Nat.toDigits 10 n.toNat)

def rfc3339Utc (t : SystemTime) : Text :=
  let secs := Int.bmod t.asSecs (2 ^ 64)
  let date := civil (secs / 86400)
  let s := secs % 86400
  padded 4 date.year ++ ['-'] ++ padded 2 date.month ++ ['-'] ++ padded 2 date.day ++ ['T'] ++
    padded 2 (s / 3600) ++ [':'] ++ padded 2 (s / 60 % 60) ++ [':'] ++ padded 2 (s % 60) ++ ['Z']

def hhMmUtc (t : SystemTime) : Text :=
  let s := t.asSecs % 86400
  padded 2 (s / 3600 : Nat) ++ [':'] ++ padded 2 (s / 60 % 60 : Nat)

section Order

theorem padded_eq {w n : Nat} (fits : n < 10 ^ (w + 1)) : padded (w + 1) n = fixed (w + 1) n := by
  unfold padded
  rw [if_neg (by omega), Int.toNat_natCast]
  exact leftpad_toDigits fits

/-- The numbers of a text of `rfc3339_utc`, by their widths and what follows each. -/
def shape : List (Nat × Text) :=
  [(4, ['-']), (2, ['-']), (2, ['T']), (2, [':']), (2, [':']), (2, ['Z'])]

/-- The date of a second since the epoch, and the time of day. -/
def numbers (secs : Nat) : List Nat :=
  let date := civil (secs / 86400 : Nat)
  let s := secs % 86400
  [date.year.toNat, date.month, date.day, s / 3600, s / 60 % 60, s % 60]

/-- From the epoch to the end of the year 9999. -/
def Dated (secs : Nat) : Prop := (civil (secs / 86400 : Nat)).year ≤ 9999

theorem civil_year_mono {a b : Int} (le : a ≤ b) : (civil a).year ≤ (civil b).year := by
  cases Int.lt_or_eq_of_le le with
  | inl earlier =>
      have before := civil_before earlier
      unfold Date.Before at before
      omega
  | inr same => rw [same]

theorem Dated.lt {secs : Nat} (dated : Dated secs) : secs < 2932897 * 86400 := by
  by_contra late
  have first : (civil 2932897).year = 10000 := by decide
  have above := @civil_year_mono 2932897 (secs / 86400 : Nat) (by omega)
  unfold Dated at dated
  omega

theorem year_nonneg (secs : Nat) : 1970 ≤ (civil (secs / 86400 : Nat)).year := by
  have above := @civil_year_mono 0 (secs / 86400 : Nat) (by omega)
  rw [civil_zero] at above
  exact above

theorem numbers_fit {secs : Nat} (dated : Dated secs) : Fits shape (numbers secs) := by
  have valid := civil_valid (secs / 86400 : Nat)
  obtain ⟨-, month, -, day⟩ := valid
  have days : ∀ leap month, daysIn leap month ≤ 31 := by
    intro leap month
    unfold daysIn
    split
    · split
      · decide
      · decide
    · decide
    · decide
    · decide
    · decide
    · decide
  have top := Nat.le_trans day (days _ _)
  unfold Dated at dated
  refine ⟨?_, ?_, ?_, ?_, ?_, ?_, trivial⟩
  · change (civil (secs / 86400 : Nat)).year.toNat < 10000
    omega
  · exact Nat.lt_of_le_of_lt month (by decide)
  · exact Nat.lt_of_le_of_lt top (by decide)
  · change secs % 86400 / 3600 < 100
    omega
  · change secs % 86400 / 60 % 60 < 100
    omega
  · change secs % 86400 % 60 < 100
    omega

theorem rfc3339Utc_eq {t : SystemTime} (dated : Dated t.asSecs) :
    rfc3339Utc t = spell shape (numbers t.asSecs) := by
  have small := dated.lt
  have year := year_nonneg t.asSecs
  obtain ⟨fy, fm, fd, fh, fn, fs, -⟩ := numbers_fit dated
  unfold rfc3339Utc
  generalize t.asSecs = secs at *
  have secs_ : Int.bmod secs (2 ^ 64) = secs := by
    apply Int.bmod_eq_of_le
    · omega
    · omega
  have days : (secs : Int) / 86400 = (secs / 86400 : Nat) := by omega
  have hour : (secs : Int) % 86400 / 3600 = (secs % 86400 / 3600 : Nat) := by omega
  have minute : (secs : Int) % 86400 / 60 % 60 = (secs % 86400 / 60 % 60 : Nat) := by omega
  have second : (secs : Int) % 86400 % 60 = (secs % 86400 % 60 : Nat) := by omega
  dsimp only
  rw [secs_, days, hour, minute, second]
  have four : (civil (secs / 86400 : Nat)).year = ((civil (secs / 86400 : Nat)).year.toNat : Int) := by
    omega
  rw [four, padded_eq fy, padded_eq fm, padded_eq fd, padded_eq fh, padded_eq fn, padded_eq fs]
  simp only [spell, shape, numbers, List.append_assoc, List.append_nil]

theorem numbers_lt {a b : Nat} (earlier : a < b) : numbers a < numbers b := by
  have year := year_nonneg a
  unfold numbers
  dsimp only
  by_cases day : a / 86400 = b / 86400
  · rw [day]
    iterate 3
      rw [List.cons_lt_cons_iff]
      refine Or.inr ⟨rfl, ?_⟩
    simp only [List.cons_lt_cons_iff, List.lt_irrefl, and_false, or_false]
    omega
  · have before := @civil_before (a / 86400 : Nat) (b / 86400 : Nat) (by omega)
    unfold Date.Before at before
    simp only [List.cons_lt_cons_iff]
    omega

theorem bytes_of_ascii {text : Text} (ascii : ∀ c ∈ text, c.toNat < 128) :
    text.bytes = text.map fun c => c.toNat.toUInt8 := by
  induction text with
  | nil => rfl
  | cons c text ih =>
      have low := ascii c List.mem_cons_self
      have rest := ih fun d member => ascii d (List.mem_cons_of_mem c member)
      have one : String.utf8EncodeChar c = [c.toNat.toUInt8] := by
        simp only [String.utf8EncodeChar]
        rw [if_pos (show c.val.toNat ≤ 127 from Nat.le_of_lt_succ low)]
        rfl
      rw [Text.bytes, List.flatMap_cons, one, List.map_cons, ← rest]
      rfl

theorem bytes_lt {a b : Text} (left : ∀ c ∈ a, c.toNat < 128) (right : ∀ c ∈ b, c.toNat < 128)
    (lower : a < b) : a.bytes < b.bytes := by
  rw [bytes_of_ascii left, bytes_of_ascii right]
  induction a generalizing b with
  | nil =>
      cases b with
      | nil => exact absurd lower (List.not_lt_nil [])
      | cons d b => exact List.nil_lt_cons _ _
  | cons c a ih =>
      cases b with
      | nil => exact absurd lower (List.not_lt_nil _)
      | cons d b =>
          have small := left c List.mem_cons_self
          have smallToo := right d List.mem_cons_self
          rw [List.map_cons, List.map_cons, List.cons_lt_cons_iff]
          cases List.cons_lt_cons_iff.mp lower with
          | inl head =>
              refine Or.inl (UInt8.lt_iff_toNat_lt.mpr ?_)
              have order : c.toNat < d.toNat := head
              rw [Nat.toUInt8_eq, Nat.toUInt8_eq, UInt8.toNat_ofNat', UInt8.toNat_ofNat']
              omega
          | inr tail =>
              refine Or.inr ⟨by rw [tail.1], ih (fun x member => left x ?_)
                (fun x member => right x ?_) tail.2⟩
              · exact List.mem_cons_of_mem c member
              · exact List.mem_cons_of_mem d member

theorem spell_ascii {shape : List (Nat × Text)} {ns : List Nat}
    (plain : ∀ field ∈ shape, ∀ c ∈ field.2, c.toNat < 128) :
    ∀ c ∈ spell shape ns, c.toNat < 128 := by
  have digits : ∀ w n, ∀ c ∈ fixed w n, c.toNat < 128 := by
    intro w
    induction w with
    | zero => exact fun _ _ member => absurd member List.not_mem_nil
    | succ w ih =>
        intro n c member
        cases List.mem_append.mp member with
        | inl early => exact ih _ c early
        | inr last =>
            have low := Nat.mod_lt n (by decide : 0 < 10)
            rw [List.mem_singleton.mp last, Nat.toNat_digitChar_of_lt_ten low]
            omega
  induction shape generalizing ns with
  | nil => exact fun _ member => absurd member List.not_mem_nil
  | cons field shape ih =>
      cases ns with
      | nil => exact fun _ member => absurd member List.not_mem_nil
      | cons n ns =>
          intro c member
          simp only [spell, List.mem_append] at member
          rcases member with number | sep | rest
          · exact digits _ _ c number
          · exact plain field List.mem_cons_self c sep
          · exact ih (fun field among => plain field (List.mem_cons_of_mem _ among)) c rest

theorem shape_ascii : ∀ field ∈ shape, ∀ c ∈ field.2, c.toNat < 128 := by
  simp [shape]

/-- Texts of later seconds are higher, byte by byte. -/
theorem rfc3339Utc_le {t₁ t₂ : SystemTime} (earlier : t₁.nanos ≤ t₂.nanos)
    (dated : Dated t₂.asSecs) : (rfc3339Utc t₁).bytes ≤ (rfc3339Utc t₂).bytes := by
  have secs : t₁.asSecs ≤ t₂.asSecs := by
    unfold SystemTime.asSecs
    omega
  cases Nat.lt_or_eq_of_le secs with
  | inr same =>
      rw [rfc3339Utc, rfc3339Utc, same]
      exact List.le_refl _
  | inl lower =>
      have first : Dated t₁.asSecs :=
        Int.le_trans (civil_year_mono (by omega)) dated
      have texts := spell_lt (numbers_fit first) (numbers_fit dated) (numbers_lt lower)
      rw [rfc3339Utc_eq first, rfc3339Utc_eq dated]
      exact List.le_of_lt (bytes_lt (spell_ascii shape_ascii) (spell_ascii shape_ascii) texts)

/-- What an `i64` holds. -/
def I64 (n : Int) : Prop := -2 ^ 63 ≤ n ∧ n < 2 ^ 63

/-- The day numbered 0 is the first of January 1970, every day is a date of the calendar and
is followed by the next one, nothing overflows that the first addition does not, and times in
order are texts in order. -/
theorem log_dates_are_right :
    civil 0 = { year := 1970, month := 1, day := 1 } ∧
    (∀ days, (civil days).Valid ∧ civil (days + 1) = (civil days).next) ∧
    (∀ days, I64 days → I64 (days + 719468) →
      I64 ((days + 719468) / 146097 * 400) ∧ I64 (civil days).year) ∧
    ∀ t₁ t₂ : SystemTime, 0 ≤ t₁.nanos → t₁.nanos ≤ t₂.nanos → Dated t₂.asSecs →
      (rfc3339Utc t₁).bytes ≤ (rfc3339Utc t₂).bytes := by
  refine ⟨civil_zero, fun days => ⟨civil_valid days, civil_succ days⟩, ?_,
    fun t₁ t₂ _ earlier dated => rfc3339Utc_le earlier dated⟩
  intro days low high
  obtain ⟨era, year, doy, small, within, split⟩ := civil_split days
  have long := lengthOf_le year
  have start : startOf year + doy < 146500 := by
    unfold startOf
    omega
  unfold I64 at *
  refine ⟨by omega, ?_⟩
  rw [civil_eq small within split, dateOf]
  dsimp only
  split
  · omega
  · omega

end Order
end Oxutrm.Log
