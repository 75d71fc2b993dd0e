import Mathlib.Algebra.BigOperators.Group.Finset.Basic
import Mathlib.Algebra.Order.BigOperators.Group.Finset
import Mathlib.Data.Int.ConditionallyCompleteOrder
import Mathlib.Data.List.Lex
import Mathlib.Order.Interval.Finset.Nat
import Mathlib.Tactic.IntervalCases

/-! # The proleptic Gregorian calendar

A date has a number, the days between the first of January of the year one and it.
Among valid dates the number grows with the date. The day of a year that begins in
March decides month and day by one formula for every year, since the leap day is
the last of such a year.
-/

namespace Gregorian

/-! ## Dates -/

def IsLeap (year : Int) : Prop := year % 4 = 0 ∧ (year % 100 ≠ 0 ∨ year % 400 = 0)

instance (year : Int) : Decidable (IsLeap year) :=
  inferInstanceAs (Decidable (_ ∧ _))

/-- The number of days of a month. -/
def monthLength (year month : Int) : Int :=
  if month = 2 then if IsLeap year then 29 else 28
  else if month = 4 ∨ month = 6 ∨ month = 9 ∨ month = 11 then 30 else 31

structure Date where
  year : Int
  month : Int
  day : Int
  deriving DecidableEq

namespace Date

structure Valid (date : Date) : Prop where
  month_pos : 1 ≤ date.month
  month_le : date.month ≤ 12
  day_pos : 1 ≤ date.day
  day_le : date.day ≤ monthLength date.year date.month

def fields (date : Date) : List Int := [date.year, date.month, date.day]

theorem fields_injective : Function.Injective fields := by
  rintro ⟨year, month, day⟩ ⟨year', month', day'⟩ same
  simpa [fields] using same

/-- Dates are ordered by year, then by month, then by day. -/
instance : LinearOrder Date := LinearOrder.lift' fields fields_injective

theorem lt_iff {date later : Date} :
    date < later ↔ date.year < later.year ∨ date.year = later.year ∧
      (date.month < later.month ∨ date.month = later.month ∧ date.day < later.day) := by
  change date.fields < later.fields ↔ _
  simp [fields, List.cons_lt_cons_iff]

end Date

/-! ## The number of a date -/

/-- The days before a year, from the year one on. -/
def beforeYear (year : Int) : Int :=
  365 * (year - 1) + (year - 1) / 4 - (year - 1) / 100 + (year - 1) / 400

/-- The days of a year before a month. -/
def beforeMonth (year month : Int) : Int :=
  ∑ earlier ∈ Finset.range (month - 1).toNat, monthLength year (earlier + 1)

def Date.number (date : Date) : Int :=
  beforeYear date.year + beforeMonth date.year date.month + (date.day - 1)

theorem monthLength_pos (year month : Int) : 0 < monthLength year month := by
  unfold monthLength
  split_ifs <;> decide

theorem monthLength_le (year month : Int) : monthLength year month ≤ 31 := by
  unfold monthLength
  split_ifs <;> decide

theorem beforeMonth_succ (year : Int) {month : Int} (first : 1 ≤ month) :
    beforeMonth year (month + 1) = beforeMonth year month + monthLength year month := by
  have steps : (month + 1 - 1).toNat = (month - 1).toNat + 1 := by omega
  have last : ((month - 1).toNat : Int) + 1 = month := by omega
  rw [beforeMonth, steps, Finset.sum_range_succ, last, beforeMonth]

theorem beforeMonth_mono (year : Int) {month later : Int} (order : month ≤ later) :
    beforeMonth year month ≤ beforeMonth year later :=
  Finset.sum_le_sum_of_subset_of_nonneg
    (Finset.range_subset_range.mpr (Int.toNat_le_toNat (by omega)))
    fun earlier _ _ => (monthLength_pos year (earlier + 1)).le

theorem beforeMonth_nonneg (year month : Int) : 0 ≤ beforeMonth year month :=
  Finset.sum_nonneg fun earlier _ => (monthLength_pos year (earlier + 1)).le

/-- The days before a month, counted as the formula of the years from March does. -/
theorem beforeMonth_eq (year : Int) {month : Int} (first : 1 ≤ month) (last : month ≤ 13) :
    beforeMonth year month =
      if month ≤ 2 then 31 * (month - 1)
      else 59 + (if IsLeap year then 1 else 0) + (153 * (month - 3) + 2) / 5 := by
  induction month, first using Int.leInduction with
  | base => rfl
  | succ month first ih =>
      have before : month ≤ 12 := by omega
      rw [beforeMonth_succ year first, ih (by omega), monthLength]
      clear ih last
      interval_cases month <;> by_cases leap : IsLeap year <;> simp [leap]

/-- A year ends with its twelfth month. -/
theorem beforeYear_succ (year : Int) :
    beforeYear (year + 1) = beforeYear year + beforeMonth year 13 := by
  rw [beforeMonth_eq year (by decide) (by decide), beforeYear, beforeYear]
  simp only [show ¬(13 : Int) ≤ 2 by decide, ↓reduceIte, IsLeap]
  split_ifs <;> omega

theorem beforeYear_mono {year later : Int} (order : year ≤ later) :
    beforeYear year ≤ beforeYear later := by
  unfold beforeYear
  omega

namespace Date

variable {date later : Date}

theorem Valid.beforeYear_le (valid : date.Valid) : beforeYear date.year ≤ date.number := by
  have month := beforeMonth_nonneg date.year date.month
  have day := valid.day_pos
  unfold number
  omega

/-- A date comes before the month after its own. -/
theorem Valid.number_lt_month (valid : date.Valid) :
    date.number < beforeYear date.year + beforeMonth date.year (date.month + 1) := by
  have day := valid.day_le
  rw [beforeMonth_succ _ valid.month_pos]
  unfold number
  omega

theorem Valid.number_lt_year (valid : date.Valid) : date.number < beforeYear (date.year + 1) := by
  have last : date.month + 1 ≤ 13 := by have := valid.month_le; omega
  have month := beforeMonth_mono date.year last
  have here := valid.number_lt_month
  rw [beforeYear_succ]
  omega

theorem number_strictMonoOn : StrictMonoOn number {date | date.Valid} := by
  intro date valid later laterValid order
  change date.Valid at valid
  change later.Valid at laterValid
  rcases lt_iff.mp order with year | ⟨year, month | ⟨month, day⟩⟩
  · calc date.number < beforeYear (date.year + 1) := valid.number_lt_year
      _ ≤ beforeYear later.year := beforeYear_mono year
      _ ≤ later.number := laterValid.beforeYear_le
  · have here := valid.number_lt_month
    have there := beforeMonth_mono date.year (show date.month + 1 ≤ later.month from month)
    have day := laterValid.day_pos
    unfold number at here ⊢
    rw [← year]
    omega
  · unfold number
    rw [← year, ← month]
    omega

end Date

/-! ## Years that begin in March -/

/-- The days before a year that begins in March. -/
def beforeMarch (year : Int) : Int := 365 * year + year / 4 - year / 100 + year / 400 - 306

/-- Four centuries have the same days. -/
theorem beforeMarch_era (era : Int) {year : Int} (first : 0 ≤ year) (last : year < 400) :
    beforeMarch (year + era * 400) =
      era * 146097 + (365 * year + year / 4 - year / 100) - 306 := by
  have groups : (year + era * 400) / 4 = year / 4 + era * 100 := by omega
  have centuries : (year + era * 400) / 100 = year / 100 + era * 4 := by omega
  have eras : (year + era * 400) / 400 = era := by omega
  rw [beforeMarch, groups, centuries, eras]
  omega

/-- The days of a year from March before its month of a number, which begins at zero. -/
def marchStart (month : Int) : Int := (153 * month + 2) / 5

theorem marchStart_natCast (month : Nat) :
    marchStart month = ((153 * month + 2) / 5 : Nat) := by
  unfold marchStart
  omega

/-- A day of a month of a year that begins in March. -/
def ofMarch (year month day : Int) : Date :=
  if month < 10 then ⟨year, month + 3, day⟩ else ⟨year + 1, month - 9, day⟩

theorem number_ofMarch (year day : Int) {month : Int} (first : 0 ≤ month) (last : month ≤ 11) :
    (ofMarch year month day).number = beforeMarch year + marchStart month + (day - 1) := by
  unfold ofMarch Date.number beforeMarch marchStart beforeYear
  by_cases spring : month < 10
  · simp only [spring, ↓reduceIte, beforeMonth_eq year (show 1 ≤ month + 3 by omega) (by omega),
      show ¬month + 3 ≤ 2 by omega, IsLeap]
    split_ifs <;> omega
  · simp only [spring, ↓reduceIte, beforeMonth_eq (year + 1) (show 1 ≤ month - 9 by omega)
      (by omega), show month - 9 ≤ 2 by omega]
    omega

/-- The year from March that a date is in. -/
def Date.marchYear (date : Date) : Int := date.year - if date.month ≤ 2 then 1 else 0

/-- The number of the month of a date in its year from March. -/
def Date.marchMonth (date : Date) : Int := date.month + if 2 < date.month then -3 else 9

theorem Date.Valid.ofMarch_eq {date : Date} (valid : date.Valid) :
    ofMarch date.marchYear date.marchMonth date.day = date := by
  obtain ⟨year, month, day⟩ := date
  have first : 1 ≤ month := valid.month_pos
  have last : month ≤ 12 := valid.month_le
  unfold ofMarch Date.marchYear Date.marchMonth
  by_cases spring : 2 < month
  · simp [spring, show ¬month ≤ 2 by omega, show month + -3 < 10 by omega]
  · simp [spring, show month ≤ 2 by omega, show ¬month + 9 < 10 by omega]

theorem Date.Valid.marchMonth_nonneg {date : Date} (valid : date.Valid) :
    0 ≤ date.marchMonth := by
  have first := valid.month_pos
  unfold Date.marchMonth
  split_ifs <;> omega

theorem Date.Valid.marchMonth_le {date : Date} (valid : date.Valid) : date.marchMonth ≤ 11 := by
  have last := valid.month_le
  unfold Date.marchMonth
  split_ifs <;> omega

theorem Date.Valid.number_eq {date : Date} (valid : date.Valid) :
    date.number =
      beforeMarch date.marchYear + marchStart date.marchMonth + (date.day - 1) := by
  have number := number_ofMarch date.marchYear date.day valid.marchMonth_nonneg valid.marchMonth_le
  rwa [valid.ofMarch_eq] at number

/-- The months from March to January have the lengths the formula gives them. -/
theorem monthLength_ofMarch (year day : Int) {month : Int} (first : 0 ≤ month)
    (last : month < 11) :
    monthLength (ofMarch year month day).year (ofMarch year month day).month =
      marchStart (month + 1) - marchStart month := by
  interval_cases month <;> simp [ofMarch, monthLength, marchStart]

/-- February ends a year from March. -/
theorem monthLength_february (year day : Int) :
    monthLength (ofMarch year 11 day).year (ofMarch year 11 day).month =
      if IsLeap (year + 1) then 29 else 28 := by
  simp [ofMarch, monthLength]

/-- A day of a year from March falls in a month, and its last day of a leap year is
the leap day. -/
theorem valid_ofMarch {year month day : Int} (first : 0 ≤ month) (last : month ≤ 11)
    (day_pos : 1 ≤ day) (day_le : marchStart month + day ≤ marchStart (month + 1))
    (leap : marchStart month + day ≤ 365 ∨ IsLeap (year + 1) ∧ marchStart month + day ≤ 366) :
    (ofMarch year month day).Valid where
  month_pos := by
    unfold ofMarch
    split <;> simp only <;> omega
  month_le := by
    unfold ofMarch
    split <;> simp only <;> omega
  day_pos := by
    unfold ofMarch
    split <;> exact day_pos
  day_le := by
    have day_eq : (ofMarch year month day).day = day := by
      unfold ofMarch
      split <;> rfl
    rw [day_eq]
    rcases lt_or_eq_of_le last with before | rfl
    · rw [monthLength_ofMarch year day first before]
      omega
    · rw [monthLength_february]
      unfold marchStart at leap
      rcases leap with common | ⟨leap, common⟩
      · split_ifs <;> omega
      · rw [if_pos leap]
        omega

end Gregorian
