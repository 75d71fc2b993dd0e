import UsbDvbs2.Calendar.Gregorian

/-! # The calendar of the tick scale

A tick is a tenth of a microsecond, and ticks are counted from the first of January
1601. One function counts the ticks of a calendar time and another gives the calendar
time of a number of ticks. Both know the days by the years that begin in March.
-/

namespace Platform

open Gregorian

/-- `dtv_utc_time`. -/
structure UtcTime where
  year : Int
  month : Int
  day : Int
  hour : Int
  minute : Int
  second : Int
  deriving DecidableEq

/-! ## The functions -/

/-- `days_from_1601`. -/
def daysFrom1601 (year month day : Int) : Int :=
  let y := year - if month ≤ 2 then 1 else 0
  let era := (if 0 ≤ y then y else y - 399).tdiv 400
  let yoe := UInt32.ofInt (y - era * 400)
  let doy := (153 * UInt32.ofInt (month + if 2 < month then -3 else 9) + 2) / 5 +
    UInt32.ofInt day - 1
  let doe := yoe * 365 + yoe / 4 - yoe / 100 + doy
  let since1970 := era * 146097 + doe.toNat - 719468
  since1970 + 134774

/-- `dtv_utc_ticks`. -/
def dtvUtcTicks (time : UtcTime) : UInt64 :=
  let seconds := daysFrom1601 time.year time.month time.day * 86400 + time.hour * 3600 +
    time.minute * 60 + time.second
  if seconds < 0 then 0 else UInt64.ofInt seconds * 10000000

/-- `dtv_utc_split`. -/
def dtvUtcSplit (ticks : UInt64) : UtcTime :=
  let seconds := ticks / 10000000
  let z : Int := (seconds / 86400).toNat - 134774 + 719468
  let era := (if 0 ≤ z then z else z - 146096).tdiv 146097
  let doe := UInt32.ofInt (z - era * 146097)
  let yoe := (doe - doe / 1460 + doe / 36524 - doe / 146096) / 365
  let doy := doe - (365 * yoe + yoe / 4 - yoe / 100)
  let mp := (5 * doy + 2) / 153
  let secondOfDay := (seconds % 86400).toUInt32
  let month : Int := (if mp < 10 then mp + 3 else mp - 9).toNat
  { day := (doy - (153 * mp + 2) / 5 + 1).toNat
    month
    year := yoe.toNat + era * 400 + if month ≤ 2 then 1 else 0
    hour := (secondOfDay / 3600).toNat
    minute := (secondOfDay / 60 % 60).toNat
    second := (secondOfDay % 60).toNat }

/-! ## Calendar times -/

namespace UtcTime

def date (time : UtcTime) : Date := ⟨time.year, time.month, time.day⟩

def fields (time : UtcTime) : List Int :=
  [time.year, time.month, time.day, time.hour, time.minute, time.second]

theorem fields_injective : Function.Injective fields := by
  rintro ⟨year, month, day, hour, minute, second⟩
    ⟨year', month', day', hour', minute', second'⟩ same
  simpa [fields] using same

/-- Calendar times are ordered by their fields, from the year on. -/
instance : LinearOrder UtcTime := LinearOrder.lift' fields fields_injective

/-- A time of a date of the calendar. -/
structure Valid (time : UtcTime) : Prop where
  date_valid : time.date.Valid
  hour_nonneg : 0 ≤ time.hour
  hour_lt : time.hour < 24
  minute_nonneg : 0 ≤ time.minute
  minute_lt : time.minute < 60
  second_nonneg : 0 ≤ time.second
  second_lt : time.second < 60

/-- The seconds from the beginning of the day. -/
def ofDay (time : UtcTime) : Int := time.hour * 3600 + time.minute * 60 + time.second

/-- The seconds since the first of January 1601. -/
def seconds (time : UtcTime) : Int :=
  (time.date.number - (⟨1601, 1, 1⟩ : Date).number) * 86400 + time.ofDay

/-- A time whose ticks can be counted. -/
structure Counted (time : UtcTime) : Prop extends Valid time where
  from_1601 : 1601 ≤ time.year
  fits : time.seconds * 10000000 < 2 ^ 64

theorem number_1601 : (⟨1601, 1, 1⟩ : Date).number = 584388 := by decide

variable {time later : UtcTime}

theorem lt_iff : time < later ↔ time.date < later.date ∨ time.date = later.date ∧
    (time.hour < later.hour ∨ time.hour = later.hour ∧
      (time.minute < later.minute ∨ time.minute = later.minute ∧ time.second < later.second)) := by
  change time.fields < later.fields ↔ _
  simp only [fields, date, Date.lt_iff, Date.mk.injEq, List.cons_lt_cons_iff, lt_self_iff_false,
    and_false, or_false, and_or_left, or_assoc, and_assoc]

theorem Valid.ofDay_nonneg (valid : time.Valid) : 0 ≤ time.ofDay := by
  have hour := valid.hour_nonneg
  have minute := valid.minute_nonneg
  have second := valid.second_nonneg
  unfold ofDay
  omega

theorem Valid.ofDay_lt (valid : time.Valid) : time.ofDay < 86400 := by
  have hour := valid.hour_lt
  have minute := valid.minute_lt
  have second := valid.second_lt
  unfold ofDay
  omega

/-- A later time has more seconds before it. -/
theorem seconds_strictMonoOn : StrictMonoOn seconds {time | time.Valid} := by
  intro time valid later laterValid order
  change time.Valid at valid
  change later.Valid at laterValid
  unfold seconds
  rcases lt_iff.mp order with date | ⟨date, ofDay⟩
  · have days := Date.number_strictMonoOn valid.date_valid laterValid.date_valid date
    have here := valid.ofDay_lt
    have there := laterValid.ofDay_nonneg
    omega
  · have minute := valid.minute_lt
    have second := valid.second_lt
    have minute_nonneg := laterValid.minute_nonneg
    have second_nonneg := laterValid.second_nonneg
    have order : time.ofDay < later.ofDay := by
      unfold UtcTime.ofDay
      omega
    rw [date]
    omega

/-- The first of January 1601 is the first date of its scale. -/
theorem Valid.seconds_nonneg (valid : time.Valid) (from_1601 : 1601 ≤ time.year) :
    0 ≤ time.seconds := by
  have day := beforeYear_mono from_1601
  have date := valid.date_valid.beforeYear_le
  have ofDay := valid.ofDay_nonneg
  have first : beforeYear 1601 = 584388 := by decide
  change beforeYear time.year ≤ _ at date
  rw [seconds, number_1601]
  omega

theorem Valid.from_1601 (valid : time.Valid) (nonneg : 0 ≤ time.seconds) : 1601 ≤ time.year := by
  by_contra before
  have day := beforeYear_mono (show time.year + 1 ≤ 1601 by omega)
  have date := valid.date_valid.number_lt_year
  have ofDay := valid.ofDay_lt
  have first : beforeYear 1601 = 584388 := by decide
  change _ < beforeYear (time.year + 1) at date
  rw [seconds, number_1601] at nonneg
  omega

end UtcTime

/-! ## Counting days -/

/-- Truncating division of a negative number that was lowered first rounds down. -/
theorem tdiv_lowered (number : Int) {divisor : Int} (positive : 0 < divisor) :
    (if 0 ≤ number then number else number - (divisor - 1)).tdiv divisor = number / divisor := by
  split_ifs with nonneg
  · exact Int.tdiv_eq_ediv_of_nonneg nonneg
  · have parts := Int.mul_ediv_add_emod number divisor
    have rest_nonneg := Int.emod_nonneg number positive.ne'
    have rest_lt := Int.emod_lt_of_pos number positive
    have below := Int.ediv_neg_of_neg_of_pos (not_le.mp nonneg) positive
    have turned : number - (divisor - 1) =
        -(divisor - 1 - number % divisor + divisor * -(number / divisor)) := by
      rw [Int.mul_neg]
      omega
    have turned_nonneg : 0 ≤ divisor - 1 - number % divisor + divisor * -(number / divisor) := by
      omega
    rw [turned, Int.neg_tdiv, Int.tdiv_eq_ediv_of_nonneg turned_nonneg,
      Int.add_mul_ediv_left _ _ positive.ne', Int.ediv_eq_zero_of_lt (by omega) (by omega)]
    omega

theorem toNat_ofInt {number : Int} (nonneg : 0 ≤ number) (small : number < 2 ^ 32) :
    ((UInt32.ofInt number).toNat : Int) = number := by
  rw [UInt32.ofInt, UInt32.toNat_ofNat']
  omega

theorem toNat_sub_eq {first second : UInt32} {less : Nat} (second_eq : second.toNat = less)
    (le : less ≤ first.toNat) : (first - second).toNat = first.toNat - less := by
  subst second_eq
  exact UInt32.toNat_sub_of_le first second (UInt32.le_iff_toNat_le.mpr le)

theorem toNat_add_eq {first second : UInt32} {more : Nat} (second_eq : second.toNat = more)
    (lt : first.toNat + more < 2 ^ 32) : (first + second).toNat = first.toNat + more := by
  subst second_eq
  rw [UInt32.toNat_add, Nat.mod_eq_of_lt lt]

/-- The days of an era before one of its years. -/
theorem daysBefore_toNat {yoe : UInt32} (yoe_lt : yoe.toNat < 400) :
    (365 * yoe + yoe / 4 - yoe / 100).toNat =
      365 * yoe.toNat + yoe.toNat / 4 - yoe.toNat / 100 := by
  have leapDays : (365 * yoe + yoe / 4).toNat = 365 * yoe.toNat + yoe.toNat / 4 := by
    simp (disch := omega) only [UInt32.toNat_add, UInt32.toNat_mul, UInt32.toNat_div,
      UInt32.reduceToNat, Nat.mod_eq_of_lt]
  rw [toNat_sub_eq (UInt32.toNat_div _ _) (by rw [leapDays]; change _ / 100 ≤ _; omega), leapDays]
  rfl

/-- The day of an era, as the source counts it. -/
def dayOfEra (yoe month day : UInt32) : UInt32 :=
  yoe * 365 + yoe / 4 - yoe / 100 + ((153 * month + 2) / 5 + day - 1)

/-- Its unsigned arithmetic does not wrap. -/
theorem dayOfEra_toNat {yoe month day : UInt32} (yoe_lt : yoe.toNat < 400)
    (month_le : month.toNat ≤ 11) (day_pos : 1 ≤ day.toNat) (day_le : day.toNat ≤ 31) :
    (dayOfEra yoe month day).toNat =
      yoe.toNat * 365 + yoe.toNat / 4 - yoe.toNat / 100 +
        ((153 * month.toNat + 2) / 5 + day.toNat - 1) := by
  have ofYear : ((153 * month + 2) / 5 + day).toNat = (153 * month.toNat + 2) / 5 + day.toNat := by
    simp (disch := omega) only [UInt32.toNat_add, UInt32.toNat_mul, UInt32.toNat_div,
      UInt32.reduceToNat, Nat.mod_eq_of_lt]
  have first : ((153 * month + 2) / 5 + day - 1).toNat =
      (153 * month.toNat + 2) / 5 + day.toNat - 1 := by
    rw [toNat_sub_eq (show (1 : UInt32).toNat = 1 from rfl) (by omega), ofYear]
  have days : (yoe * 365 + yoe / 4 - yoe / 100).toNat =
      yoe.toNat * 365 + yoe.toNat / 4 - yoe.toNat / 100 := by
    rw [UInt32.mul_comm yoe, daysBefore_toNat yoe_lt, Nat.mul_comm]
  rw [dayOfEra, toNat_add_eq first (by omega), days]

theorem daysFrom1601_march (date : Date) :
    daysFrom1601 date.year date.month date.day =
      (if 0 ≤ date.marchYear then date.marchYear else date.marchYear - (400 - 1)).tdiv 400 *
          146097 +
        (dayOfEra
          (UInt32.ofInt (date.marchYear -
            (if 0 ≤ date.marchYear then date.marchYear else date.marchYear - (400 - 1)).tdiv 400 *
              400))
          (UInt32.ofInt date.marchMonth) (UInt32.ofInt date.day)).toNat - 719468 + 134774 :=
  rfl

/-- The days of a valid date from the first of January 1601. -/
theorem daysFrom1601_eq {date : Date} (valid : date.Valid) :
    daysFrom1601 date.year date.month date.day =
      date.number - (⟨1601, 1, 1⟩ : Date).number := by
  have month_nonneg := valid.marchMonth_nonneg
  have month_le := valid.marchMonth_le
  have day_pos := valid.day_pos
  have day_le := valid.day_le.trans (monthLength_le _ _)
  have yoe := toNat_ofInt
    (show 0 ≤ date.marchYear - date.marchYear / 400 * 400 by omega) (by omega)
  have month := toNat_ofInt month_nonneg (by omega)
  have day := toNat_ofInt (show 0 ≤ date.day by omega) (by omega)
  rw [daysFrom1601_march, tdiv_lowered _ (by decide),
    dayOfEra_toNat (by omega) (by omega) (by omega) (by omega), UtcTime.number_1601,
    valid.number_eq]
  unfold beforeMarch marchStart
  omega

/-! ## Splitting days -/

/-- The year of an era that a day is in, as the source finds it. -/
def yearOfEra (doe : Nat) : Nat := (doe - doe / 1460 + doe / 36524 - doe / 146096) / 365

/-- By the centuries of the era, the groups of four years and the days of the group. -/
theorem yearOfEra_parts {century group rest : Nat} (century_lt : century < 4)
    (group_lt : group < 25) (rest_lt : rest < 1461) (inside : 1461 * group + rest < 36524) :
    yearOfEra (36524 * century + 1461 * group + rest) =
      100 * century + 4 * group + min 3 (rest / 365) := by
  unfold yearOfEra
  have centuries : (36524 * century + 1461 * group + rest) / 36524 = century := by omega
  have leaps : (36524 * century + 1461 * group + rest) / 146096 = 0 := by omega
  have groups : (36524 * century + 1461 * group + rest) / 1460 =
      25 * century + group + (24 * century + group + rest) / 1460 := by omega
  rw [centuries, leaps, groups]
  omega

theorem exists_parts {doe : Nat} (before : doe < 146096) :
    ∃ century group rest : Nat, doe = 36524 * century + 1461 * group + rest ∧ century < 4 ∧
      group < 25 ∧ rest < 1461 ∧ 1461 * group + rest < 36524 :=
  ⟨doe / 36524, doe % 36524 / 1461, doe % 36524 % 1461, by omega, by omega, by omega, by omega,
    by omega⟩

theorem yearOfEra_spec {doe : Nat} (inEra : doe < 146097) :
    yearOfEra doe < 400 ∧ ∃ doy : Nat,
      doe = 365 * yearOfEra doe + yearOfEra doe / 4 - yearOfEra doe / 100 + doy ∧
      (doy < 365 ∨ IsLeap (yearOfEra doe + 1) ∧ doy = 365) := by
  rcases Nat.lt_or_ge doe 146096 with before | last
  · obtain ⟨century, group, rest, rfl, century_lt, group_lt, rest_lt, inside⟩ := exists_parts before
    rw [yearOfEra_parts century_lt group_lt rest_lt inside]
    have fourths : (100 * century + 4 * group + min 3 (rest / 365)) / 4 = 25 * century + group := by
      omega
    have centuries : (100 * century + 4 * group + min 3 (rest / 365)) / 100 = century := by omega
    refine ⟨by omega, rest - 365 * min 3 (rest / 365), by omega, ?_⟩
    unfold IsLeap
    omega
  · obtain rfl : doe = 146096 := by omega
    exact ⟨by decide, 365, by decide, .inr ⟨by decide, rfl⟩⟩

theorem yearOfEra_toNat {doe : UInt32} (inEra : doe.toNat < 146097) :
    ((doe - doe / 1460 + doe / 36524 - doe / 146096) / 365).toNat = yearOfEra doe.toNat := by
  have groups : (doe - doe / 1460).toNat = doe.toNat - doe.toNat / 1460 :=
    toNat_sub_eq (UInt32.toNat_div _ _) (Nat.div_le_self _ _)
  have centuries : (doe - doe / 1460 + doe / 36524).toNat =
      doe.toNat - doe.toNat / 1460 + doe.toNat / 36524 := by
    rw [toNat_add_eq (UInt32.toNat_div _ _) (by rw [groups]; change _ + _ / 36524 < _; omega),
      groups]
    rfl
  have leaps : (doe - doe / 1460 + doe / 36524 - doe / 146096).toNat =
      doe.toNat - doe.toNat / 1460 + doe.toNat / 36524 - doe.toNat / 146096 := by
    rw [toNat_sub_eq (UInt32.toNat_div _ _) (by rw [centuries]; change _ / 146096 ≤ _; omega),
      centuries]
    rfl
  rw [UInt32.toNat_div, leaps]
  rfl

theorem dayOfYear_toNat {doe yoe : UInt32} {doy : Nat} (yoe_lt : yoe.toNat < 400)
    (day : doe.toNat = 365 * yoe.toNat + yoe.toNat / 4 - yoe.toNat / 100 + doy) :
    (doe - (365 * yoe + yoe / 4 - yoe / 100)).toNat = doy := by
  rw [toNat_sub_eq (daysBefore_toNat yoe_lt) (by omega)]
  omega

theorem monthOfYear_toNat {doy : UInt32} (inYear : doy.toNat ≤ 365) :
    ((5 * doy + 2) / 153).toNat = (5 * doy.toNat + 2) / 153 := by
  simp (disch := omega) only [UInt32.toNat_add, UInt32.toNat_mul, UInt32.toNat_div,
    UInt32.reduceToNat, Nat.mod_eq_of_lt]

theorem dayOfMonth_toNat {doy mp : UInt32} (inYear : doy.toNat ≤ 365)
    (month : mp.toNat = (5 * doy.toNat + 2) / 153) :
    (doy - (153 * mp + 2) / 5 + 1).toNat = doy.toNat - (153 * mp.toNat + 2) / 5 + 1 := by
  have first : ((153 * mp + 2) / 5).toNat = (153 * mp.toNat + 2) / 5 := by
    simp (disch := omega) only [UInt32.toNat_add, UInt32.toNat_mul, UInt32.toNat_div,
      UInt32.reduceToNat, Nat.mod_eq_of_lt]
  have rest : (doy - (153 * mp + 2) / 5).toNat = doy.toNat - (153 * mp.toNat + 2) / 5 :=
    toNat_sub_eq first (by omega)
  rw [toNat_add_eq (show (1 : UInt32).toNat = 1 from rfl) (by omega), rest]

/-- The date of a day of an era, as the source finds it. -/
def eraDate (era : Int) (doe : UInt32) : Date :=
  let yoe := (doe - doe / 1460 + doe / 36524 - doe / 146096) / 365
  let doy := doe - (365 * yoe + yoe / 4 - yoe / 100)
  let mp := (5 * doy + 2) / 153
  let month : Int := (if mp < 10 then mp + 3 else mp - 9).toNat
  ⟨yoe.toNat + era * 400 + if month ≤ 2 then 1 else 0, month, (doy - (153 * mp + 2) / 5 + 1).toNat⟩

/-- A month of a year from March, in the unsigned arithmetic of the source. -/
theorem mk_eq_ofMarch (year day : Int) {mp : UInt32} (month : mp.toNat ≤ 11) :
    (⟨year + if (((if mp < 10 then mp + 3 else mp - 9).toNat : Nat) : Int) ≤ 2 then 1 else 0,
        ((if mp < 10 then mp + 3 else mp - 9).toNat : Nat), day⟩ : Date) =
      ofMarch year mp.toNat day := by
  have spring_iff : mp < 10 ↔ mp.toNat < 10 := UInt32.lt_iff_toNat_lt
  unfold ofMarch
  by_cases spring : mp < 10
  · have month_eq := toNat_add_eq (show (3 : UInt32).toNat = 3 from rfl)
      (show mp.toNat + 3 < 2 ^ 32 by omega)
    have early := spring_iff.mp spring
    rw [if_pos spring, month_eq, if_neg (by omega), if_pos (by omega), Date.mk.injEq]
    exact ⟨by omega, by omega, rfl⟩
  · have late : ¬mp.toNat < 10 := fun early => spring (spring_iff.mpr early)
    have month_eq := toNat_sub_eq (show (9 : UInt32).toNat = 9 from rfl)
      (show 9 ≤ mp.toNat by omega)
    rw [if_neg spring, month_eq, if_pos (by omega), if_neg (by omega), Date.mk.injEq]
    exact ⟨by omega, by omega, rfl⟩

theorem eraDate_eq (era : Int) {doe : UInt32} (inEra : doe.toNat < 146097) :
    ∃ doy : Nat, doe.toNat =
        365 * yearOfEra doe.toNat + yearOfEra doe.toNat / 4 - yearOfEra doe.toNat / 100 + doy ∧
      (doy < 365 ∨ IsLeap (yearOfEra doe.toNat + 1) ∧ doy = 365) ∧
      eraDate era doe = ofMarch (yearOfEra doe.toNat + era * 400) ((5 * doy + 2) / 153 : Nat)
        ((doy - (153 * ((5 * doy + 2) / 153) + 2) / 5 + 1 : Nat)) := by
  obtain ⟨yoe_lt, doy, day, leap⟩ := yearOfEra_spec inEra
  have yoe_eq := yearOfEra_toNat inEra
  dsimp only [eraDate]
  generalize (doe - doe / 1460 + doe / 36524 - doe / 146096) / 365 = yoe at yoe_eq
  rw [← yoe_eq] at yoe_lt day leap ⊢
  have doy_eq := dayOfYear_toNat yoe_lt day
  generalize doe - (365 * yoe + yoe / 4 - yoe / 100) = doy32 at doy_eq
  subst doy_eq
  have inYear : doy32.toNat ≤ 365 := by omega
  have mp_eq := monthOfYear_toNat inYear
  have day_eq := dayOfMonth_toNat inYear mp_eq
  refine ⟨doy32.toNat, day, leap, ?_⟩
  rw [← mp_eq, ← day_eq]
  exact mk_eq_ofMarch _ _ (by rw [mp_eq]; omega)

theorem eraDate_valid (era : Int) {doe : UInt32} (inEra : doe.toNat < 146097) :
    (eraDate era doe).Valid := by
  obtain ⟨doy, -, leap, date⟩ := eraDate_eq era inEra
  rw [date]
  have next := marchStart_natCast ((5 * doy + 2) / 153 + 1)
  rw [Nat.cast_add, Nat.cast_one] at next
  refine valid_ofMarch (by omega) (by omega) (by omega) ?_ ?_
  · rw [next, marchStart_natCast]
    omega
  · rw [marchStart_natCast]
    unfold IsLeap at leap ⊢
    omega

theorem eraDate_number (era : Int) {doe : UInt32} (inEra : doe.toNat < 146097) :
    (eraDate era doe).number = era * 146097 + doe.toNat - 306 := by
  obtain ⟨doy, day, leap, date⟩ := eraDate_eq era inEra
  have yoe_lt := (yearOfEra_spec inEra).1
  rw [date, number_ofMarch _ _ (by omega) (by omega), marchStart_natCast,
    beforeMarch_era era (by omega) (by omega)]
  omega

/-- A number of days as a date. -/
def dateOf (z : Int) : Date :=
  let era := (if 0 ≤ z then z else z - 146096).tdiv 146097
  eraDate era (UInt32.ofInt (z - era * 146097))

theorem dateOf_eq (z : Int) :
    dateOf z = eraDate (z / 146097) (UInt32.ofInt (z - z / 146097 * 146097)) := by
  dsimp only [dateOf]
  rw [show (146096 : Int) = 146097 - 1 from rfl, tdiv_lowered z (by decide)]

theorem dayOf_toNat (z : Int) :
    ((UInt32.ofInt (z - z / 146097 * 146097)).toNat : Int) = z - z / 146097 * 146097 :=
  toNat_ofInt (by omega) (by omega)

theorem dateOf_valid (z : Int) : (dateOf z).Valid := by
  have doe := dayOf_toNat z
  rw [dateOf_eq]
  exact eraDate_valid _ (by omega)

theorem dateOf_number (z : Int) : (dateOf z).number = z - 306 := by
  have doe := dayOf_toNat z
  rw [dateOf_eq, eraDate_number _ (by omega)]
  omega

/-! ## The two functions -/

section Split

variable (ticks : UInt64)

theorem dtvUtcSplit_date :
    (dtvUtcSplit ticks).date =
      dateOf ((ticks / 10000000 / 86400).toNat - 134774 + 719468) :=
  rfl

theorem dtvUtcSplit_ofDay :
    (dtvUtcSplit ticks).ofDay = (ticks.toNat / 10000000 % 86400 : Nat) := by
  have ofDay : ((ticks / 10000000 % 86400).toUInt32).toNat = ticks.toNat / 10000000 % 86400 := by
    rw [UInt64.toNat_toUInt32, UInt64.toNat_mod, UInt64.toNat_div]
    change ticks.toNat / 10000000 % 86400 % 4294967296 = _
    omega
  dsimp only [UtcTime.ofDay, dtvUtcSplit]
  rw [← ofDay]
  generalize (ticks / 10000000 % 86400).toUInt32 = day
  simp only [UInt32.toNat_div, UInt32.toNat_mod, UInt32.reduceToNat]
  omega

theorem dtvUtcSplit_valid : (dtvUtcSplit ticks).Valid where
  date_valid := dateOf_valid _
  hour_nonneg := Int.natCast_nonneg _
  minute_nonneg := Int.natCast_nonneg _
  second_nonneg := Int.natCast_nonneg _
  hour_lt := by
    have day := Nat.mod_lt (ticks.toNat / 10000000) (show 0 < 86400 by decide)
    dsimp only [dtvUtcSplit]
    rw [UInt32.toNat_div, UInt64.toNat_toUInt32, UInt64.toNat_mod, UInt64.toNat_div]
    change ((ticks.toNat / 10000000 % 86400 % 4294967296 / 3600 : Nat) : Int) < 24
    omega
  minute_lt := by
    dsimp only [dtvUtcSplit]
    rw [UInt32.toNat_mod]
    exact Int.ofNat_lt.mpr (Nat.mod_lt _ (by decide))
  second_lt := by
    dsimp only [dtvUtcSplit]
    rw [UInt32.toNat_mod]
    exact Int.ofNat_lt.mpr (Nat.mod_lt _ (by decide))

theorem dtvUtcSplit_seconds : (dtvUtcSplit ticks).seconds = (ticks.toNat / 10000000 : Nat) := by
  have days : (ticks / 10000000 / 86400).toNat = ticks.toNat / 10000000 / 86400 := by
    rw [UInt64.toNat_div, UInt64.toNat_div]
    rfl
  rw [UtcTime.seconds, dtvUtcSplit_ofDay, dtvUtcSplit_date, dateOf_number, days,
    UtcTime.number_1601]
  omega

/-- Every number of ticks is split into a time whose ticks can be counted. -/
theorem dtvUtcSplit_counted : (dtvUtcSplit ticks).Counted where
  toValid := dtvUtcSplit_valid ticks
  from_1601 := by
    refine (dtvUtcSplit_valid ticks).from_1601 ?_
    rw [dtvUtcSplit_seconds]
    exact Int.natCast_nonneg _
  fits := by
    have small := ticks.toNat_lt
    rw [dtvUtcSplit_seconds]
    omega

end Split

section Ticks

variable {time later : UtcTime}

theorem UtcTime.Counted.seconds_nonneg (counted : time.Counted) : 0 ≤ time.seconds :=
  counted.toValid.seconds_nonneg counted.from_1601

/-- The ticks of a time are those of its seconds, also where its hours are no hours
of a day. -/
theorem dtvUtcTicks_seconds (date_valid : time.date.Valid) (nonneg : 0 ≤ time.seconds)
    (fits : time.seconds * 10000000 < 2 ^ 64) :
    ((dtvUtcTicks time).toNat : Int) = time.seconds * 10000000 := by
  have seconds : daysFrom1601 time.year time.month time.day * 86400 + time.hour * 3600 +
      time.minute * 60 + time.second = time.seconds := by
    have days := daysFrom1601_eq date_valid
    rw [UtcTime.seconds, UtcTime.ofDay, ← days]
    dsimp only [UtcTime.date]
    omega
  rw [dtvUtcTicks]
  simp only [seconds]
  rw [if_neg (by omega), UInt64.toNat_mul, UInt64.ofInt, UInt64.toNat_ofNat']
  change (((time.seconds % 2 ^ 64).toNat % 2 ^ 64 * 10000000 % 2 ^ 64 : Nat) : Int) = _
  omega

theorem dtvUtcTicks_toNat (counted : time.Counted) :
    ((dtvUtcTicks time).toNat : Int) = time.seconds * 10000000 :=
  dtvUtcTicks_seconds counted.date_valid counted.seconds_nonneg counted.fits

/-- Splitting the ticks of a time gives the time again. -/
theorem dtvUtcSplit_ticks (counted : time.Counted) : dtvUtcSplit (dtvUtcTicks time) = time := by
  refine UtcTime.seconds_strictMonoOn.injOn (dtvUtcSplit_valid _) counted.toValid ?_
  have ticks := dtvUtcTicks_toNat counted
  rw [dtvUtcSplit_seconds]
  omega

theorem dtvUtcTicks_lt (counted : time.Counted) (laterCounted : later.Counted)
    (order : time < later) : dtvUtcTicks time < dtvUtcTicks later := by
  have seconds := UtcTime.seconds_strictMonoOn counted.toValid laterCounted.toValid order
  have here := dtvUtcTicks_toNat counted
  have there := dtvUtcTicks_toNat laterCounted
  rw [UInt64.lt_iff_toNat_lt]
  omega

/-- The ticks of a split time are the whole seconds of the ticks split. -/
theorem dtvUtcTicks_split (ticks : UInt64) :
    dtvUtcTicks (dtvUtcSplit ticks) = ticks - ticks % 10000000 := by
  have counted := dtvUtcTicks_toNat (dtvUtcSplit_counted ticks)
  have rest : (ticks % 10000000).toNat = ticks.toNat % 10000000 := UInt64.toNat_mod _ _
  have rest_le : ticks % 10000000 ≤ ticks := by
    rw [UInt64.le_iff_toNat_le, rest]
    exact Nat.mod_le _ _
  rw [dtvUtcSplit_seconds] at counted
  rw [← UInt64.toNat_inj, UInt64.toNat_sub_of_le _ _ rest_le, rest]
  omega

end Ticks

/-- The ticks count the calendar times from the first of January 1601 on that fit 64
bits: the two functions undo each other up to a second, and keep the order. -/
theorem utc_calendar :
    (∀ time : UtcTime, time.Counted → dtvUtcSplit (dtvUtcTicks time) = time) ∧
    (∀ ticks : UInt64, (dtvUtcSplit ticks).Counted ∧
      dtvUtcTicks (dtvUtcSplit ticks) = ticks - ticks % 10000000) ∧
    (∀ time later : UtcTime, time.Counted → later.Counted → time.fields < later.fields →
      dtvUtcTicks time < dtvUtcTicks later) :=
  ⟨fun _ counted => dtvUtcSplit_ticks counted,
    fun ticks => ⟨dtvUtcSplit_counted ticks, dtvUtcTicks_split ticks⟩,
    fun _ _ counted laterCounted order => dtvUtcTicks_lt counted laterCounted order⟩

theorem utc_calendar_leap_day :
    dtvUtcSplit (dtvUtcTicks ⟨2024, 2, 29, 23, 59, 58⟩) = ⟨2024, 2, 29, 23, 59, 58⟩ :=
  utc_calendar.1 _ ⟨⟨⟨by decide, by decide, by decide, by decide⟩, by decide, by decide, by decide,
    by decide, by decide, by decide⟩, by decide, by decide⟩

end Platform
