import UsbDvbs2.Platform.Utc
import UsbDvbs2.Stream.EventTable

/-! # The two clocks of an event

The guide and the display of the present and the following event read the start of an
event each by a conversion of its own. From the day on that the conversion of the
standard begins, both give the date of the calendar.
-/

namespace Stream

open Bytes Gregorian Platform

namespace NowNext

/-- `mjd_to_date` of the engine. -/
def mjdToDate (mjd : Nat) : Int × Int × Int :=
  let j : Int := mjd + 2400001 + 68569
  let n := (4 * j).tdiv 146097
  let j := j - (146097 * n + 3).tdiv 4
  let i := (4000 * (j + 1)).tdiv 1461001
  let j := j - (1461 * i).tdiv 4 + 31
  let month := (80 * j).tdiv 2447
  let day := j - (2447 * month).tdiv 80
  let j := month.tdiv 11
  let month := month + 2 - 12 * j
  (100 * (n - 49) + i + j, month, day)

/-- `dvb_event_timestamp`, of the five bytes at a position. -/
def dvbEventTimestamp (sec : List UInt8) (pos : Nat) : Option UInt64 :=
  if octet sec pos = 0xff ∧ octet sec (pos + 1) = 0xff then none
  else
    let (year, month, day) := mjdToDate (octet sec pos * 256 + octet sec (pos + 1))
    some <| dtvUtcTicks
      { year
        month
        day
        hour := bcdValue (octet sec (pos + 2))
        minute := bcdValue (octet sec (pos + 3))
        second := bcdValue (octet sec (pos + 4)) }

end NowNext

/-! ## Days -/

theorem number_1970 : (⟨1970, 1, 1⟩ : Date).number = 719162 := by decide

/-- The days of a valid date from the first of January 1970. -/
theorem daysFromCivil_eq {date : Date} (valid : date.Valid) :
    daysFromCivil date.year date.month date.day =
      date.number - (⟨1970, 1, 1⟩ : Date).number := by
  have month_nonneg := valid.marchMonth_nonneg
  have march : (if date.month ≤ 2 then date.year - 1 else date.year) = date.marchYear := by
    unfold Date.marchYear
    split_ifs <;> omega
  have era := tdiv_lowered date.marchYear (show 0 < (400 : Int) by decide)
  have month : date.month + (if 2 < date.month then -3 else 9) = date.marchMonth := rfl
  unfold daysFromCivil
  simp only [march, month]
  rw [show (399 : Int) = 400 - 1 from rfl, era, Int.tdiv_eq_ediv_of_nonneg (by omega),
    Int.tdiv_eq_ediv_of_nonneg (by omega), Int.tdiv_eq_ediv_of_nonneg (by omega), number_1970,
    valid.number_eq]
  unfold beforeMarch marchStart
  omega

/-! ## Dates -/

/-- The date of a modified Julian day. -/
def IsDateOf (mjd : Nat) (fields : Int × Int × Int) : Prop :=
  (⟨fields.1, fields.2.1, fields.2.2⟩ : Date).Valid ∧
    (⟨fields.1, fields.2.1, fields.2.2⟩ : Date).number = mjd + 678575

theorem IsDateOf.unique {mjd : Nat} {fields others : Int × Int × Int}
    (first : IsDateOf mjd fields) (second : IsDateOf mjd others) : fields = others := by
  have same := Date.number_strictMonoOn.injOn first.1 second.1 (first.2.trans second.2.symm)
  rw [Date.mk.injEq] at same
  exact Prod.ext same.1 (Prod.ext same.2.1 same.2.2)

/-- A day of a year from March that is the day of the number. -/
theorem isDateOf_ofMarch {mjd : Nat} {year month day : Int} {fields : Int × Int × Int}
    (fields_eq : ofMarch year month day = ⟨fields.1, fields.2.1, fields.2.2⟩)
    (first : 0 ≤ month) (last : month ≤ 11) (day_pos : 1 ≤ day)
    (day_le : marchStart month + day ≤ marchStart (month + 1))
    (leap : marchStart month + day ≤ 365 ∨ IsLeap (year + 1) ∧ marchStart month + day ≤ 366)
    (number : beforeMarch year + marchStart month + (day - 1) = mjd + 678575) :
    IsDateOf mjd fields := by
  rw [IsDateOf, ← fields_eq]
  exact ⟨valid_ofMarch first last day_pos day_le leap,
    (number_ofMarch year day first last).trans number⟩

/-- The months of the standard begin four months late and are counted by another
quotient. -/
theorem annexMonth {month : Int} (first : 4 ≤ month) (last : month ≤ 16) :
    month * 306001 / 10000 = marchStart (month - 4) + 122 := by
  unfold marchStart
  interval_cases month <;> rfl

/-- The standard takes every fourth year for a leap year, as they are from March 1900 to
February 2100. -/
theorem centuries_since_1900 {year : Int} (first : 0 ≤ year) (last : year ≤ 139) :
    (1900 + year) / 100 - (1900 + year) / 400 = 15 := by
  rcases lt_or_ge year 100 with century | century <;> omega

/-- The conversion of the standard gives the date. -/
theorem mjdToDate_isDateOf {mjd : Nat} (first : 15079 ≤ mjd) (last : mjd ≤ 65535) :
    IsDateOf mjd (mjdToDate mjd) := by
  have year_eq : (20 * (mjd : Int) - 301564).tdiv 7305 = (20 * (mjd : Int) - 301564) / 7305 :=
    Int.tdiv_eq_ediv_of_nonneg (by omega)
  generalize hyear : (20 * (mjd : Int) - 301564) / 7305 = year at year_eq
  have days_eq : (year * 1461).tdiv 4 = 365 * year + year / 4 := by
    rw [Int.tdiv_eq_ediv_of_nonneg (by omega)]
    omega
  have month_eq : (10000 * (mjd : Int) - 149561000 - 10000 * (365 * year + year / 4)).tdiv 306001 =
      (10000 * (mjd : Int) - 149561000 - 10000 * (365 * year + year / 4)) / 306001 :=
    Int.tdiv_eq_ediv_of_nonneg (by omega)
  generalize hmonth : (10000 * (mjd : Int) - 149561000 - 10000 * (365 * year + year / 4)) / 306001 =
    month at month_eq
  have month_ge : 4 ≤ month := by omega
  have month_le : month ≤ 15 := by omega
  have start_eq : (month * 306001).tdiv 10000 = marchStart (month - 4) + 122 := by
    rw [Int.tdiv_eq_ediv_of_nonneg (by omega), annexMonth month_ge (by omega)]
  have here := annexMonth month_ge (by omega)
  have next := annexMonth (show 4 ≤ month + 1 by omega) (by omega)
  have fields : mjdToDate mjd = (year + (if month = 14 ∨ month = 15 then 1 else 0) + 1900,
      month - 1 - (if month = 14 ∨ month = 15 then 1 else 0) * 12,
      mjd - 14956 - (365 * year + year / 4) - (marchStart (month - 4) + 122)) := by
    unfold mjdToDate
    simp only [year_eq, days_eq, month_eq, start_eq]
  have after : month * 306001 ≤ 10000 * ((mjd : Int) - 14956 - (365 * year + year / 4)) - 1000 := by
    omega
  have before : 10000 * ((mjd : Int) - 14956 - (365 * year + year / 4)) - 1000 <
      (month + 1) * 306001 := by omega
  have leap : (mjd : Int) - 14956 - (365 * year + year / 4) ≤ 487 ∨
      year % 4 = 3 ∧ (mjd : Int) - 14956 - (365 * year + year / 4) = 488 := by omega
  have year_le : year ≤ 139 := by omega
  have year_ge : 0 ≤ year := by omega
  generalize hrest : (mjd : Int) - 14956 - (365 * year + year / 4) = rest
    at after before leap fields
  rw [fields]
  refine @isDateOf_ofMarch mjd (1900 + year) (month - 4) (rest - (marchStart (month - 4) + 122))
    _ ?_ (by omega) (by omega) (by omega) ?_ ?_ ?_
  · unfold ofMarch
    by_cases carry : month = 14 ∨ month = 15
    · simp only [if_neg (show ¬month - 4 < 10 by omega), if_pos carry, Date.mk.injEq, and_true]
      exact ⟨by omega, by omega⟩
    · simp only [if_pos (show month - 4 < 10 by omega), if_neg carry, Date.mk.injEq, and_true]
      exact ⟨by omega, by omega⟩
  · unfold marchStart
    clear hmonth month_eq
    interval_cases month <;> omega
  · unfold IsLeap
    omega
  · have groups : (1900 + year) / 4 = 475 + year / 4 := by omega
    have centuries := centuries_since_1900 year_ge year_le
    unfold beforeMarch
    omega

/-! ## The conversion of the engine -/

/-- Its months count the days from March as the calendar does, thirty days late. -/
theorem engineMonth {month : Int} (first : 1 ≤ month) (last : month ≤ 13) :
    2447 * month / 80 = marchStart (month - 1) + 30 := by
  unfold marchStart
  interval_cases month <;> rfl

/-- Only every fourth century has a last day of its own. -/
theorem last_day_of_century {day era : Int} (century : 4 * day / 146097 = era)
    (last : day = 36524 * era + (era + 3) / 4 + 36524) : era % 4 = 0 := by
  have bound : 4 * day < 146097 * (era + 1) := by omega
  have quarter : 4 * ((era + 3) / 4) < era + 1 := by omega
  omega

/-- A year from March has its last day every fourth time, the last year of a century only
where the century does. -/
theorem last_day_of_year {day year rest : Int} (year_eq : 4000 * (day + 1) / 1461001 = year)
    (rest_eq : day - (365 * year + year / 4) + 31 = rest) (year_lt : year < 100) :
    rest ≤ 395 ∨ year % 4 = 3 ∧ (year = 99 → day = 36524) ∧ rest = 396 := by
  omega

/-- The year after such a year from March is a leap year. -/
theorem isLeap_after {era year : Int} (fourth : year % 4 = 3) (year_ge : 0 ≤ year)
    (year_lt : year < 100) (century : year = 99 → era % 4 = 0) :
    IsLeap (100 * (era - 49) + year + 1) := by
  refine ⟨by omega, ?_⟩
  rcases lt_or_eq_of_le (show year ≤ 99 by omega) with before | rfl
  · exact .inl (by omega)
  · have fourthCentury := century rfl
    exact .inr (by omega)

/-- The conversion of the engine gives the date. -/
theorem NowNext.mjdToDate_isDateOf {mjd : Nat} (last : mjd ≤ 65535) :
    IsDateOf mjd (NowNext.mjdToDate mjd) := by
  have era_eq : (4 * ((mjd : Int) + 2400001 + 68569)).tdiv 146097 =
      4 * ((mjd : Int) + 2400001 + 68569) / 146097 := Int.tdiv_eq_ediv_of_nonneg (by omega)
  generalize hera : 4 * ((mjd : Int) + 2400001 + 68569) / 146097 = era at era_eq
  have eraDays_eq : (146097 * era + 3).tdiv 4 = (146097 * era + 3) / 4 :=
    Int.tdiv_eq_ediv_of_nonneg (by omega)
  have days : (146097 * era + 3) / 4 = 36524 * era + (era + 3) / 4 := by omega
  rw [days] at eraDays_eq
  generalize hday : (mjd : Int) + 2400001 + 68569 - (36524 * era + (era + 3) / 4) = day
  have lastDay : day = 36524 → era % 4 = 0 := fun last => last_day_of_century hera (by omega)
  have day_nonneg : 0 ≤ day := by omega
  have day_lt : day < 36525 := by omega
  have year_eq : (4000 * (day + 1)).tdiv 1461001 = 4000 * (day + 1) / 1461001 :=
    Int.tdiv_eq_ediv_of_nonneg (by omega)
  generalize hyear : 4000 * (day + 1) / 1461001 = year at year_eq
  have yearDays_eq : (1461 * year).tdiv 4 = 365 * year + year / 4 := by
    rw [Int.tdiv_eq_ediv_of_nonneg (by omega)]
    omega
  generalize hrest : day - (365 * year + year / 4) + 31 = rest
  have year_ge : 0 ≤ year := by omega
  have year_lt : year < 100 := by omega
  have leap := last_day_of_year hyear hrest year_lt
  have rest_ge : 31 ≤ rest := by omega
  have month_eq : (80 * rest).tdiv 2447 = 80 * rest / 2447 :=
    Int.tdiv_eq_ediv_of_nonneg (by omega)
  generalize hmonth : 80 * rest / 2447 = month at month_eq
  have month_ge : 1 ≤ month := by omega
  have month_le : month ≤ 12 := by omega
  have start_eq : (2447 * month).tdiv 80 = marchStart (month - 1) + 30 := by
    rw [Int.tdiv_eq_ediv_of_nonneg (by omega), engineMonth month_ge (by omega)]
  have carry_eq : month.tdiv 11 = month / 11 := Int.tdiv_eq_ediv_of_nonneg (by omega)
  have fields : NowNext.mjdToDate mjd = (100 * (era - 49) + year + month / 11,
      month + 2 - 12 * (month / 11), rest - (marchStart (month - 1) + 30)) := by
    unfold NowNext.mjdToDate
    simp only [era_eq, eraDays_eq, hday, year_eq, yearDays_eq, hrest, month_eq, start_eq, carry_eq]
  have here := engineMonth month_ge (by omega)
  have next := engineMonth (show 1 ≤ month + 1 by omega) (by omega)
  have inside : 2447 * month ≠ 80 * rest := by omega
  rw [fields]
  refine @isDateOf_ofMarch mjd (100 * (era - 49) + year) (month - 1)
    (rest - (marchStart (month - 1) + 30)) _ ?_ (by omega) (by omega) (by omega) ?_ ?_ ?_
  · unfold ofMarch
    by_cases carry : month < 11
    · simp only [if_pos (show month - 1 < 10 by omega), Date.mk.injEq, and_true]
      omega
    · simp only [if_neg (show ¬month - 1 < 10 by omega), Date.mk.injEq, and_true]
      omega
  · rw [show month - 1 + 1 = month + 1 - 1 by omega]
    omega
  · rcases leap with common | ⟨fourth, last, full⟩
    · exact .inl (by omega)
    · have leap := isLeap_after fourth year_ge year_lt fun century => lastDay (last century)
      exact .inr ⟨leap, by omega⟩
  · have groups : (100 * (era - 49) + year) / 4 = 25 * (era - 49) + year / 4 := by omega
    have centuries : (100 * (era - 49) + year) / 100 = era - 49 := by omega
    have eras : (100 * (era - 49) + year) / 400 = (era + 3) / 4 - 13 := by omega
    unfold beforeMarch
    omega

/-- The two conversions agree. -/
theorem mjdToDate_eq {mjd : Nat} (first : 15079 ≤ mjd) (last : mjd ≤ 65535) :
    mjdToDate mjd = NowNext.mjdToDate mjd :=
  (mjdToDate_isDateOf first last).unique (NowNext.mjdToDate_isDateOf last)

/-! ## The start of an event -/

section Start

variable (sec : List UInt8) (pos : Nat)

/-- The day of a start field. -/
def startDay : Nat := octet sec pos * 256 + octet sec (pos + 1)

/-- The seconds of the three pairs of digits of a start field. -/
def startTime : Nat :=
  bcdValue (octet sec (pos + 2)) * 3600 + bcdValue (octet sec (pos + 3)) * 60 +
    bcdValue (octet sec (pos + 4))

variable {sec pos}

theorem startDay_le : startDay sec pos ≤ 65535 := by
  have high := octet_lt sec pos
  have low := octet_lt sec (pos + 1)
  unfold startDay
  omega

theorem startTime_le : startTime sec pos ≤ 604065 := by
  have hour := octet_lt sec (pos + 2)
  have minute := octet_lt sec (pos + 3)
  have second := octet_lt sec (pos + 4)
  unfold startTime bcdValue
  omega

/-- The guide counts the seconds of the day and of its time. -/
theorem eventStartUtc_eq (first : 15079 ≤ startDay sec pos) (defined : startDay sec pos ≠ 0xffff) :
    eventStartUtc sec pos =
      some ((startDay sec pos - 40587 : Int) * 86400 + startTime sec pos) := by
  obtain ⟨valid, number⟩ := mjdToDate_isDateOf first startDay_le
  have read : eventStartUtc sec pos =
      if startDay sec pos = 0xffff ∨ startDay sec pos = 0 then none
      else if (mjdToDate (startDay sec pos)).2.1 < 1 ∨ 12 < (mjdToDate (startDay sec pos)).2.1 ∨
        (mjdToDate (startDay sec pos)).2.2 < 1 ∨ 31 < (mjdToDate (startDay sec pos)).2.2 then none
      else some (daysFromCivil (mjdToDate (startDay sec pos)).1 (mjdToDate (startDay sec pos)).2.1
        (mjdToDate (startDay sec pos)).2.2 * 86400 + bcdValue (octet sec (pos + 2)) * 3600 +
          bcdValue (octet sec (pos + 3)) * 60 + bcdValue (octet sec (pos + 4))) := rfl
  have days := daysFromCivil_eq valid
  have day_le := valid.day_le.trans (monthLength_le _ _)
  have month_pos := valid.month_pos
  have month_le := valid.month_le
  have day_pos := valid.day_pos
  generalize mjdToDate (startDay sec pos) = fields at *
  dsimp only at day_le month_pos month_le day_pos days
  rw [read, if_neg (by omega), if_neg (by omega), days, number, number_1970, Option.some_inj,
    startTime]
  omega

variable (sec pos) in
/-- The calendar time that the display reads. -/
def eventTime : UtcTime :=
  { year := (NowNext.mjdToDate (startDay sec pos)).1
    month := (NowNext.mjdToDate (startDay sec pos)).2.1
    day := (NowNext.mjdToDate (startDay sec pos)).2.2
    hour := bcdValue (octet sec (pos + 2))
    minute := bcdValue (octet sec (pos + 3))
    second := bcdValue (octet sec (pos + 4)) }

theorem dvbEventTimestamp_some (defined : startDay sec pos ≠ 0xffff) :
    NowNext.dvbEventTimestamp sec pos = some (dtvUtcTicks (eventTime sec pos)) := by
  refine if_neg fun undefined => defined ?_
  unfold startDay
  omega

theorem eventTime_valid : (eventTime sec pos).date.Valid :=
  (NowNext.mjdToDate_isDateOf startDay_le).1

theorem eventTime_seconds :
    (eventTime sec pos).seconds =
      (startDay sec pos - 40587 : Int) * 86400 + startTime sec pos + 11644473600 := by
  have number : (eventTime sec pos).date.number = startDay sec pos + 678575 :=
    (NowNext.mjdToDate_isDateOf startDay_le).2
  have ofDay : (eventTime sec pos).ofDay = startTime sec pos := by
    unfold startTime
    dsimp only [UtcTime.ofDay, eventTime]
    omega
  rw [UtcTime.seconds, number, ofDay, UtcTime.number_1601]
  omega

/-- The display counts the ticks of the same second. -/
theorem dvbEventTimestamp_toNat :
    ((dtvUtcTicks (eventTime sec pos)).toNat : Int) =
      ((startDay sec pos - 40587 : Int) * 86400 + startTime sec pos + 11644473600) * 10000000 := by
  have time_le := @startTime_le sec pos
  have day_le := @startDay_le sec pos
  rw [dtvUtcTicks_seconds eventTime_valid, eventTime_seconds]
  · rw [eventTime_seconds]
    omega
  · rw [eventTime_seconds]
    omega

/-- A start field of a day that the conversion of the standard covers is read alike. -/
theorem event_clocks_agree (sec : List UInt8) (pos : Nat) (first : 15079 ≤ startDay sec pos)
    (defined : startDay sec pos ≠ 0xffff) :
    ∃ startUtc, eventStartUtc sec pos = some startUtc ∧
      startUtc = (startDay sec pos - 40587 : Int) * 86400 + startTime sec pos ∧
      ∃ ticks, NowNext.dvbEventTimestamp sec pos = some ticks ∧
        (ticks.toNat : Int) = (startUtc + 11644473600) * 10000000 :=
  ⟨_, eventStartUtc_eq first defined, rfl, _, dvbEventTimestamp_some defined,
    dvbEventTimestamp_toNat⟩

/-- The thirteenth of October 1993, forty-five minutes past twelve. -/
theorem event_clocks_agree_annex :
    ∃ startUtc, eventStartUtc [0xc0, 0x79, 0x12, 0x45, 0x00] 0 = some startUtc ∧
      startUtc = (startDay [0xc0, 0x79, 0x12, 0x45, 0x00] 0 - 40587 : Int) * 86400 +
        startTime [0xc0, 0x79, 0x12, 0x45, 0x00] 0 ∧
      ∃ ticks, NowNext.dvbEventTimestamp [0xc0, 0x79, 0x12, 0x45, 0x00] 0 = some ticks ∧
        (ticks.toNat : Int) = (startUtc + 11644473600) * 10000000 :=
  event_clocks_agree _ _ (by decide) (by decide)

end Start

end Stream
