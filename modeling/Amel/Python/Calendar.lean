import Mathlib.Order.Monotone.Basic
import Amel.Python.Format

namespace Python

/-- `calendar.isleap`. -/
def isLeap (year : Nat) : Bool := year % 4 = 0 && (year % 100 ≠ 0 || year % 400 = 0)

/-- `_DAYS_IN_MONTH`. -/
def monthDays (month : Nat) : Nat := [0, 31, 28, 31, 30, 31, 30, 31, 31, 30, 31, 30, 31].getD month 0

/-- `_DAYS_BEFORE_MONTH`. -/
def monthStart (month : Nat) : Nat := [0, 0, 31, 59, 90, 120, 151, 181, 212, 243, 273, 304, 334].getD month 0

/-- `_days_in_month`. -/
def daysInMonth (year month : Nat) : Nat := if month = 2 ∧ isLeap year then 29 else monthDays month

/-- `_days_before_month`. -/
def daysBeforeMonth (year month : Nat) : Nat := monthStart month + if 2 < month ∧ isLeap year then 1 else 0

/-- `_days_before_year`. -/
def daysBeforeYear (year : Nat) : Nat := (year - 1) * 365 + (year - 1) / 4 - (year - 1) / 100 + (year - 1) / 400

/-- `date(year, month, day).toordinal()`, where 1970-01-01 has 719163. -/
def toOrdinal (year month day : Nat) : Nat := daysBeforeYear year + daysBeforeMonth year month + day

/-- The days of an era before one of its years, which start in March. -/
def eraDays (year : Nat) : Nat := 365 * year + year / 4 - year / 100

/-- The year of an era that a day of it falls in. -/
def eraYear (day : Nat) : Nat := (day - day / 1460 + day / 36524 - day / 146096) / 365

theorem eraYear_mono : Monotone eraYear := by
  refine monotone_nat_of_le_succ fun day => Nat.div_le_div_right ?_
  omega

/-- A year begins and ends where its days do. -/
theorem eraYear_ends :
    ∀ year < 400, eraYear (eraDays year) = year ∧ (year ≠ 0 → eraYear (eraDays year - 1) + 1 = year) := by
  decide +kernel

theorem eraYear_bounds {day : Nat} (inEra : day < 146097) :
    eraYear day < 400 ∧ eraDays (eraYear day) ≤ day ∧
      (day < eraDays (eraYear day + 1) ∨ eraYear day = 399 ∧ day = 146096) := by
  have last : eraYear day ≤ eraYear 146096 := eraYear_mono (Nat.le_of_lt_succ inEra)
  have small : eraYear day < 400 := Nat.lt_of_le_of_lt last (by decide)
  refine ⟨small, ?_, ?_⟩
  · by_contra before
    have nonzero : eraYear day ≠ 0 := fun zero => before (zero ▸ Nat.zero_le _)
    have previous := (eraYear_ends _ small).2 nonzero
    have within := eraYear_mono (show day ≤ eraDays (eraYear day) - 1 by omega)
    omega
  · by_contra after
    obtain ⟨notBefore, notLast⟩ := not_or.mp after
    rcases Nat.lt_or_ge (eraYear day + 1) 400 with more | ends
    · have next := (eraYear_ends _ more).1
      have within := eraYear_mono (Nat.not_lt.mp notBefore)
      omega
    · have same : eraYear day = 399 := by omega
      rw [same] at notBefore
      have full : eraDays (399 + 1) = 146096 := by decide
      omega

/-- The month of a day of a year that starts in March, and its day of the month. -/
def marchDate (day : Nat) : Nat × Nat :=
  let march := (5 * day + 2) / 153
  (if march < 10 then march + 3 else march - 9, day - (153 * march + 2) / 5 + 1)

theorem marchDate_spec : ∀ day < 366, 1 ≤ (marchDate day).1 ∧ (marchDate day).1 ≤ 12 ∧ 1 ≤ (marchDate day).2 ∧
    ((marchDate day).2 ≤ monthDays (marchDate day).1 ∨ (marchDate day).1 = 2 ∧ (marchDate day).2 = 29 ∧ day = 365) ∧
    ((marchDate day).1 ≤ 2 ∧ monthStart (marchDate day).1 + (marchDate day).2 + 305 = day ∨
      2 < (marchDate day).1 ∧ monthStart (marchDate day).1 + (marchDate day).2 = day + 60 ∧ day < 306) := by
  decide +kernel

theorem civil_eq {day : Int} {era dayOfEra : Nat} (split : day + 719468 = era * 146097 + dayOfEra)
    (inEra : dayOfEra < 146097) : civil day =
      let date := marchDate (dayOfEra - eraDays (eraYear dayOfEra))
      ((eraYear dayOfEra : Int) + era * 400 + if date.1 ≤ 2 then 1 else 0, date.1, date.2) := by
  have eraEq : (day + 719468) / 146097 = era := by omega
  have dayEq : ((day + 719468) % 146097).toNat = dayOfEra := by omega
  unfold civil
  dsimp only
  rw [eraEq, dayEq]
  rfl

theorem succ_div (n k : Nat) : (n + 1) / k = n / k + if (n + 1) % k = 0 then 1 else 0 := by
  rw [Nat.succ_div]
  simp only [Nat.dvd_iff_mod_eq_zero]

theorem eraDays_succ (year : Nat) : eraDays (year + 1) =
    eraDays year + 365 + (if (year + 1) % 4 = 0 then 1 else 0) - if (year + 1) % 100 = 0 then 1 else 0 := by
  unfold eraDays
  rw [succ_div year 4, succ_div year 100]
  split
  · split
    · omega
    · omega
  · split
    · omega
    · omega

theorem isLeap_iff (year : Nat) : isLeap year = true ↔ year % 4 = 0 ∧ (year % 100 ≠ 0 ∨ year % 400 = 0) := by
  simp [isLeap]

/-- The days before a year of the calendar, up to its first of March. -/
theorem daysBeforeYear_eq (era : Nat) {year : Nat} (small : year < 400) :
    daysBeforeYear (year + era * 400 + 1) = era * 146097 + eraDays year := by
  unfold daysBeforeYear eraDays
  rw [Nat.add_sub_cancel]
  have quarter : (year + era * 400) / 4 = year / 4 + era * 100 := by omega
  have century : (year + era * 400) / 100 = year / 100 + era * 4 := by omega
  have whole : (year + era * 400) / 400 = era := by omega
  rw [quarter, century, whole]
  omega

theorem daysBeforeYear_succ {year : Nat} (positive : 1 ≤ year) :
    daysBeforeYear (year + 1) = daysBeforeYear year + 365 + if isLeap year then 1 else 0 := by
  obtain ⟨before, rfl⟩ : ∃ before, year = before + 1 := ⟨year - 1, by omega⟩
  unfold daysBeforeYear
  simp only [isLeap_iff, Nat.add_sub_cancel]
  rw [succ_div before 4, succ_div before 100, succ_div before 400]
  by_cases century : (before + 1) % 100 = 0
  · have quarter : (before + 1) % 4 = 0 := by omega
    rw [if_pos quarter, if_pos century]
    by_cases fourth : (before + 1) % 400 = 0
    · rw [if_pos fourth, if_pos ⟨quarter, Or.inr fourth⟩]
      omega
    · rw [if_neg fourth, if_neg (fun leap => leap.2.elim (fun other => other century) fourth)]
      omega
  · have notFourth : (before + 1) % 400 ≠ 0 := by omega
    rw [if_neg century, if_neg notFourth]
    by_cases quarter : (before + 1) % 4 = 0
    · rw [if_pos quarter, if_pos ⟨quarter, Or.inl century⟩]
      omega
    · rw [if_neg quarter, if_neg (fun leap => quarter leap.1)]
      omega

/-- A year from March on has at most 366 days, and the last of so many is a leap day. -/
theorem yearRest_bounds (era : Nat) {year rest : Nat} (small : year < 400)
    (ends : eraDays year + rest < eraDays (year + 1) ∨ year = 399 ∧ eraDays year + rest = 146096) :
    rest < 366 ∧ (rest = 365 → isLeap (year + era * 400 + 1) = true) := by
  rw [eraDays_succ] at ends
  rw [isLeap_iff]
  rcases ends with within | ⟨rfl, last⟩
  · split at within
    · split at within
      · omega
      · omega
    · omega
  · rw [show eraDays 399 = 145731 by decide] at last
    omega

/-- January and February belong to the next year of the calendar. -/
theorem early_date (era : Nat) {year month date : Nat} (small : year < 400) (early : month ≤ 2)
    (dateHigh : date ≤ monthDays month ∨ month = 2 ∧ date = 29 ∧ isLeap (year + era * 400 + 1) = true) :
    date ≤ daysInMonth (year + era * 400 + 1) month ∧
      toOrdinal (year + era * 400 + 1) month date = era * 146097 + eraDays year + monthStart month + date := by
  constructor
  · unfold daysInMonth
    rcases dateHigh with short | ⟨rfl, rfl, leap⟩
    · split
      · rename_i february
        rw [february.1] at short
        exact short.trans (by decide)
      · exact short
    · rw [if_pos ⟨rfl, leap⟩]
  · unfold toOrdinal daysBeforeMonth
    rw [daysBeforeYear_eq era small, if_neg (by omega)]
    omega

theorem late_date {era year month date : Nat} (small : year < 400) (positive : 1 ≤ year + era * 400)
    (late : 2 < month) (dateHigh : date ≤ monthDays month) : date ≤ daysInMonth (year + era * 400) month ∧
      toOrdinal (year + era * 400) month date + 365 = era * 146097 + eraDays year + monthStart month + date := by
  constructor
  · unfold daysInMonth
    rw [if_neg (by omega)]
    exact dateHigh
  · have before := daysBeforeYear_eq era small
    rw [daysBeforeYear_succ positive] at before
    unfold toOrdinal daysBeforeMonth
    by_cases leap : isLeap (year + era * 400) = true
    · rw [if_pos leap] at before
      rw [if_pos ⟨late, leap⟩]
      omega
    · rw [if_neg leap] at before
      rw [if_neg (fun both => leap both.2)]
      omega

/-- The date of a day is a date of the calendar, and its ordinal is the day. -/
theorem civil_spec {day : Int} (after : -719162 ≤ day) :
    ∃ year month date : Nat, civil day = ((year : Int), month, date) ∧ 1 ≤ year ∧ (1 ≤ month ∧ month ≤ 12) ∧
      (1 ≤ date ∧ date ≤ daysInMonth year month) ∧ (toOrdinal year month date : Int) = day + 719163 := by
  obtain ⟨era, dayOfEra, split, inEra⟩ : ∃ era dayOfEra : Nat, day + 719468 = era * 146097 + dayOfEra ∧
      dayOfEra < 146097 :=
    ⟨((day + 719468) / 146097).toNat, ((day + 719468) % 146097).toNat, by omega, by omega⟩
  obtain ⟨small, begins, ends⟩ := eraYear_bounds inEra
  rw [civil_eq split inEra]
  generalize eraYear dayOfEra = year at small begins ends
  obtain ⟨rest, rfl⟩ : ∃ rest, dayOfEra = eraDays year + rest := ⟨dayOfEra - eraDays year, by omega⟩
  obtain ⟨inYear, leapDay⟩ := yearRest_bounds era small ends
  obtain ⟨monthLow, monthHigh, dateLow, dateHigh, place⟩ := marchDate_spec rest inYear
  rw [Nat.add_sub_cancel_left]
  generalize marchDate rest = found at monthLow monthHigh dateLow dateHigh place
  obtain ⟨month, date⟩ := found
  dsimp only at monthLow monthHigh dateLow dateHigh place ⊢
  rcases place with ⟨early, position⟩ | ⟨late, position, march⟩
  · obtain ⟨inMonth, ordinal⟩ :=
      early_date era small early (dateHigh.imp_right fun last => ⟨last.1, last.2.1, leapDay last.2.2⟩)
    refine ⟨year + era * 400 + 1, month, date, ?_, by omega, ⟨monthLow, monthHigh⟩, ⟨dateLow, inMonth⟩, by omega⟩
    rw [if_pos early]
    push_cast
    rfl
  · have positive : 1 ≤ year + era * 400 := by
      by_contra zero
      have first : year = 0 ∧ era = 0 := by omega
      obtain ⟨rfl, rfl⟩ := first
      rw [show eraDays 0 = 0 by decide] at split
      omega
    obtain ⟨inMonth, ordinal⟩ := late_date small positive late (by omega : date ≤ monthDays month)
    refine ⟨year + era * 400, month, date, ?_, positive, ⟨monthLow, monthHigh⟩, ⟨dateLow, inMonth⟩, by omega⟩
    rw [if_neg (by omega)]
    push_cast
    rw [Int.add_zero]

/-- The fields of a `datetime`. -/
structure Fields where
  year : Nat
  month : Nat
  day : Nat
  hour : Nat
  minute : Nat
  second : Nat
  microsecond : Nat
  year_range : 1 ≤ year ∧ year ≤ 9999
  month_range : 1 ≤ month ∧ month ≤ 12
  day_range : 1 ≤ day ∧ day ≤ daysInMonth year month
  time_range : hour < 24 ∧ minute < 60 ∧ second < 60 ∧ microsecond < 1000000

namespace Fields

/-- Microseconds since 1970-01-01 by the fields' own clock. -/
def wall (t : Fields) : Int :=
  ((toOrdinal t.year t.month t.day : Int) - 719163) * 86400000000 +
    (((t.hour * 60 + t.minute) * 60 + t.second) * 1000000 + t.microsecond : Nat)

/-- The date and the time in the form of RFC 3339, with the microseconds
where there are any. -/
def iso (t : Fields) : List Char :=
  zeroPad 4 t.year ++ '-' :: zeroPad 2 t.month ++ '-' :: zeroPad 2 t.day ++ 'T' ::
    zeroPad 2 t.hour ++ ':' :: zeroPad 2 t.minute ++ ':' :: zeroPad 2 t.second ++
      if t.microsecond = 0 then [] else '.' :: zeroPad 6 t.microsecond

end Fields

/-- A wall-clock reading in that form. -/
def isoLocal (wall : Int) : List Char :=
  let time := (wall % 86400000000).toNat
  let micros := time % 1000000
  (isoDate wall).toList ++ 'T' :: zeroPad 2 (time / 3600000000) ++ ':' :: zeroPad 2 (time / 60000000 % 60) ++
    ':' :: zeroPad 2 (time / 1000000 % 60) ++ if micros = 0 then [] else '.' :: zeroPad 6 micros

example : isoLocal 1789776000250000 = "2026-09-19T00:00:00.250000".toList := by decide +kernel

/-- Between `datetime.min` and `datetime.max`. -/
def Represented (wall : Int) : Prop := -62135596800000000 ≤ wall ∧ wall < 253402300800000000

/-- The text of a wall-clock reading names its fields. -/
theorem exists_fields {wall : Int} (represented : Represented wall) :
    ∃ t : Fields, isoLocal wall = t.iso ∧ t.wall = wall := by
  obtain ⟨low, high⟩ := represented
  obtain ⟨year, month, date, civil, positive, months, dates, ordinal⟩ :=
    civil_spec (show -719162 ≤ wall / 86400000000 by omega)
  have limit : year ≤ 9999 := by
    by_contra beyond
    unfold toOrdinal daysBeforeYear at ordinal
    omega
  let time := (wall % 86400000000).toNat
  refine ⟨⟨year, month, date, time / 3600000000, time / 60000000 % 60, time / 1000000 % 60, time % 1000000,
    ⟨positive, limit⟩, months, dates, by omega, Nat.mod_lt _ (by decide), Nat.mod_lt _ (by decide),
    Nat.mod_lt _ (by decide)⟩, ?_, ?_⟩
  · unfold isoLocal isoDate Fields.iso
    rw [civil]
    simp [time]
  · unfold Fields.wall
    dsimp only
    omega

theorem monthDays_le (month : Nat) : monthDays month ≤ 31 := by
  rcases Nat.lt_or_ge month 13 with within | beyond
  · revert within month
    decide
  · rw [monthDays, List.getD_eq_getElem?_getD, List.getElem?_eq_none_iff.mpr beyond]
    decide

theorem daysInMonth_le (year month : Nat) : daysInMonth year month ≤ 31 := by
  unfold daysInMonth
  split
  · decide
  · exact monthDays_le month

/-- The number that the characters from `start` on write. -/
def numberAt (s : List Char) (start width : Nat) : Nat := Nat.ofDigitChars 10 ((s.drop start).take width) 0

/-- The wall-clock reading of a timestamp of that form, by the places of its
fields. -/
def parseLocal (s : List Char) : Int :=
  ((toOrdinal (numberAt s 0 4) (numberAt s 5 2) (numberAt s 8 2) : Int) - 719163) * 86400000000 +
    (((numberAt s 11 2 * 60 + numberAt s 14 2) * 60 + numberAt s 17 2) * 1000000 +
      if s[19]? = some '.' then numberAt s 20 6 else 0 : Nat)

theorem drop_zeroPad {width n start : Nat} (positive : 0 < width) (fits : n < 10 ^ width) (past : width ≤ start)
    (rest : List Char) : (zeroPad width n ++ rest).drop start = rest.drop (start - width) := by
  rw [List.drop_append, length_zeroPad positive fits,
    List.drop_eq_nil_of_le (Nat.le_trans (Nat.le_of_eq (length_zeroPad positive fits)) past), List.nil_append]

theorem take_zeroPad {width n : Nat} (positive : 0 < width) (fits : n < 10 ^ width) (rest : List Char) :
    (zeroPad width n ++ rest).take width = zeroPad width n :=
  List.take_left' (length_zeroPad positive fits)

/-- The fields are read at the places they are written to. -/
theorem parseLocal_iso (t : Fields) (zone : List Char) (ends : zone.head? ≠ some '.') :
    parseLocal (t.iso ++ zone) = t.wall := by
  obtain ⟨hours, minutes, seconds, micros⟩ := t.time_range
  have year := t.year_range.2
  have month := t.month_range.2
  have day := t.day_range.2.trans (daysInMonth_le t.year t.month)
  have two {n start : Nat} (fits : n < 100) (past : 2 ≤ start) (rest : List Char) :
      (zeroPad 2 n ++ rest).drop start = rest.drop (start - 2) := drop_zeroPad (by decide) fits past rest
  have four {start : Nat} (past : 4 ≤ start) (rest : List Char) :
      (zeroPad 4 t.year ++ rest).drop start = rest.drop (start - 4) :=
    drop_zeroPad (by decide) (Nat.lt_succ_of_le year) past rest
  have read {n : Nat} (fits : n < 100) (rest : List Char) :
      Nat.ofDigitChars 10 ((zeroPad 2 n ++ rest).take 2) 0 = n := by
    rw [take_zeroPad (by decide) fits, ofDigitChars_zeroPad]
  have readYear (rest : List Char) : Nat.ofDigitChars 10 ((zeroPad 4 t.year ++ rest).take 4) 0 = t.year := by
    rw [take_zeroPad (by decide) (Nat.lt_succ_of_le year), ofDigitChars_zeroPad]
  unfold parseLocal numberAt Fields.iso Fields.wall
  rw [← List.head?_drop]
  by_cases none : t.microsecond = 0
  · simp (disch := omega) [two, four, read, readYear, none, ends]
  · have readMicros : Nat.ofDigitChars 10 ((zeroPad 6 t.microsecond ++ zone).take 6) 0 = t.microsecond := by
      rw [take_zeroPad (by decide) micros, ofDigitChars_zeroPad]
    simp (disch := omega) [two, four, read, readYear, none, readMicros]

end Python
