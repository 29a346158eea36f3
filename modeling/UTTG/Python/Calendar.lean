import Mathlib

/-!
# Dates of the proleptic Gregorian calendar

`date.toordinal`, `date.fromordinal` and the subtraction of a `timedelta` from a
`datetime`, with the fields of dates and times in their ranges.  A subtraction
leaves the calendar where the day is before the first of year 1 or after the
last of year 9999, and otherwise gives the datetime of the exact difference.
-/

namespace UTTG.Python

/-- `_is_leap`. -/
def isLeap (year : ℕ) : Bool :=
  year % 4 = 0 && (year % 100 ≠ 0 || year % 400 = 0)

/-- `_days_before_year`. -/
def daysBeforeYear (year : ℕ) : ℕ :=
  let before := year - 1
  before * 365 + before / 4 - before / 100 + before / 400

/-- `_days_in_month`, for a leap year or not. -/
def daysInMonth (leap : Bool) (month : ℕ) : ℕ :=
  if month = 2 && leap then 29
  else [0, 31, 28, 31, 30, 31, 30, 31, 31, 30, 31, 30, 31].getD month 0

/-- `_days_before_month`, for a leap year or not. -/
def daysBeforeMonth (leap : Bool) (month : ℕ) : ℕ :=
  [0, 0, 31, 59, 90, 120, 151, 181, 212, 243, 273, 304, 334].getD month 0 +
    if 2 < month && leap then 1 else 0

/-- `_MAXORDINAL`, the last day of year 9999. -/
def maxOrdinal : ℕ := 3652059

structure Date where
  year : ℕ
  month : ℕ
  day : ℕ
  year_pos : 1 ≤ year
  year_le : year ≤ 9999
  month_pos : 1 ≤ month
  month_le : month ≤ 12
  day_pos : 1 ≤ day
  day_le : day ≤ daysInMonth (isLeap year) month
  deriving DecidableEq

/-- `date.toordinal`, counting from 1 on the first day of year 1. -/
def Date.toordinal (date : Date) : ℕ :=
  daysBeforeYear date.year + daysBeforeMonth (isLeap date.year) date.month +
    date.day

theorem daysBeforeMonth_add_le : ∀ leap : Bool, ∀ month ≤ 12,
    daysBeforeMonth leap month + daysInMonth leap month ≤
      if leap then 366 else 365 := by
  decide

/-- The first and the last day of the calendar. -/
theorem Date.toordinal_mem (date : Date) :
    1 ≤ date.toordinal ∧ date.toordinal ≤ maxOrdinal := by
  have hyear := date.year_le
  have hpos := date.day_pos
  have hday := date.day_le
  have hmonth :=
    daysBeforeMonth_add_le (isLeap date.year) date.month date.month_le
  have hleap : isLeap date.year = true → date.year ≠ 9999 := by
    rintro hleap heq
    rw [heq] at hleap
    contradiction
  rw [Date.toordinal, daysBeforeYear, maxOrdinal]
  cases hcase : isLeap date.year <;> rw [hcase] at hmonth hday
  · rw [if_neg Bool.false_ne_true] at hmonth
    omega
  · have hne := hleap hcase
    rw [if_pos rfl] at hmonth
    omega

/-- The month and the day of the day of a year that is `index` days after the
first. -/
def monthAndDay (leap : Bool) (index : ℕ) : ℕ × ℕ :=
  let month := (index + 50) / 32
  let preceding := daysBeforeMonth leap month
  if index < preceding then
    (month - 1, index - (preceding - daysInMonth leap (month - 1)) + 1)
  else (month, index - preceding + 1)

/-- `_ord2ymd`: the cycles of 400, 100, 4 and 1 years are taken off in turn. -/
def ord2ymd (ordinal : ℕ) : ℕ × ℕ × ℕ :=
  let index := ordinal - 1
  let n400 := index / 146097
  let index := index % 146097
  let n100 := index / 36524
  let index := index % 36524
  let n4 := index / 1461
  let index := index % 1461
  let n1 := index / 365
  let index := index % 365
  let year := n400 * 400 + 1 + n100 * 100 + n4 * 4 + n1
  if n1 = 4 || n100 = 4 then (year - 1, 12, 31)
  else
    let leap := n1 = 3 && (n4 ≠ 24 || n100 = 3)
    (year, monthAndDay leap index)

/-! ## Ordinals of days -/

theorem monthAndDay_spec : ∀ leap : Bool, ∀ index < 365,
    (1 ≤ (monthAndDay leap index).1 ∧ (monthAndDay leap index).1 ≤ 12) ∧
      (1 ≤ (monthAndDay leap index).2 ∧
        (monthAndDay leap index).2 ≤
          daysInMonth leap (monthAndDay leap index).1) ∧
      daysBeforeMonth leap (monthAndDay leap index).1 +
        (monthAndDay leap index).2 = index + 1 := by
  decide +kernel

section Cycles

variable {n400 n100 n4 n1 : ℕ} (h100 : n100 ≤ 3) (h4 : n4 ≤ 24) (h1 : n1 ≤ 3)
include h100 h4 h1

theorem daysBeforeYear_cycles :
    daysBeforeYear (n400 * 400 + 1 + n100 * 100 + n4 * 4 + n1) =
      n400 * 146097 + n100 * 36524 + n4 * 1461 + n1 * 365 := by
  simp only [daysBeforeYear]
  omega

theorem isLeap_cycles :
    isLeap (n400 * 400 + 1 + n100 * 100 + n4 * 4 + n1) =
      (n1 = 3 && (n4 ≠ 24 || n100 = 3) : Bool) := by
  rw [Bool.eq_iff_iff]
  simp only [isLeap, Bool.and_eq_true, Bool.or_eq_true, decide_eq_true_eq]
  omega

end Cycles

/-- What the fields of a day of the calendar must be. -/
def IsDay (ordinal year month day : ℕ) : Prop :=
  (1 ≤ year ∧ year ≤ 9999) ∧ (1 ≤ month ∧ month ≤ 12) ∧
    (1 ≤ day ∧ day ≤ daysInMonth (isLeap year) month) ∧
    daysBeforeYear year + daysBeforeMonth (isLeap year) month + day = ordinal

/-- The last day of a leap year, which is the last of four. -/
theorem isDay_lastOfLeap {ordinal : ℕ} (n400 n100 n4 : ℕ) (h100 : n100 ≤ 3)
    (h4 : n4 ≤ 24) (hleap : n4 ≠ 24 ∨ n100 = 3) (hlast : ordinal ≤ 3652059)
    (hordinal : ordinal = n400 * 146097 + n100 * 36524 + n4 * 1461 + 1461) :
    IsDay ordinal (n400 * 400 + 1 + n100 * 100 + n4 * 4 + 3) 12 31 := by
  rw [IsDay, isLeap_cycles h100 h4 le_rfl, daysBeforeYear_cycles h100 h4 le_rfl]
  have htrue : ((3 : ℕ) = 3 && (n4 ≠ 24 || n100 = 3) : Bool) = true := by
    simpa using hleap
  have hbefore : daysBeforeMonth true 12 = 335 := rfl
  rw [htrue, hbefore]
  exact ⟨by omega, by decide, by decide, by omega⟩

/-- The fields of a day of the calendar. -/
theorem ord2ymd_spec {ordinal : ℕ} (hpositive : 1 ≤ ordinal)
    (hle : ordinal ≤ maxOrdinal) :
    IsDay ordinal (ord2ymd ordinal).1 (ord2ymd ordinal).2.1
      (ord2ymd ordinal).2.2 := by
  rw [maxOrdinal] at hle
  simp only [ord2ymd]
  generalize hindex : ordinal - 1 = index
  generalize h400 : index / 146097 = n400
  generalize hrest400 : index % 146097 = rest400
  generalize h100 : rest400 / 36524 = n100
  generalize hrest100 : rest400 % 36524 = rest100
  generalize h4 : rest100 / 1461 = n4
  generalize hrest4 : rest100 % 1461 = rest4
  generalize h1 : rest4 / 365 = n1
  generalize hrest1 : rest4 % 365 = rest1
  split_ifs with hlast
  · rw [Bool.or_eq_true, decide_eq_true_eq, decide_eq_true_eq] at hlast
    rcases hlast with hlast | hlast
    · have hyear : n400 * 400 + 1 + n100 * 100 + n4 * 4 + n1 - 1 =
          n400 * 400 + 1 + n100 * 100 + n4 * 4 + 3 := by omega
      rw [hyear]
      apply isDay_lastOfLeap n400 n100 n4 <;> omega
    · have hyear : n400 * 400 + 1 + n100 * 100 + n4 * 4 + n1 - 1 =
          n400 * 400 + 1 + 3 * 100 + 24 * 4 + 3 := by omega
      rw [hyear]
      apply isDay_lastOfLeap n400 3 24 <;> omega
  · rw [Bool.or_eq_true, decide_eq_true_eq, decide_eq_true_eq] at hlast
    have hn100 : n100 ≤ 3 := by omega
    have hn4 : n4 ≤ 24 := by omega
    have hn1 : n1 ≤ 3 := by omega
    obtain ⟨hmonth, hday, hbefore⟩ :=
      monthAndDay_spec (n1 = 3 && (n4 ≠ 24 || n100 = 3)) rest1 (by omega)
    refine ⟨by omega, hmonth, ?_, ?_⟩
    · rwa [isLeap_cycles hn100 hn4 hn1]
    · rw [isLeap_cycles hn100 hn4 hn1, daysBeforeYear_cycles hn100 hn4 hn1,
        add_assoc, hbefore]
      omega

/-- `date.fromordinal`. -/
def Date.fromordinal (ordinal : ℕ) (hpositive : 1 ≤ ordinal)
    (hle : ordinal ≤ maxOrdinal) : Date where
  year := (ord2ymd ordinal).1
  month := (ord2ymd ordinal).2.1
  day := (ord2ymd ordinal).2.2
  year_pos := (ord2ymd_spec hpositive hle).1.1
  year_le := (ord2ymd_spec hpositive hle).1.2
  month_pos := (ord2ymd_spec hpositive hle).2.1.1
  month_le := (ord2ymd_spec hpositive hle).2.1.2
  day_pos := (ord2ymd_spec hpositive hle).2.2.1.1
  day_le := (ord2ymd_spec hpositive hle).2.2.1.2

@[simp]
theorem Date.toordinal_fromordinal {ordinal : ℕ} (hpositive : 1 ≤ ordinal)
    (hle : ordinal ≤ maxOrdinal) :
    (Date.fromordinal ordinal hpositive hle).toordinal = ordinal :=
  (ord2ymd_spec hpositive hle).2.2.2

/-! ## Datetimes without a zone -/

structure Time where
  hour : ℕ
  minute : ℕ
  second : ℕ
  microsecond : ℕ
  hour_lt : hour < 24
  minute_lt : minute < 60
  second_lt : second < 60
  microsecond_lt : microsecond < 1000000
  deriving DecidableEq

/-- The microseconds of a day. -/
def dayLength : ℕ := 86400000000

namespace Time

def seconds (time : Time) : ℕ :=
  time.hour * 3600 + time.minute * 60 + time.second

def microseconds (time : Time) : ℕ :=
  time.seconds * 1000000 + time.microsecond

theorem seconds_lt (time : Time) : time.seconds < 86400 := by
  have hhour := time.hour_lt
  have hminute := time.minute_lt
  have hsecond := time.second_lt
  rw [seconds]
  omega

theorem microseconds_lt (time : Time) : time.microseconds < dayLength := by
  have hseconds := time.seconds_lt
  have hmicrosecond := time.microsecond_lt
  rw [microseconds, dayLength]
  omega

theorem seconds_eq (time : Time) :
    time.seconds = time.microseconds / 1000000 := by
  have hmicrosecond := time.microsecond_lt
  rw [microseconds]
  omega

theorem microsecond_eq (time : Time) :
    time.microsecond = time.microseconds % 1000000 := by
  have hmicrosecond := time.microsecond_lt
  rw [microseconds]
  omega

/-- The time of day from the seconds and microseconds of a `timedelta`. -/
def ofMicroseconds (number : ℕ) (hlt : number < dayLength) : Time where
  hour := number / 1000000 / 3600
  minute := number / 1000000 % 3600 / 60
  second := number / 1000000 % 3600 % 60
  microsecond := number % 1000000
  hour_lt := by rw [dayLength] at hlt; omega
  minute_lt := by omega
  second_lt := by omega
  microsecond_lt := by omega

@[simp]
theorem microseconds_ofMicroseconds {number : ℕ} (hlt : number < dayLength) :
    (ofMicroseconds number hlt).microseconds = number := by
  simp only [microseconds, seconds, ofMicroseconds]
  omega

end Time

/-- A `datetime` without `tzinfo`. -/
structure Naive where
  date : Date
  time : Time
  deriving DecidableEq

/-- The exception that leaving the calendar raises. -/
inductive OverflowError where
  | dateValueOutOfRange
  deriving DecidableEq

namespace Naive

/-- The microseconds from the day before the calendar starts. -/
def microseconds (value : Naive) : ℤ :=
  value.date.toordinal * dayLength + value.time.microseconds

theorem ordinal_eq (value : Naive) :
    value.date.toordinal = value.microseconds / dayLength := by
  have hlt : (value.time.microseconds : ℤ) < dayLength :=
    Int.ofNat_lt.mpr value.time.microseconds_lt
  rw [microseconds, mul_comm, Int.add_comm,
    Int.add_mul_ediv_left _ _ (by decide),
    Int.ediv_eq_zero_of_lt (Int.natCast_nonneg _) hlt, zero_add]

theorem time_eq (value : Naive) :
    value.time.microseconds = value.microseconds % dayLength := by
  have hlt : (value.time.microseconds : ℤ) < dayLength :=
    Int.ofNat_lt.mpr value.time.microseconds_lt
  rw [microseconds, mul_comm, Int.add_comm, Int.add_mul_emod_self_left,
    Int.emod_eq_of_lt (Int.natCast_nonneg _) hlt]

/-- `value - timedelta(microseconds=offset)`. -/
def subtract (value : Naive) (offset : ℤ) : Except OverflowError Naive :=
  let difference := value.microseconds - offset
  let days := difference / dayLength
  let rest := difference % dayLength
  if hdays : 0 < days ∧ days ≤ maxOrdinal then
    .ok
      { date := Date.fromordinal days.toNat (by omega) (by omega)
        time := Time.ofMicroseconds rest.toNat
          ((Int.toNat_lt_of_ne_zero (by decide)).mpr
            (Int.emod_lt_of_pos _ (by decide))) }
  else .error .dateValueOutOfRange

end Naive

/-- A time within the years 1 to 9999. -/
def InCalendar (microseconds : ℤ) : Prop :=
  0 < microseconds / dayLength ∧ microseconds / dayLength ≤ maxOrdinal

instance (microseconds : ℤ) : Decidable (InCalendar microseconds) :=
  inferInstanceAs (Decidable (_ ∧ _))

namespace Naive

variable {value : Naive} {offset : ℤ}

theorem inCalendar (value : Naive) : InCalendar value.microseconds := by
  rw [InCalendar, ← ordinal_eq]
  exact ⟨Int.natCast_pos.mpr value.date.toordinal_mem.1,
    Int.ofNat_le.mpr value.date.toordinal_mem.2⟩

theorem exists_subtract_eq_ok
    (hcalendar : InCalendar (value.microseconds - offset)) :
    ∃ result, value.subtract offset = .ok result ∧
      result.microseconds = value.microseconds - offset := by
  have hrest : 0 ≤ (value.microseconds - offset) % dayLength :=
    Int.emod_nonneg _ (by decide)
  refine ⟨_, dif_pos hcalendar, ?_⟩
  rw [microseconds, Date.toordinal_fromordinal,
    Time.microseconds_ofMicroseconds, Int.toNat_of_nonneg hcalendar.1.le,
    Int.toNat_of_nonneg hrest, Int.ediv_mul_add_emod]

theorem subtract_eq_error
    (hcalendar : ¬InCalendar (value.microseconds - offset)) :
    value.subtract offset = .error .dateValueOutOfRange :=
  dif_neg hcalendar

end Naive

end UTTG.Python
