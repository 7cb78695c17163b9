import Mathlib.Algebra.BigOperators.Group.Finset.Basic
import Mathlib.Algebra.Order.BigOperators.Group.Finset
import Mathlib.Tactic.IntervalCases

/-!
# The Gregorian calendar

Dates, and the number of a date: how many days there are before it, counted year
by year and month by month.  The day after a date has the next number, so every
number is the number of a date, and of only one.
-/

set_option autoImplicit false

namespace Nixnas.Logic

/-! ## Years and months -/

/-- Every fourth year, of the full centuries every fourth. -/
def IsLeap (year : Nat) : Prop := 4 ∣ year ∧ (¬ 100 ∣ year ∨ 400 ∣ year)

instance : DecidablePred IsLeap := fun year =>
  inferInstanceAs (Decidable (4 ∣ year ∧ (¬ 100 ∣ year ∨ 400 ∣ year)))

def monthLength (year : Nat) : Nat → Nat
  | 2 => if IsLeap year then 29 else 28
  | 4 | 6 | 9 | 11 => 30
  | _ => 31

/-- The days of a year before a month. -/
def monthStart (year month : Nat) : Nat :=
  ∑ before ∈ Finset.range (month - 1), monthLength year (before + 1)

def yearLength (year : Nat) : Nat := monthStart year 13

/-- The days before a year. -/
def yearStart (year : Nat) : Nat := ∑ before ∈ Finset.range year, yearLength before

theorem monthLength_pos (year month : Nat) : 1 ≤ monthLength year month := by
  rw [monthLength.eq_def]
  split
  · split <;> decide
  all_goals decide

theorem monthLength_le (year month : Nat) : monthLength year month ≤ 31 := by
  rw [monthLength.eq_def]
  split
  · split <;> decide
  all_goals decide

theorem monthStart_succ {year month : Nat} (isMonth : 1 ≤ month) :
    monthStart year (month + 1) = monthStart year month + monthLength year month := by
  obtain ⟨before, rfl⟩ := Nat.exists_eq_add_of_le' isMonth
  exact Finset.sum_range_succ (fun before => monthLength year (before + 1)) before

theorem monthStart_mono (year : Nat) {month later : Nat} (le : month ≤ later) :
    monthStart year month ≤ monthStart year later :=
  Finset.sum_le_sum_of_subset (Finset.range_mono (Nat.sub_le_sub_right le 1))

theorem yearStart_succ (year : Nat) : yearStart (year + 1) = yearStart year + yearLength year :=
  Finset.sum_range_succ yearLength year

theorem yearStart_mono {year later : Nat} (le : year ≤ later) : yearStart year ≤ yearStart later :=
  Finset.sum_le_sum_of_subset (Finset.range_mono le)

/-! ## Dates -/

@[ext]
structure Date where
  year : Nat
  month : Nat
  day : Nat
  isMonth : 1 ≤ month ∧ month ≤ 12
  isDay : 1 ≤ day ∧ day ≤ monthLength year month
  deriving DecidableEq

namespace Date

/-- The days before a date, from the start of the year 0. -/
def dayNumber (date : Date) : Nat :=
  yearStart date.year + monthStart date.year date.month + (date.day - 1)

/-- The days from one date to another. -/
def daysSince (date origin : Date) : Int := date.dayNumber - origin.dayNumber

/-- The first day of a year. -/
def newYear (year : Nat) : Date := ⟨year, 1, 1, by decide, Nat.le_refl 1, monthLength_pos year 1⟩

/-- The day after. -/
def next (date : Date) : Date :=
  if inMonth : date.day < monthLength date.year date.month then
    { date with
      day := date.day + 1
      isDay := ⟨Nat.le_add_left 1 date.day, inMonth⟩ }
  else if inYear : date.month < 12 then
    { year := date.year
      month := date.month + 1
      day := 1
      isMonth := ⟨Nat.le_add_left 1 date.month, inYear⟩
      isDay := ⟨Nat.le_refl 1, monthLength_pos _ _⟩ }
  else newYear (date.year + 1)

theorem dayNumber_newYear (year : Nat) : (newYear year).dayNumber = yearStart year := rfl

theorem dayNumber_next (date : Date) : date.next.dayNumber = date.dayNumber + 1 := by
  have isMonth := date.isMonth
  have isDay := date.isDay
  rw [next]
  split
  · simp only [dayNumber]
    omega
  · split
    · simp only [dayNumber, monthStart_succ isMonth.1]
      omega
    · have isLast : date.month = 12 := by omega
      have whole : yearLength date.year =
          monthStart date.year 12 + monthLength date.year 12 := monthStart_succ (by decide)
      have lastDay : date.day = monthLength date.year 12 := by
        rw [← isLast]
        omega
      rw [dayNumber_newYear, yearStart_succ, whole, dayNumber, isLast]
      omega

theorem exists_dayNumber (n : Nat) : ∃ date : Date, date.dayNumber = n := by
  induction n with
  | zero => exact ⟨newYear 0, rfl⟩
  | succ n ih =>
      obtain ⟨date, isNumber⟩ := ih
      exact ⟨date.next, by rw [dayNumber_next, isNumber]⟩

/-! ## The order of the dates -/

/-- By the year, then by the month, then by the day. -/
def Before (date other : Date) : Prop :=
  date.year < other.year ∨ date.year = other.year ∧
    (date.month < other.month ∨ date.month = other.month ∧ date.day < other.day)

theorem before_newYear {date : Date} {year : Nat} : date.Before (newYear year) ↔ date.year < year := by
  have isMonth := date.isMonth
  have isDay := date.isDay
  have isFirst : (newYear year).month = 1 ∧ (newYear year).day = 1 := ⟨rfl, rfl⟩
  have isYear : (newYear year).year = year := rfl
  rw [Before, isFirst.1, isFirst.2, isYear]
  omega

theorem dayNumber_lt_month (date : Date) :
    date.dayNumber < yearStart date.year + monthStart date.year (date.month + 1) := by
  have isDay := date.isDay
  rw [dayNumber, monthStart_succ date.isMonth.1]
  omega

theorem dayNumber_lt_year (date : Date) : date.dayNumber < yearStart (date.year + 1) := by
  have inMonth := date.dayNumber_lt_month
  have inYear : monthStart date.year (date.month + 1) ≤ yearLength date.year :=
    monthStart_mono date.year (Nat.succ_le_succ date.isMonth.2)
  rw [yearStart_succ]
  omega

theorem Before.dayNumber_lt {date other : Date} (before : date.Before other) :
    date.dayNumber < other.dayNumber := by
  rcases before with years | ⟨sameYear, months | ⟨sameMonth, days⟩⟩
  · have inYear := date.dayNumber_lt_year
    have later : yearStart (date.year + 1) ≤ yearStart other.year := yearStart_mono years
    have start : yearStart other.year ≤ other.dayNumber := by
      rw [dayNumber]
      omega
    omega
  · have inMonth := date.dayNumber_lt_month
    have later : monthStart date.year (date.month + 1) ≤ monthStart date.year other.month :=
      monthStart_mono date.year months
    have start : yearStart other.year + monthStart other.year other.month ≤ other.dayNumber := by
      rw [dayNumber]
      omega
    rw [← sameYear] at start
    omega
  · have isDay := date.isDay
    rw [dayNumber, dayNumber, sameYear, sameMonth]
    omega

theorem before_or_eq_or_before (date other : Date) :
    date.Before other ∨ date = other ∨ other.Before date := by
  rw [Before, Before, Date.ext_iff]
  omega

theorem dayNumber_lt_iff {date other : Date} :
    date.dayNumber < other.dayNumber ↔ date.Before other := by
  constructor
  · intro less
    rcases before_or_eq_or_before date other with before | rfl | after
    · exact before
    · exact absurd less (Nat.lt_irrefl _)
    · exact absurd (Nat.lt_trans less after.dayNumber_lt) (Nat.lt_irrefl _)
  · exact Before.dayNumber_lt

theorem dayNumber_inj {date other : Date} : date.dayNumber = other.dayNumber ↔ date = other := by
  constructor
  · intro same
    rcases before_or_eq_or_before date other with before | equal | after
    · exact absurd same (Nat.ne_of_lt before.dayNumber_lt)
    · exact equal
    · exact absurd same (Nat.ne_of_gt after.dayNumber_lt)
  · exact congrArg dayNumber

end Date

/-! ## Years from March

With March first the day that a leap year has more comes last, and any five months
in a row from March or August have 153 days. -/

theorem yearLength_eq (year : Nat) : yearLength year = 365 + if IsLeap year then 1 else 0 := by
  have months : yearLength year = 337 + monthLength year 2 := by
    simp only [yearLength, monthStart, Finset.sum_range_succ, Finset.sum_range_zero, monthLength]
    omega
  rw [months, monthLength]
  split <;> rfl

/-- One year in four is a leap year, less one in a hundred, but one in 400. -/
theorem leap_count (year : Nat) :
    (if IsLeap year then 1 else 0) + (if 100 ∣ year then 1 else 0) =
      (if 4 ∣ year then 1 else 0) + if 400 ∣ year then 1 else 0 := by
  have quarter : ¬ 4 ∣ year → ¬ 100 ∣ year := by omega
  have century : ¬ 100 ∣ year → ¬ 400 ∣ year := by omega
  by_cases isFourth : 4 ∣ year
  · by_cases isCentury : 100 ∣ year
    · by_cases isEra : 400 ∣ year <;> simp [IsLeap, isFourth, isCentury, isEra]
    · simp [IsLeap, isFourth, isCentury, century isCentury]
  · simp [IsLeap, isFourth, quarter isFourth, century (quarter isFourth)]

theorem yearStart_eq (year : Nat) :
    yearStart (year + 1) + year / 100 = 365 * (year + 1) + year / 4 + year / 400 + 1 := by
  induction year with
  | zero => rfl
  | succ year ih =>
      have count := leap_count (year + 1)
      rw [yearStart_succ, yearLength_eq, Nat.succ_div, Nat.succ_div, Nat.succ_div]
      omega

theorem yearStart_of_pos {year : Nat} (positive : 0 < year) :
    yearStart year + (year - 1) / 100 = 365 * year + (year - 1) / 4 + (year - 1) / 400 + 1 := by
  obtain ⟨before, rfl⟩ := Nat.exists_eq_add_of_le' positive
  exact yearStart_eq before

/-- The days of a year before one of its months after February. -/
theorem monthStart_eq {year month : Nat} (late : 3 ≤ month) (isMonth : month ≤ 12) :
    monthStart year month = (if IsLeap year then 60 else 59) + (153 * (month - 3) + 2) / 5 := by
  have march : monthStart year 3 = if IsLeap year then 60 else 59 := by
    simp only [monthStart, Nat.reduceSub, Finset.sum_range_succ, Finset.sum_range_zero, monthLength]
    split <;> rfl
  rw [← march]
  induction month, late using Nat.le_induction with
  | base => rfl
  | succ month late ih =>
      rw [monthStart_succ (by omega), ih (by omega)]
      have between : month ≤ 11 := by omega
      interval_cases month <;> rfl

/-- The months from March on fill the days that are theirs, only February does not. -/
theorem march_length (year : Nat) {month : Nat} (isMonth : 1 ≤ month ∧ month ≤ 12) :
    (153 * ((month + 9) % 12) + 2) / 5 + monthLength year month ≤
      (153 * ((month + 9) % 12 + 1) + 2) / 5 := by
  by_cases isFebruary : month = 2
  · rw [isFebruary, monthLength]
    split <;> decide
  · obtain ⟨first, last⟩ := isMonth
    interval_cases month
    any_goals exact Nat.le_of_eq rfl
    exact absurd rfl isFebruary

namespace Date

/-- The year, from March on, that a date is in. -/
def marchYear (date : Date) : Int := if date.month ≤ 2 then date.year - 1 else date.year

/-- The months from March to the date's. -/
def marchMonth (date : Date) : Nat := (date.month + 9) % 12

/-- The days from the first of March to a date. -/
def marchDay (date : Date) : Nat := (153 * date.marchMonth + 2) / 5 + (date.day - 1)

theorem dayNumber_march (date : Date) :
    (date.dayNumber : Int) =
      365 * date.marchYear + date.marchYear / 4 - date.marchYear / 100 + date.marchYear / 400 + 60 +
        date.marchDay := by
  have isMonth := date.isMonth
  rw [dayNumber, marchDay, marchYear, marchMonth]
  by_cases early : date.month ≤ 2
  · rw [if_pos early]
    have months : ∀ year, monthStart year date.month = 31 * (date.month - 1) := by
      intro year
      obtain isFirst | isSecond : date.month = 1 ∨ date.month = 2 := by omega
      · rw [isFirst]
        rfl
      · rw [isSecond]
        rfl
    cases date.year with
    | zero =>
        have start : yearStart 0 = 0 := rfl
        rw [months, start]
        omega
    | succ year =>
        have start := yearStart_eq year
        rw [months]
        omega
  · have start := yearStart_eq date.year
    have length := yearLength_eq date.year
    rw [yearStart_succ] at start
    rw [if_neg early, monthStart_eq (by omega) isMonth.2]
    by_cases leap : IsLeap date.year
    · rw [if_pos leap] at length ⊢
      omega
    · rw [if_neg leap] at length ⊢
      omega

theorem marchDay_lt (date : Date) : date.marchDay < (153 * (date.marchMonth + 1) + 2) / 5 := by
  have isDay := date.isDay
  have fits := march_length date.year date.isMonth
  rw [marchDay, marchMonth]
  omega

theorem marchMonth_eq (date : Date) : (5 * date.marchDay + 2) / 153 = date.marchMonth := by
  have less := date.marchDay_lt
  have start : (153 * date.marchMonth + 2) / 5 ≤ date.marchDay := Nat.le_add_right _ _
  omega

/-- Only a year before a leap year's February has a 366th day. -/
theorem marchDay_le (date : Date) :
    date.marchDay ≤ 364 ∨ date.marchDay = 365 ∧ 4 ∣ date.marchYear + 1 ∧
      (¬ 100 ∣ date.marchYear + 1 ∨ 400 ∣ date.marchYear + 1) := by
  have isMonth := date.isMonth
  have isDay := date.isDay
  by_cases isFebruary : date.month = 2
  · rw [isFebruary, monthLength] at isDay
    rw [marchDay, marchYear, marchMonth, isFebruary, if_pos (Nat.le_refl 2)]
    by_cases leap : IsLeap date.year
    · rw [if_pos leap] at isDay
      rw [IsLeap] at leap
      omega
    · rw [if_neg leap] at isDay
      omega
  · have less := date.marchDay_lt
    rw [marchMonth] at less
    omega

end Date

/-! ## Times of a day -/

structure TimeOfDay where
  hour : Nat
  minute : Nat
  second : Nat
  isHour : hour < 24
  isMinute : minute < 60
  isSecond : second < 60
  deriving DecidableEq

namespace TimeOfDay

/-- The seconds of a day before a time. -/
def seconds (time : TimeOfDay) : Nat := 3600 * time.hour + 60 * time.minute + time.second

/-- A day has 86400 seconds. -/
def ofSeconds (n : Nat) (inDay : n < 86400) : TimeOfDay where
  hour := n / 3600
  minute := n / 60 % 60
  second := n % 60
  isHour := by omega
  isMinute := Nat.mod_lt _ (by decide)
  isSecond := Nat.mod_lt _ (by decide)

theorem seconds_ofSeconds {n : Nat} (inDay : n < 86400) : (ofSeconds n inDay).seconds = n := by
  change 3600 * (n / 3600) + 60 * (n / 60 % 60) + n % 60 = n
  omega

end TimeOfDay

end Nixnas.Logic
