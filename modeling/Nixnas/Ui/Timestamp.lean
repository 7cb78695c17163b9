import Mathlib.Data.String.Basic
import Nixnas.Logic.Calendar
import Nixnas.Logic.Numerals
import Nixnas.Ui.Logging

/-!
# The time stamp

`timestamp` of `src/tui/src/logging.rs` finds the date by divisions alone.  It counts the
days from a first of March, in eras of 400 years, and here that is compared with the
calendar.
-/

set_option autoImplicit false

namespace Nixnas.Ui.Logging

open Nixnas.Logic Nixnas.Rust

/-- The start of 1970. -/
def epoch : Date := Date.newYear 1970

/-- The seconds from the epoch to the end of the year 9999. -/
def InRange (now : Int) : Prop :=
  0 ≤ now ∧ now < 86400 * (Date.newYear 10000).daysSince epoch

/-- `YYYYMMDD-HHMMSS`. -/
def stamp (date : Date) (time : TimeOfDay) : String :=
  padZero 4 date.year ++ padZero 2 date.month ++ padZero 2 date.day ++ "-" ++
    padZero 2 time.hour ++ padZero 2 time.minute ++ padZero 2 time.second

/-! ## The divisions -/

/-- The year of an era, from the day of the era, in a century and in four years of it: a day
is taken off for every four years, and one put back for every century. -/
theorem yearOfEra_split {century cycle turn day doe : Int} (isCentury : 0 ≤ century ∧ century < 4)
    (isCycle : 0 ≤ cycle ∧ cycle < 25) (isTurn : 0 ≤ turn ∧ turn < 4) (first : 0 ≤ day)
    (inYear : day ≤ 364 ∨ day = 365 ∧ turn = 3 ∧ (cycle < 24 ∨ century = 3))
    (isDay : doe = 36524 * century + 1461 * cycle + 365 * turn + day) :
    (doe - doe / 1460 + doe / 36524 - doe / 146096) / 365 = 100 * century + 4 * cycle + turn := by
  have centuries : doe / 36524 = century + doe / 146096 := by
    have inCentury : 1461 * cycle + 365 * turn + day < 36524 ∨
        century = 3 ∧ 1461 * cycle + 365 * turn + day = 36524 := by omega
    clear inYear
    omega
  have quarters : ∃ late, doe / 1460 = 25 * century + cycle + late ∧
      0 ≤ day - late ∧ day - late < 365 := by
    by_cases isLate : 1460 ≤ 24 * century + cycle + 365 * turn + day
    · exact ⟨1, by omega, by omega, by omega⟩
    · exact ⟨0, by omega, by omega, by omega⟩
  obtain ⟨late, quarters, low, high⟩ := quarters
  clear inYear
  omega

/-- Four years are 1461 days, or 1460 where a century ends, and 400 years are 146097. -/
theorem yearOfEra_eq {year day doe : Int} (start : 0 ≤ year) (inEra : year < 400) (first : 0 ≤ day)
    (inYear : day ≤ 364 ∨ day = 365 ∧ 4 ∣ year + 1 ∧ (¬ 100 ∣ year + 1 ∨ 400 ∣ year + 1))
    (isDay : doe = 365 * year + year / 4 - year / 100 + day) :
    (doe - doe / 1460 + doe / 36524 - doe / 146096) / 365 = year := by
  have split := @yearOfEra_split (year / 100) (year % 100 / 4) (year % 4) day doe (by omega)
    (by omega) (by omega) first (by omega) (by omega)
  rw [split]
  omega

theorem dayNumber_epoch : epoch.dayNumber = 719528 := by
  have closed := yearStart_of_pos (by decide : 0 < 1970)
  rw [epoch, Date.dayNumber_newYear]
  generalize yearStart 1970 = days at closed
  omega

/-- The number of a date by the era and the year of the era. -/
theorem dayNumber_era (date : Date) :
    (date.dayNumber : Int) = 146097 * (date.marchYear / 400) +
      (365 * (date.marchYear % 400) + date.marchYear % 400 / 4 - date.marchYear % 400 / 100 +
        date.marchDay) + 60 := by
  have quarters : date.marchYear / 4 = 100 * (date.marchYear / 400) + date.marchYear % 400 / 4 := by
    omega
  have centuries : date.marchYear / 100 = 4 * (date.marchYear / 400) + date.marchYear % 400 / 100 := by
    omega
  have whole := Int.mul_ediv_add_emod date.marchYear 400
  rw [date.dayNumber_march, quarters, centuries]
  omega

/-- The month and its day, from the day of a year that starts in March. -/
theorem monthOfYear_eq (date : Date) :
    (5 * (date.marchDay : Int) + 2).tdiv 153 = date.marchMonth ∧
      (date.marchDay : Int) - (153 * (date.marchMonth : Int) + 2).tdiv 5 + 1 = date.day ∧
      (if (date.marchMonth : Int) < 10 then (date.marchMonth : Int) + 3 else date.marchMonth - 9) =
        date.month := by
  have isMonth := date.isMonth
  have isDay := date.isDay
  have found := date.marchMonth_eq
  have within : (153 * date.marchMonth + 2) / 5 + (date.day - 1) = date.marchDay := rfl
  have shifted : date.marchMonth = (date.month + 9) % 12 := rfl
  rw [Int.tdiv_eq_ediv_of_nonneg (by omega), Int.tdiv_eq_ediv_of_nonneg (by omega)]
  refine ⟨?_, ?_, ?_⟩
  · omega
  · omega
  · split <;> omega

theorem clock_eq {now : Int} (start : 0 ≤ now) (time : TimeOfDay)
    (isTime : (time.seconds : Int) = now % 86400) :
    (now.tdiv 3600).tmod 24 = time.hour ∧ (now.tdiv 60).tmod 60 = time.minute ∧
      now.tmod 60 = time.second := by
  have isHour := time.isHour
  have isMinute := time.isMinute
  have isSecond := time.isSecond
  rw [TimeOfDay.seconds] at isTime
  simp only [Int.tdiv_eq_ediv_of_nonneg start]
  rw [Int.tmod_eq_emod_of_nonneg (by omega), Int.tmod_eq_emod_of_nonneg (by omega),
    Int.tmod_eq_emod_of_nonneg start]
  omega

/-- The arithmetic of `timestamp` finds the date and the time of the day. -/
theorem timestamp_eq {now : Int} (start : 0 ≤ now) (date : Date) (time : TimeOfDay)
    (isDate : date.daysSince epoch = now / 86400) (isTime : (time.seconds : Int) = now % 86400) :
    timestamp now = stamp date time := by
  have number := dayNumber_era date
  have inYear : (date.marchDay : Int) ≤ 365 := by
    have leap := date.marchDay_le
    omega
  have isYear := Int.mul_ediv_add_emod date.marchYear 400
  have yearStart := Int.emod_nonneg date.marchYear (by decide : (400 : Int) ≠ 0)
  have yearEnd := Int.emod_lt_of_pos date.marchYear (by decide : (0 : Int) < 400)
  rw [Date.daysSince, dayNumber_epoch] at isDate
  generalize date.marchYear % 400 = yearOfEra at number isYear yearStart yearEnd
  generalize date.marchYear / 400 = wholeEra at number isYear
  have quarter : 0 ≤ yearOfEra / 4 ∧ yearOfEra / 4 < 100 := by omega
  have century : 0 ≤ yearOfEra / 100 ∧ yearOfEra / 100 ≤ yearOfEra / 4 := by omega
  unfold timestamp
  extract_lets secs h m s z era doe yoe doy mp d month y
  have isSecs : secs = now := max_eq_left start
  have isZ : z = 146097 * wholeEra +
      (365 * yearOfEra + yearOfEra / 4 - yearOfEra / 100 + date.marchDay) := by
    change secs / 86400 + 719468 = _
    rw [isSecs, ← isDate]
    omega
  have inEra : 0 ≤ 365 * yearOfEra + yearOfEra / 4 - yearOfEra / 100 + date.marchDay ∧
      365 * yearOfEra + yearOfEra / 4 - yearOfEra / 100 + date.marchDay < 146097 := by
    omega
  clear number isDate
  have isEra : era = wholeEra := by
    change z / 146097 = _
    omega
  have isDoe : doe = 365 * yearOfEra + yearOfEra / 4 - yearOfEra / 100 + date.marchDay := by
    change z % 146097 = _
    omega
  have isYoe : yoe = yearOfEra := by
    have leap := date.marchDay_le
    have positive : 0 ≤ doe := isDoe ▸ inEra.1
    change (doe - doe.tdiv 1460 + doe.tdiv 36524 - doe.tdiv 146096).tdiv 365 = _
    simp only [Int.tdiv_eq_ediv_of_nonneg positive]
    rw [Int.tdiv_eq_ediv_of_nonneg (by omega)]
    exact yearOfEra_eq yearStart yearEnd (Int.natCast_nonneg _) (by omega) isDoe
  have isDoy : doy = date.marchDay := by
    change doe - (365 * yoe + yoe.tdiv 4 - yoe.tdiv 100) = _
    rw [isYoe, isDoe, Int.tdiv_eq_ediv_of_nonneg yearStart, Int.tdiv_eq_ediv_of_nonneg yearStart]
    omega
  obtain ⟨isMp, isD, isMonth⟩ := monthOfYear_eq date
  rw [← isDoy] at isMp isD
  rw [← isMp] at isD isMonth
  have isY : y = date.year := by
    have shifted : date.marchYear = if date.month ≤ 2 then (date.year : Int) - 1 else date.year := rfl
    have months : month = date.month := isMonth
    change yoe + era * 400 + (if month ≤ 2 then 1 else 0) = _
    rw [isYoe, isEra, months]
    split at shifted <;> omega
  obtain ⟨isH, isM, isS⟩ := clock_eq start time isTime
  rw [← isSecs] at isH isM isS
  rw [stamp, ← isY, ← isMonth, ← isD, ← isH, ← isM, ← isS]

/-! ## The order of the stamps -/

theorem padZero_numeral {width n : Nat} (wide : 0 < width) (fits : n < 10 ^ width) :
    Numeral (padZero width n).toList width n := by
  have digits : (toString n).toList = Nat.toDigits 10 n := Nat.toList_repr
  have positive : ¬ (n : Int) < 0 := by omega
  have written : (padZero width n).toList =
      List.replicate (width - (Nat.toDigits 10 n).length) '0' ++ Nat.toDigits 10 n := by
    have length : (toString n).length = (Nat.toDigits 10 n).length := by
      rw [← String.length_toList, digits]
    rw [padZero, if_neg positive, Int.natAbs_natCast, String.toList_append, String.toList_append,
      String.toList_ofList, digits, length]
    simp
  rw [written]
  exact Numeral.padded wide fits

theorem stamp_numerals (date : Date) (time : TimeOfDay) (fourDigits : date.year < 10000) :
    ∃ days clock, (stamp date time).toList = days ++ '-' :: clock ∧
      Numeral days 8 (100 * (100 * date.year + date.month) + date.day) ∧
      Numeral clock 6 (100 * (100 * time.hour + time.minute) + time.second) := by
  have isMonth := date.isMonth
  have isDay := date.isDay
  have short := monthLength_le date.year date.month
  have isHour := time.isHour
  have isMinute := time.isMinute
  have isSecond := time.isSecond
  have year : Numeral (padZero 4 date.year).toList 4 date.year := padZero_numeral (by decide) fourDigits
  have month : Numeral (padZero 2 date.month).toList 2 date.month :=
    padZero_numeral (by decide) (by omega)
  have day : Numeral (padZero 2 date.day).toList 2 date.day := padZero_numeral (by decide) (by omega)
  have hour : Numeral (padZero 2 time.hour).toList 2 time.hour :=
    padZero_numeral (by decide) (by omega)
  have minute : Numeral (padZero 2 time.minute).toList 2 time.minute :=
    padZero_numeral (by decide) (by omega)
  have second : Numeral (padZero 2 time.second).toList 2 time.second :=
    padZero_numeral (by decide) (by omega)
  refine ⟨_, _, ?_, (year.append month).append day, (hour.append minute).append second⟩
  simp [stamp]

theorem dateDigits_lt_iff (date date' : Date) :
    100 * (100 * date.year + date.month) + date.day <
      100 * (100 * date'.year + date'.month) + date'.day ↔ date.Before date' := by
  have isMonth := date.isMonth
  have isMonth' := date'.isMonth
  have isDay := date.isDay.2.trans (monthLength_le date.year date.month)
  have isDay' := date'.isDay.2.trans (monthLength_le date'.year date'.month)
  rw [Date.Before, Numeral.value_lt_iff (by omega) (by omega),
    Numeral.value_lt_iff (by omega) (by omega), Numeral.value_eq_iff (by omega) (by omega)]
  tauto

theorem dateDigits_eq_iff (date date' : Date) :
    100 * (100 * date.year + date.month) + date.day =
      100 * (100 * date'.year + date'.month) + date'.day ↔ date = date' := by
  have isMonth := date.isMonth
  have isMonth' := date'.isMonth
  have isDay := date.isDay.2.trans (monthLength_le date.year date.month)
  have isDay' := date'.isDay.2.trans (monthLength_le date'.year date'.month)
  rw [Date.ext_iff, Numeral.value_eq_iff (by omega) (by omega),
    Numeral.value_eq_iff (by omega) (by omega), and_assoc]

theorem clockDigits_lt_iff (time time' : TimeOfDay) :
    100 * (100 * time.hour + time.minute) + time.second <
      100 * (100 * time'.hour + time'.minute) + time'.second ↔ time.seconds < time'.seconds := by
  have isMinute := time.isMinute
  have isMinute' := time'.isMinute
  have isSecond := time.isSecond
  have isSecond' := time'.isSecond
  rw [TimeOfDay.seconds, TimeOfDay.seconds]
  omega

/-- Stamps are ordered as the dates, those of one date as the times, and what is behind
them decides only between the same. -/
theorem stamp_append_lt_iff {date date' : Date} (time time' : TimeOfDay)
    (fourDigits : date.year < 10000) (fourDigits' : date'.year < 10000) (rest rest' : List Char) :
    (stamp date time).toList ++ rest < (stamp date' time').toList ++ rest' ↔
      date.Before date' ∨ date = date' ∧
        (time.seconds < time'.seconds ∨ time.seconds = time'.seconds ∧ rest < rest') := by
  obtain ⟨days, clock, written, isDays, isClock⟩ := stamp_numerals date time fourDigits
  obtain ⟨days', clock', written', isDays', isClock'⟩ := stamp_numerals date' time' fourDigits'
  have less := clockDigits_lt_iff time time'
  have greater := clockDigits_lt_iff time' time
  have same : 100 * (100 * time.hour + time.minute) + time.second =
      100 * (100 * time'.hour + time'.minute) + time'.second ↔ time.seconds = time'.seconds := by
    omega
  rw [written, written', List.append_assoc, List.append_assoc, isDays.append_lt_append_iff isDays',
    List.cons_append, List.cons_append, List.cons_lt_cons_self, isClock.append_lt_append_iff isClock',
    dateDigits_lt_iff, dateDigits_eq_iff, less, same]

/-! ## Every time up to the end of 9999 -/

theorem inRange_iff {now : Int} : InRange now ↔ 0 ≤ now ∧ now < 253402300800 := by
  have closed := yearStart_of_pos (by decide : 0 < 10000)
  rw [InRange, Date.daysSince, dayNumber_epoch, Date.dayNumber_newYear]
  generalize yearStart 10000 = days at closed
  omega

/-- What the calendar and the clock say of a time. -/
structure Civil (now : Int) (date : Date) (time : TimeOfDay) : Prop where
  days : date.daysSince epoch = now / 86400
  clock : (time.seconds : Int) = now % 86400
  fourDigits : date.year < 10000

theorem civil_of_inRange {now : Int} (inRange : InRange now) :
    ∃ date time, Civil now date time := by
  obtain ⟨start, finish⟩ := inRange
  have within : (now % 86400).toNat < 86400 := by omega
  obtain ⟨date, isNumber⟩ := Date.exists_dayNumber (now / 86400 + 719528).toNat
  have days : date.daysSince epoch = now / 86400 := by
    rw [Date.daysSince, dayNumber_epoch, isNumber]
    omega
  refine ⟨date, .ofSeconds _ within, days, ?_, ?_⟩
  · rw [TimeOfDay.seconds_ofSeconds]
    omega
  · rw [← Date.before_newYear, ← Date.dayNumber_lt_iff]
    simp only [Date.daysSince] at days finish
    omega

/-- Times are ordered as their dates, and those of one date as the times of the day. -/
theorem Civil.lt_iff {now later : Int} {date date' : Date} {time time' : TimeOfDay}
    (civil : Civil now date time) (civil' : Civil later date' time') :
    now < later ↔ date.Before date' ∨ date = date' ∧ time.seconds < time'.seconds := by
  have days := civil.days
  have days' := civil'.days
  have clock := civil.clock
  have clock' := civil'.clock
  rw [Date.daysSince] at days days'
  rw [← Date.dayNumber_lt_iff, ← Date.dayNumber_inj]
  omega

theorem Civil.eq_iff {now later : Int} {date date' : Date} {time time' : TimeOfDay}
    (civil : Civil now date time) (civil' : Civil later date' time') :
    now = later ↔ date = date' ∧ time.seconds = time'.seconds := by
  have days := civil.days
  have days' := civil'.days
  have clock := civil.clock
  have clock' := civil'.clock
  rw [Date.daysSince] at days days'
  rw [← Date.dayNumber_inj]
  omega

/-- A stamp is where its time is, whatever follows it. -/
theorem timestamp_append_lt_iff {now later : Int} (inRange : InRange now) (inRange' : InRange later)
    (rest rest' : List Char) :
    (timestamp now).toList ++ rest < (timestamp later).toList ++ rest' ↔
      now < later ∨ now = later ∧ rest < rest' := by
  obtain ⟨date, time, civil⟩ := civil_of_inRange inRange
  obtain ⟨date', time', civil'⟩ := civil_of_inRange inRange'
  rw [timestamp_eq inRange.1 date time civil.days civil.clock,
    timestamp_eq inRange'.1 date' time' civil'.days civil'.clock,
    stamp_append_lt_iff time time' civil.fourDigits civil'.fourDigits, civil.lt_iff civil',
    civil.eq_iff civil']
  tauto

/-- Up to the end of the year 9999 the stamp shows the only date of the calendar that as
many days have gone by to, and the time of the day; stamps are ordered, letter by letter,
as the times. -/
theorem timestamp_civil :
    (∀ now, InRange now → ∃ date time, timestamp now = stamp date time ∧
      date.daysSince epoch = now / 86400 ∧
      (∀ other : Date, other.daysSince epoch = now / 86400 → other = date) ∧
      (time.seconds : Int) = now % 86400) ∧
    ∀ now later, InRange now → InRange later →
      (now ≤ later ↔ timestamp now ≤ timestamp later) := by
  constructor
  · intro now inRange
    obtain ⟨date, time, civil⟩ := civil_of_inRange inRange
    refine ⟨date, time, timestamp_eq inRange.1 date time civil.days civil.clock, civil.days, ?_,
      civil.clock⟩
    intro other days
    have same := days.trans civil.days.symm
    rw [Date.daysSince, Date.daysSince] at same
    exact Date.dayNumber_inj.mp (by omega)
  · intro now later inRange inRange'
    have less := timestamp_append_lt_iff inRange' inRange [] []
    rw [List.append_nil, List.append_nil, ← String.lt_iff] at less
    rw [← not_lt, ← not_lt, less]
    simp

/-- The afternoon before a first of March, in a leap year at the end of a century. -/
theorem timestamp_civil_leapDay :
    (∃ date time, timestamp 951827696 = stamp date time ∧
      date.daysSince epoch = 951827696 / 86400 ∧
      (∀ other : Date, other.daysSince epoch = 951827696 / 86400 → other = date) ∧
      (time.seconds : Int) = 951827696 % 86400) ∧
    ((951827696 : Int) ≤ 951868800 ↔ timestamp 951827696 ≤ timestamp 951868800) := by
  have inRange : InRange 951827696 := inRange_iff.mpr (by decide)
  have inRange' : InRange 951868800 := inRange_iff.mpr (by decide)
  exact ⟨timestamp_civil.1 _ inRange, timestamp_civil.2 _ _ inRange inRange'⟩

example : timestamp 253402300799 = "99991231-235959" := by decide

/-! ## The names of the files -/

theorem startsWith_slash {name : String} (some : name ≠ "") (more : String) :
    startsWith (name ++ more) "/" = startsWith name "/" := by
  have slash : "/".toList = ['/'] := rfl
  rw [startsWith, startsWith, String.toList_append, slash]
  cases chars : name.toList with
  | nil => exact absurd (String.toList_eq_nil_iff.mp chars) some
  | cons c rest => rfl

/-- What stands before the stamp in the path of a log. -/
theorem logPath_front (dir action : String) : ∃ front, ∀ stamp n, ∃ rest,
    (logPath dir action stamp n).toList = front ++ (stamp.toList ++ rest) := by
  have some : action ++ "-" ≠ "" := by
    intro empty
    have chars := congrArg String.toList empty
    simp at chars
  have joined : ∃ front, ∀ more, (join dir (action ++ "-" ++ more)).toList =
      front ++ (action ++ "-" ++ more).toList := by
    by_cases replaces : startsWith (action ++ "-") "/" || dir = ""
    · refine ⟨[], fun more => ?_⟩
      rw [join, startsWith_slash some, if_pos replaces]
      rfl
    · by_cases closed : dir.toList.getLast? = .some '/'
      · refine ⟨dir.toList, fun more => ?_⟩
        rw [join, startsWith_slash some, if_neg replaces, if_pos closed, String.toList_append]
      · refine ⟨(dir ++ "/").toList, fun more => ?_⟩
        rw [join, startsWith_slash some, if_neg replaces, if_neg closed, String.toList_append]
  obtain ⟨front, joined⟩ := joined
  refine ⟨front ++ (action ++ "-").toList, fun stamp n => ?_⟩
  rw [logPath]
  split
  · refine ⟨".log".toList, ?_⟩
    rw [String.append_assoc, joined]
    simp
  · refine ⟨("." ++ toString n ++ ".log").toList, ?_⟩
    have same : action ++ "-" ++ stamp ++ "." ++ toString n ++ ".log" =
        action ++ "-" ++ (stamp ++ ("." ++ toString n ++ ".log")) := by
      simp only [String.append_assoc]
    rw [same, joined]
    simp

/-- The logs of one action are listed, by their names, in the order of their starts. -/
theorem logPath_lt {now later : Int} (inRange : InRange now) (inRange' : InRange later)
    (before : now < later) (dir action : String) (n m : Nat) :
    logPath dir action (timestamp now) n < logPath dir action (timestamp later) m := by
  obtain ⟨front, split⟩ := logPath_front dir action
  obtain ⟨rest, written⟩ := split (timestamp now) n
  obtain ⟨rest', written'⟩ := split (timestamp later) m
  rw [String.lt_iff, written, written']
  exact List.append_left_lt ((timestamp_append_lt_iff inRange inRange' rest rest').mpr (.inl before))

end Nixnas.Ui.Logging
