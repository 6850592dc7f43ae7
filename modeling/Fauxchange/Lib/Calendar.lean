import Mathlib.Data.Nat.Notation
import Mathlib.Tactic.ByContra
import Mathlib.Tactic.IntervalCases

/-! The proleptic Gregorian calendar, told by the lengths of its years and months, and the instants of its dates and
times of day. -/

namespace Fauxchange.Lib

/-- Every fourth year, but of the centuries only every fourth. -/
def isLeap (year : Nat) : Bool := year % 4 = 0 ∧ (year % 100 ≠ 0 ∨ year % 400 = 0)

def daysInYear (year : Nat) : Nat := if isLeap year then 366 else 365

/-- The months count from one. -/
def daysInMonth (year : Nat) : Nat → Nat
  | 2 => if isLeap year then 29 else 28
  | 4 | 6 | 9 | 11 => 30
  | _ => 31

/-- The days of all earlier years, from year zero on. -/
def daysBeforeYear : Nat → Nat
  | 0 => 0
  | year + 1 => daysBeforeYear year + daysInYear year

/-- The days of the earlier months of a year. -/
def daysBeforeMonth (year : Nat) : Nat → Nat
  | 0 | 1 => 0
  | month + 2 => daysBeforeMonth year (month + 1) + daysInMonth year (month + 1)

structure CivilDate where
  year : Nat
  month : Nat
  day : Nat
  monthFrom : 1 ≤ month
  monthTo : month ≤ 12
  dayFrom : 1 ≤ day
  dayTo : day ≤ daysInMonth year month
  deriving DecidableEq, Repr

/-- The days from the first of January of year zero. -/
def CivilDate.dayNumber (date : CivilDate) : Nat :=
  daysBeforeYear date.year + daysBeforeMonth date.year date.month + (date.day - 1)

/-- The number of 1 January 1970. -/
def epochDayNumber : Nat := 719528

example : (⟨1970, 1, 1, by decide, by decide, by decide, by decide⟩ : CivilDate).dayNumber = epochDayNumber := by
  decide +kernel

structure CivilTime extends CivilDate where
  hour : Nat
  minute : Nat
  second : Nat
  milli : Nat
  hourTo : hour < 24
  minuteTo : minute < 60
  secondTo : second < 60
  milliTo : milli < 1000
  deriving DecidableEq, Repr

namespace CivilTime

def secondOfDay (time : CivilTime) : Nat := time.hour * 3600 + time.minute * 60 + time.second

/-- The milliseconds from the epoch; days have no leap seconds. -/
def epochMs (time : CivilTime) : Int :=
  (((time.dayNumber : Int) - epochDayNumber) * 86400 + time.secondOfDay) * 1000 + time.milli

end CivilTime

section Counted
variable {year month : Nat}

theorem isLeap_iff : isLeap year = true ↔ year % 4 = 0 ∧ (year % 100 ≠ 0 ∨ year % 400 = 0) := by
  unfold isLeap
  exact decide_eq_true_iff

theorem daysInYear_eq (year : Nat) : daysInYear year = 365 + if isLeap year then 1 else 0 := by
  unfold daysInYear
  split <;> rfl

/-- A multiple of the divisor starts the next quotient. -/
theorem quotient_next (year : Nat) :
    (year + 4) / 4 = (year + 3) / 4 + (if year % 4 = 0 then 1 else 0) ∧
      (year + 100) / 100 = (year + 99) / 100 + (if year % 100 = 0 then 1 else 0) ∧
      (year + 400) / 400 = (year + 399) / 400 + (if year % 400 = 0 then 1 else 0) := by
  refine ⟨?_, ?_, ?_⟩ <;> split <;> omega

/-- A leap day is one for every fourth year, less one for a century, and one again for a fourth century. -/
theorem leapDay_eq (year : Nat) :
    (if isLeap year then 1 else 0) + (if year % 100 = 0 then 1 else 0) =
      (if year % 4 = 0 then 1 else 0) + (if year % 400 = 0 then 1 else 0) := by
  split
  next leap =>
    have rule := isLeap_iff.1 leap
    rw [if_pos rule.1]
    split <;> split <;> omega
  next ordinary =>
    have rule := mt isLeap_iff.2 ordinary
    split <;> split <;> split <;> omega

/-- The leap years before a year are counted by division. -/
theorem daysBeforeYear_eq (year : Nat) :
    daysBeforeYear year + (year + 99) / 100 = 365 * year + (year + 3) / 4 + (year + 399) / 400 := by
  induction year with
  | zero => rfl
  | succ year ih =>
    obtain ⟨fours, centuries, eras⟩ := quotient_next year
    have leapDay := leapDay_eq year
    unfold daysBeforeYear
    rw [daysInYear_eq]
    change _ + (year + 100) / 100 = 365 * (year + 1) + (year + 4) / 4 + (year + 400) / 400
    rw [fours, centuries, eras]
    omega

/-- From March on the months follow each other in fifths of 153 days. -/
theorem daysBeforeMonth_eq (fromMarch : 3 ≤ month) (within : month ≤ 12) :
    daysBeforeMonth year month = (153 * (month - 3) + 2) / 5 + 59 + if isLeap year then 1 else 0 := by
  cases leap : isLeap year <;> interval_cases month <;>
    simp [daysBeforeMonth, daysInMonth, leap]

theorem daysInMonth_le (year month : Nat) : daysInMonth year month ≤ 31 := by
  unfold daysInMonth
  split
  · split <;> decide
  all_goals decide

theorem daysBeforeMonth_succ (fromFirst : 1 ≤ month) :
    daysBeforeMonth year (month + 1) = daysBeforeMonth year month + daysInMonth year month := by
  obtain ⟨earlier, rfl⟩ := Nat.exists_eq_add_of_le' fromFirst
  rfl

theorem daysBeforeMonth_mono {later : Nat} (fromFirst : 1 ≤ month) (order : month ≤ later) :
    daysBeforeMonth year month ≤ daysBeforeMonth year later := by
  induction later, order using Nat.le_induction with
  | base => exact Nat.le_refl _
  | succ later order ih =>
    rw [daysBeforeMonth_succ (Nat.le_trans fromFirst order)]
    omega

theorem daysBeforeYear_mono {later : Nat} (order : year ≤ later) : daysBeforeYear year ≤ daysBeforeYear later := by
  induction later, order using Nat.le_induction with
  | base => exact Nat.le_refl _
  | succ later order ih => exact Nat.le_trans ih (Nat.le_add_right _ _)

/-- The twelve months make up the year. -/
theorem daysBeforeMonth_thirteen (year : Nat) : daysBeforeMonth year 13 = daysInYear year := by
  unfold daysInYear
  cases leap : isLeap year <;> simp [daysBeforeMonth, daysInMonth, leap]

end Counted

namespace CivilDate

/-- Dates in calendar order: by year, then month, then day. -/
def Before (date later : CivilDate) : Prop :=
  date.year < later.year ∨ date.year = later.year ∧ (date.month < later.month ∨
    date.month = later.month ∧ date.day < later.day)

theorem ext_fields {date other : CivilDate} (year : date.year = other.year) (month : date.month = other.month)
    (day : date.day = other.day) : date = other := by
  cases date
  cases other
  simp_all

theorem before_or_eq_or_before (date other : CivilDate) : date.Before other ∨ date = other ∨ other.Before date := by
  unfold Before
  by_cases year : date.year = other.year
  · by_cases month : date.month = other.month
    · by_cases day : date.day = other.day
      · exact .inr (.inl (ext_fields year month day))
      · omega
    · omega
  · omega

theorem dayNumber_lt_next_month (date : CivilDate) :
    date.dayNumber < daysBeforeYear date.year + daysBeforeMonth date.year (date.month + 1) := by
  have bound := date.dayTo
  have first := date.dayFrom
  rw [daysBeforeMonth_succ date.monthFrom]
  unfold dayNumber
  omega

theorem dayNumber_lt_next_year (date : CivilDate) : date.dayNumber < daysBeforeYear (date.year + 1) := by
  have months := @daysBeforeMonth_mono date.year (date.month + 1) 13 (by omega) (by have := date.monthTo; omega)
  have next := dayNumber_lt_next_month date
  rw [daysBeforeMonth_thirteen] at months
  change _ < daysBeforeYear date.year + daysInYear date.year
  omega

theorem daysBeforeYear_le (date : CivilDate) : daysBeforeYear date.year ≤ date.dayNumber := by
  unfold dayNumber
  omega

/-- Days are numbered in calendar order. -/
theorem Before.dayNumber_lt {date later : CivilDate} (before : date.Before later) : date.dayNumber < later.dayNumber := by
  rcases before with years | ⟨year, months | ⟨month, days⟩⟩
  · have passed := daysBeforeYear_mono (Nat.succ_le_of_lt years)
    rw [Nat.succ_eq_add_one] at passed
    have ends := dayNumber_lt_next_year date
    have begun := daysBeforeYear_le later
    omega
  · have passed := @daysBeforeMonth_mono date.year _ _ (Nat.le_add_left 1 date.month) months
    have ends := dayNumber_lt_next_month date
    rw [year] at passed ends
    unfold dayNumber at ends ⊢
    omega
  · have first := date.dayFrom
    unfold dayNumber
    rw [year, month]
    omega

theorem before_iff {date later : CivilDate} : date.Before later ↔ date.dayNumber < later.dayNumber := by
  constructor
  · exact Before.dayNumber_lt
  · intro less
    rcases before_or_eq_or_before date later with before | rfl | after
    · exact before
    · omega
    · have greater := after.dayNumber_lt
      omega

end CivilDate

namespace CivilTime

theorem secondOfDay_lt (time : CivilTime) : time.secondOfDay < 86400 := by
  have hour := time.hourTo
  have minute := time.minuteTo
  have second := time.secondTo
  unfold secondOfDay
  omega

/-- Instants are compared by date, then hour, minute, second and millisecond. -/
theorem fields_of_epochMs_lt {time later : CivilTime} (less : time.epochMs < later.epochMs) :
    time.toCivilDate.Before later.toCivilDate ∨ time.toCivilDate = later.toCivilDate ∧
      (time.hour < later.hour ∨ time.hour = later.hour ∧ (time.minute < later.minute ∨ time.minute = later.minute ∧
        (time.second < later.second ∨ time.second = later.second ∧ time.milli < later.milli))) := by
  have day := time.secondOfDay_lt
  have laterDay := later.secondOfDay_lt
  have milli := time.milliTo
  have laterMilli := later.milliTo
  unfold epochMs at less
  rcases CivilDate.before_or_eq_or_before time.toCivilDate later.toCivilDate with before | same | after
  · exact .inl before
  · right
    refine ⟨same, ?_⟩
    rw [same] at less
    have minute := time.minuteTo
    have second := time.secondTo
    have laterMinute := later.minuteTo
    have laterSecond := later.secondTo
    unfold secondOfDay at less
    omega
  · have number := CivilDate.before_iff.1 after
    omega

end CivilTime

end Fauxchange.Lib
