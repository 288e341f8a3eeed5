import SearchBox.Number.Numeral

/-!
  SearchBox.Calendar.Date — days of the Gregorian calendar from 0001-01-01 to 9999-12-31, and
  the number of each: the days that lie between it and the first one. A date carries the
  proof that it is on the calendar.
-/

namespace SearchBox.Calendar

open SearchBox.Number

def isLeapYear (year : Nat) : Bool :=
  year % 4 = 0 && (year % 100 ≠ 0 || year % 400 = 0)

def monthLength (year month : Nat) : Nat :=
  if month = 2 then (if isLeapYear year then 29 else 28)
  else if month = 4 ∨ month = 6 ∨ month = 9 ∨ month = 11 then 30
  else 31

def greatestYear : Nat := 9999

structure Date where
  year : Nat
  month : Nat
  day : Nat
  onCalendar : 1 ≤ year ∧ year ≤ greatestYear ∧ 1 ≤ month ∧ month ≤ 12 ∧ 1 ≤ day ∧
    day ≤ monthLength year month
  deriving DecidableEq

namespace Date

def of? (year month day : Nat) : Option Date :=
  if h : 1 ≤ year ∧ year ≤ greatestYear ∧ 1 ≤ month ∧ month ≤ 12 ∧ 1 ≤ day ∧
      day ≤ monthLength year month then
    some ⟨year, month, day, h⟩
  else none

theorem of?_parts (d : Date) : of? d.year d.month d.day = some d := by
  simp [of?, d.onCalendar]

def daysBeforeYear (year : Nat) : Nat :=
  let past := year - 1
  past * 365 + past / 4 - past / 100 + past / 400

def daysBeforeMonth (year : Nat) : Nat → Nat
  | 0 => 0
  | 1 => 0
  | month + 1 => daysBeforeMonth year month + monthLength year month

/-- The number of a day given by its parts, counted from zero for the first day. -/
def number (year month day : Nat) : Nat :=
  daysBeforeYear year + daysBeforeMonth year month + (day - 1)

def dayNumber (d : Date) : Nat :=
  number d.year d.month d.day

/-- The number of days in 400 years, after which the calendar repeats. -/
def cycleDays : Nat := 146097

/-- The year of a day number, which has no upper bound. -/
def yearOfNumber (n : Nat) : Nat :=
  let cycle := n / cycleDays
  let inCycle := n % cycleDays
  let century := min (inCycle / 36524) 3
  let inCentury := inCycle - century * 36524
  let four := inCentury / 1461
  let inFour := inCentury % 1461
  cycle * 400 + century * 100 + four * 4 + min (inFour / 365) 3 + 1

/-- The month in which the day lies that has `n` days of its year before it, at the earliest
    `month`. -/
def monthFrom (year : Nat) : Nat → Nat → Nat → Nat × Nat
  | 0, month, n => (month, n + 1)
  | later + 1, month, n =>
    if n < monthLength year month then (month, n + 1)
    else monthFrom year later (month + 1) (n - monthLength year month)

def parts (n : Nat) : Nat × Nat × Nat :=
  let year := yearOfNumber n
  (year, monthFrom year 11 1 (n - daysBeforeYear year))

def ofNumber? (n : Nat) : Option Date :=
  let (year, month, day) := parts n
  of? year month day

/-- The day of the week, Monday being zero. The first day of the calendar is a Monday. -/
def weekday (n : Int) : Nat :=
  (n % 7).toNat

/-- The date as `2024-06-15`. -/
def text (d : Date) : List Char :=
  paddedDigits d.year 4 ++ '-' :: paddedDigits d.month 2 ++ '-' :: paddedDigits d.day 2

end Date

def calendarDays : Nat := 3652059

end SearchBox.Calendar
