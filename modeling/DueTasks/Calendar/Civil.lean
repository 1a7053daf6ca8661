/-! The proleptic Gregorian calendar without bounds.
A civil day is a year, a month and a day of that month. `dayNumber` counts days from the first day
of year 0 and `ofDayNumber` goes back, so moving by days is addition of integers.
-/

namespace DueTasks

/-- Whether a year has a 29th of February. -/
def isLeapYear (year : Int) : Bool :=
  year % 4 == 0 && (year % 100 != 0 || year % 400 == 0)

/-- The number of days of a month, counted from 1. -/
def daysInMonth (year : Int) (month : Nat) : Nat :=
  match month with
  | 2 => if isLeapYear year then 29 else 28
  | 4 | 6 | 9 | 11 => 30
  | _ => 31

/-- A day of the calendar. -/
structure Civil where
  year : Int
  month : Nat
  day : Nat
  month_mem : 1 ≤ month ∧ month ≤ 12
  day_mem : 1 ≤ day ∧ day ≤ daysInMonth year month
deriving DecidableEq

/-- Every month has 28 to 31 days. -/
theorem daysInMonth_mem (year : Int) (month : Nat)
    : 28 ≤ daysInMonth year month ∧ daysInMonth year month ≤ 31 := by
  unfold daysInMonth
  split
  · split <;> omega
  all_goals omega

namespace Civil

/-- The number of days from the first day of year 0 to the first day of `year`. -/
def daysBeforeYear (year : Int) : Int :=
  365 * year + (year + 3) / 4 - (year + 99) / 100 + (year + 399) / 400

def daysBeforeMonth (year : Int) : Nat → Nat
  | 0 | 1 => 0
  | month + 2 => daysBeforeMonth year (month + 1) + daysInMonth year (month + 1)

/-- The number of days from the first day of year 0. -/
def dayNumber (c : Civil) : Int :=
  daysBeforeYear c.year + daysBeforeMonth c.year c.month + (c.day - 1 : Nat)

/-- The year that holds the day with the given number: four centuries have 146097 days, and within
them a count of days divided by 366 is the year or the year before it.
-/
def yearOfDay (number : Int) : Int :=
  let within := number % 146097
  let estimate := within / 366
  let year := if daysBeforeYear (estimate + 1) ≤ within then estimate + 1 else estimate
  400 * (number / 146097) + year

/-- The month, from `month` to December, and the day in it that lie `days` days after the first of
`month`. The last month takes what is left.
-/
def monthAndDay (year : Int) (month days : Nat) : Nat × Nat :=
  if days < daysInMonth year month ∨ 12 ≤ month then (month, days + 1)
  else monthAndDay year (month + 1) (days - daysInMonth year month)
termination_by 12 - month

/-- A day from its parts, with the month brought into 1 to 12 and the day into the month. -/
def clamped (year : Int) (month day : Nat) : Civil where
  year
  month := max 1 (min month 12)
  day := max 1 (min day (daysInMonth year (max 1 (min month 12))))
  month_mem := by omega
  day_mem := by have := daysInMonth_mem year (max 1 (min month 12)); omega

def ofDayNumber (number : Int) : Civil :=
  let year := yearOfDay number
  let place := monthAndDay year 1 (number - daysBeforeYear year).toNat
  clamped year place.1 place.2

/-- The day `count` days later, or earlier if `count` is negative. -/
def addDays (c : Civil) (count : Int) : Civil :=
  ofDayNumber (c.dayNumber + count)

/-- The same day of the month `count` months later, or the end of that month if it is shorter. -/
def addMonths (c : Civil) (count : Int) : Civil :=
  let total := 12 * c.year + (c.month - 1 : Nat) + count
  clamped (total / 12) ((total % 12).toNat + 1) c.day

/-- One day is before another, by year, then month, then day. -/
def before (a b : Civil) : Bool :=
  if a.year ≠ b.year then a.year < b.year
  else if a.month ≠ b.month then a.month < b.month
  else a.day < b.day

end Civil

end DueTasks
