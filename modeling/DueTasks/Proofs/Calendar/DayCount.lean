import DueTasks.Calendar.Civil
import Mathlib.Logic.Function.Iterate

/-! Days in order.
The number of a day puts the days of the calendar in order and counts every day once, so that moving
by a number of days is going on, or back, day by day. Moving by months counts months in the same way
and keeps the day where the month has it.
-/

namespace DueTasks

/-- Whether a year has 365 or 366 days. -/
def daysInYear (year : Int) : Nat :=
  if isLeapYear year then 366 else 365

namespace Civil

-----------------------------------------------------------------------------------------
-- Days before a year and before a month
-----------------------------------------------------------------------------------------

theorem daysBeforeYear_succ (year : Int)
    : daysBeforeYear (year + 1) = daysBeforeYear year + daysInYear year := by
  simp only [daysBeforeYear, daysInYear, isLeapYear, Bool.and_eq_true, Bool.or_eq_true, beq_iff_eq,
    bne_iff_ne]
  split <;> omega

/-- A year begins after all days of the years before it. -/
theorem daysBeforeYear_le {year later : Int} (before : year < later)
    : daysBeforeYear (year + 1) ≤ daysBeforeYear later := by
  simp only [daysBeforeYear]
  omega

theorem daysBeforeMonth_succ (year : Int) {month : Nat} (first : 1 ≤ month)
    : daysBeforeMonth year (month + 1) = daysBeforeMonth year month + daysInMonth year month := by
  obtain ⟨month, rfl⟩ := Nat.exists_eq_add_of_le' first
  rfl

/-- A month begins after all days of the months before it, by induction on the later month. -/
theorem daysBeforeMonth_le (year : Int) {month later : Nat} (first : 1 ≤ month)
    (before : month < later)
    : daysBeforeMonth year month + daysInMonth year month ≤ daysBeforeMonth year later := by
  induction before with
  | refl => exact Nat.le_of_eq (daysBeforeMonth_succ year first).symm
  | step before ih =>
      rw [daysBeforeMonth_succ year (Nat.le_trans first (Nat.le_of_lt before))]
      exact Nat.le_trans ih (Nat.le_add_right _ _)

theorem daysBeforeMonth_twelve (year : Int)
    : daysBeforeMonth year 12 + daysInMonth year 12 = daysInYear year := by
  simp only [daysBeforeMonth, daysInMonth, daysInYear]
  split <;> rfl

/-- The months of a year are over with the year. -/
theorem daysBeforeMonth_add_le (year : Int) {month : Nat} (first : 1 ≤ month) (last : month ≤ 12)
    : daysBeforeMonth year month + daysInMonth year month ≤ daysInYear year := by
  have year_end := daysBeforeMonth_twelve year
  rcases Nat.lt_or_eq_of_le last with before | rfl
  · have := daysBeforeMonth_le year first before
    omega
  · omega

-----------------------------------------------------------------------------------------
-- Days are numbered in order
-----------------------------------------------------------------------------------------

theorem dayNumber_mem (c : Civil)
    : daysBeforeYear c.year ≤ c.dayNumber ∧ c.dayNumber < daysBeforeYear (c.year + 1) := by
  have := daysBeforeMonth_add_le c.year c.month_mem.1 c.month_mem.2
  have := c.day_mem
  rw [daysBeforeYear_succ, dayNumber]
  omega

/-- The year of a day is one that has begun by then. -/
theorem le_year_iff {c : Civil} {year : Int}
    : year ≤ c.year ↔ daysBeforeYear year ≤ c.dayNumber := by
  have own := c.dayNumber_mem
  constructor
  · intro le
    rcases Int.lt_or_eq_of_le le with earlier | rfl
    · have := daysBeforeYear_le earlier
      have := daysBeforeYear_succ year
      omega
    · exact own.1
  · intro begun
    refine Int.not_lt.mp fun later => ?_
    have := daysBeforeYear_le later
    omega

theorem dayNumber_lt_of_before {a b : Civil} (h : a.before b = true)
    : a.dayNumber < b.dayNumber := by
  unfold before at h
  split at h
  · have years := daysBeforeYear_le (of_decide_eq_true h)
    have := a.dayNumber_mem
    have := b.dayNumber_mem
    omega
  · rename_i years
    have year := not_not.mp years
    split at h
    · have months := daysBeforeMonth_le a.year a.month_mem.1 (of_decide_eq_true h)
      have := a.day_mem
      simp only [dayNumber, ← year]
      omega
    · rename_i months
      have month := not_not.mp months
      have days := of_decide_eq_true h
      have := a.day_mem
      simp only [dayNumber, ← year, ← month]
      omega

/-- Of two different days one is before the other. -/
theorem eq_of_not_before {a b : Civil} (h : a.before b = false) (h' : b.before a = false)
    : a = b := by
  obtain ⟨year, month, day, _, _⟩ := a
  obtain ⟨year', month', day', _, _⟩ := b
  simp only [before] at h h'
  grind

theorem before_iff {a b : Civil} : a.before b = true ↔ a.dayNumber < b.dayNumber := by
  refine ⟨dayNumber_lt_of_before, fun less => ?_⟩
  by_contra other
  cases back : b.before a with
  | true =>
      have := dayNumber_lt_of_before back
      omega
  | false =>
      rw [eq_of_not_before (Bool.eq_false_iff.mpr other) back] at less
      omega

theorem eq_of_dayNumber {a b : Civil} (h : a.dayNumber = b.dayNumber) : a = b := by
  refine eq_of_not_before (Bool.eq_false_iff.mpr fun less => ?_)
    (Bool.eq_false_iff.mpr fun less => ?_)
  · have := dayNumber_lt_of_before less
    omega
  · have := dayNumber_lt_of_before less
    omega

-----------------------------------------------------------------------------------------
-- Every number is that of a day
-----------------------------------------------------------------------------------------

/-- The calendar repeats itself every four centuries. -/
theorem daysBeforeYear_add (cycles year : Int)
    : daysBeforeYear (400 * cycles + year) = 146097 * cycles + daysBeforeYear year := by
  simp only [daysBeforeYear]
  omega

/-- Within four centuries, no year begins later than it would if all were leap years, nor more than
a year before that.
-/
theorem daysBeforeYear_bounds (year : Int) (first : 0 ≤ year) (last : year ≤ 399)
    : daysBeforeYear year ≤ 366 * year ∧ 366 * (year + 1) ≤ daysBeforeYear (year + 1 + 1) := by
  simp only [daysBeforeYear]
  omega

/-- The year of a day begins on or before the day, and the next year after it. -/
theorem yearOfDay_mem (number : Int)
    : daysBeforeYear (yearOfDay number) ≤ number
      ∧ number < daysBeforeYear (yearOfDay number + 1) := by
  have bounds := daysBeforeYear_bounds (number % 146097 / 366) (by omega) (by omega)
  have begun (year : Int) := daysBeforeYear_add (number / 146097) year
  have ended (year : Int) := daysBeforeYear_add (number / 146097) (year + 1)
  simp only [← Int.add_assoc] at ended
  simp only [yearOfDay]
  split
  · rw [begun, ended]
    omega
  · rw [begun, ended]
    omega

/-- The month and the day in it are those that lie the given days behind the first of a month, as
long as the year does not end before them. By recursion on the months that are left.
-/
theorem monthAndDay_mem (year : Int) {month : Nat} (days : Nat) (first : 1 ≤ month)
    (last : month ≤ 12) (within : daysBeforeMonth year month + days < daysInYear year)
    : let found := monthAndDay year month days
      (1 ≤ found.1 ∧ found.1 ≤ 12)
      ∧ (1 ≤ found.2 ∧ found.2 ≤ daysInMonth year found.1)
      ∧ daysBeforeMonth year found.1 + (found.2 - 1) = daysBeforeMonth year month + days := by
  fun_induction monthAndDay year month days with
  | case1 month days here =>
      have fits : days + 1 ≤ daysInMonth year month := by
        rcases here with here | december
        · omega
        · obtain rfl : month = 12 := by omega
          have := daysBeforeMonth_twelve year
          omega
      exact ⟨⟨first, last⟩, ⟨Nat.le_add_left 1 days, fits⟩, rfl⟩
  | case2 month days later ih =>
      have := daysBeforeMonth_succ year first
      obtain ⟨months, found, number⟩ := ih (by omega) (by omega) (by omega)
      exact ⟨months, found, by omega⟩

theorem clamped_eq {year : Int} {month day : Nat} (month_mem : 1 ≤ month ∧ month ≤ 12)
    (day_mem : 1 ≤ day ∧ day ≤ daysInMonth year month)
    : clamped year month day = ⟨year, month, day, month_mem, day_mem⟩ := by
  have months : max 1 (min month 12) = month := by omega
  have days : max 1 (min day (daysInMonth year month)) = day := by omega
  simp only [clamped, months, days]

@[simp] theorem dayNumber_ofDayNumber (number : Int) : (ofDayNumber number).dayNumber = number := by
  obtain ⟨begun, ended⟩ := yearOfDay_mem number
  rw [daysBeforeYear_succ] at ended
  have none : daysBeforeMonth (yearOfDay number) 1 = 0 := rfl
  obtain ⟨months, days, count⟩ := monthAndDay_mem (yearOfDay number)
    (number - daysBeforeYear (yearOfDay number)).toNat (Nat.le_refl 1) (by decide) (by omega)
  rw [ofDayNumber, clamped_eq months days, dayNumber]
  simp only
  omega

@[simp] theorem dayNumber_addDays (c : Civil) (count : Int)
    : (c.addDays count).dayNumber = c.dayNumber + count :=
  dayNumber_ofDayNumber _

-----------------------------------------------------------------------------------------
-- Day by day
-----------------------------------------------------------------------------------------

theorem january_mem : 1 ≤ 1 ∧ 1 ≤ 12 := by
  decide

/-- The next day: in the same month, or the first one of the next month or of the next year. -/
def tomorrow (c : Civil) : Civil :=
  if same_month : c.day < daysInMonth c.year c.month then
    ⟨c.year, c.month, c.day + 1, c.month_mem, ⟨Nat.le_add_left 1 c.day, same_month⟩⟩
  else if same_year : c.month < 12 then
    ⟨c.year, c.month + 1, 1, ⟨Nat.le_add_left 1 c.month, same_year⟩,
      ⟨Nat.le_refl 1, Nat.le_trans (by decide) (daysInMonth_mem _ _).1⟩⟩
  else
    ⟨c.year + 1, 1, 1, january_mem,
      ⟨Nat.le_refl 1, Nat.le_trans (by decide) (daysInMonth_mem _ _).1⟩⟩

@[simp] theorem dayNumber_tomorrow (c : Civil) : c.tomorrow.dayNumber = c.dayNumber + 1 := by
  have months := c.month_mem
  have days := c.day_mem
  unfold tomorrow
  split
  · simp only [dayNumber]
    omega
  · rename_i last_day
    split
    · simp only [dayNumber, daysBeforeMonth_succ c.year months.1]
      omega
    · have december : c.month = 12 := by omega
      have year_end := daysBeforeMonth_twelve c.year
      have none : daysBeforeMonth (c.year + 1) 1 = 0 := rfl
      rw [december] at days last_day
      simp only [dayNumber, daysBeforeYear_succ, december]
      omega

@[simp] theorem dayNumber_iterate_tomorrow (c : Civil) (count : Nat)
    : (tomorrow^[count] c).dayNumber = c.dayNumber + count := by
  induction count with
  | zero => simp
  | succ count ih =>
      rw [Function.iterate_succ_apply', dayNumber_tomorrow, ih]
      omega

/-- A day lies a number of days after another: it is reached from there day by day, or, for a
negative number, the other is reached from it.
-/
def IsDaysAfter (count : Int) (c later : Civil) : Prop :=
  if 0 ≤ count then tomorrow^[count.toNat] c = later else tomorrow^[(-count).toNat] later = c

theorem isDaysAfter_iff {count : Int} {c later : Civil}
    : IsDaysAfter count c later ↔ later.dayNumber = c.dayNumber + count := by
  unfold IsDaysAfter
  split
  · have reached := c.dayNumber_iterate_tomorrow count.toNat
    refine ⟨?_, fun number => eq_of_dayNumber (by omega)⟩
    rintro rfl
    omega
  · have reached := later.dayNumber_iterate_tomorrow (-count).toNat
    refine ⟨?_, fun number => eq_of_dayNumber (by omega)⟩
    rintro rfl
    omega

/-- Moving by a number of days reaches the day that lies as many days after. -/
theorem isDaysAfter_addDays (c : Civil) (count : Int) : IsDaysAfter count c (c.addDays count) :=
  isDaysAfter_iff.mpr (dayNumber_addDays c count)

-----------------------------------------------------------------------------------------
-- Month by month
-----------------------------------------------------------------------------------------

/-- The number of months from the first month of year 0. -/
def monthNumber (c : Civil) : Int :=
  12 * c.year + (c.month - 1 : Nat)

/-- A day lies a number of months after another: its month does, and it is the same day of the month
or the end of a shorter month.
-/
def IsMonthsAfter (count : Int) (c later : Civil) : Prop :=
  later.monthNumber = c.monthNumber + count
  ∧ later.day = min c.day (daysInMonth later.year later.month)

/-- Moving by a number of months reaches the day that lies as many months after. -/
theorem isMonthsAfter_addMonths (c : Civil) (count : Int)
    : IsMonthsAfter count c (c.addMonths count) := by
  have month : max 1 (min (((12 * c.year + (c.month - 1 : Nat) + count) % 12).toNat + 1) 12)
      = ((12 * c.year + (c.month - 1 : Nat) + count) % 12).toNat + 1 := by
    omega
  have := c.day_mem
  simp only [IsMonthsAfter, monthNumber, addMonths, clamped, month]
  have := daysInMonth_mem ((12 * c.year + (c.month - 1 : Nat) + count) / 12)
    (((12 * c.year + (c.month - 1 : Nat) + count) % 12).toNat + 1)
  omega

/-- Days are in order by their months and then by their place in the month. -/
theorem dayNumber_lt_iff {a b : Civil}
    : a.dayNumber < b.dayNumber
      ↔ a.monthNumber < b.monthNumber ∨ a.monthNumber = b.monthNumber ∧ a.day < b.day := by
  have := a.month_mem
  have := b.month_mem
  rw [← before_iff, before]
  simp only [monthNumber]
  split
  · rw [decide_eq_true_iff]
    omega
  · split
    · rw [decide_eq_true_iff]
      omega
    · rw [decide_eq_true_iff]
      omega

/-- Days of one month are days of one year and have the same month in it. -/
theorem eq_of_monthNumber {a b : Civil} (h : a.monthNumber = b.monthNumber)
    : a.year = b.year ∧ a.month = b.month := by
  have := a.month_mem
  have := b.month_mem
  simp only [monthNumber] at h
  omega

/-- Moving by months keeps the order of days. -/
theorem dayNumber_addMonths_mono {a b : Civil} (le : a.dayNumber ≤ b.dayNumber) (count : Int)
    : (a.addMonths count).dayNumber ≤ (b.addMonths count).dayNumber := by
  obtain ⟨month, day⟩ := isMonthsAfter_addMonths a count
  obtain ⟨month', day'⟩ := isMonthsAfter_addMonths b count
  have order := mt dayNumber_lt_iff.mpr (Int.not_lt.mpr le)
  refine Int.not_lt.mp (mt dayNumber_lt_iff.mp ?_)
  by_cases same : (b.addMonths count).monthNumber = (a.addMonths count).monthNumber
  · obtain ⟨year, number⟩ := eq_of_monthNumber same
    rw [year, number] at day'
    omega
  · omega

/-- Moving forwards by months does not lead to an earlier day. -/
theorem dayNumber_le_addMonths (c : Civil) {count : Int} (forwards : 0 ≤ count)
    : c.dayNumber ≤ (c.addMonths count).dayNumber := by
  obtain ⟨month, day⟩ := isMonthsAfter_addMonths c count
  refine Int.not_lt.mp (mt dayNumber_lt_iff.mp ?_)
  by_cases same : (c.addMonths count).monthNumber = c.monthNumber
  · obtain ⟨year, number⟩ := eq_of_monthNumber same
    have := c.day_mem
    rw [year, number] at day
    omega
  · omega

/-- Moving backwards by months does not lead to a later day. -/
theorem dayNumber_addMonths_le (c : Civil) {count : Int} (backwards : count ≤ 0)
    : (c.addMonths count).dayNumber ≤ c.dayNumber := by
  obtain ⟨month, day⟩ := isMonthsAfter_addMonths c count
  refine Int.not_lt.mp (mt dayNumber_lt_iff.mp ?_)
  omega

end Civil

end DueTasks
