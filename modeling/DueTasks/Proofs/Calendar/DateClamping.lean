import DueTasks.Calendar.Date
import Mathlib.Tactic.IntervalCases

/-! Dates from numbers that may be out of range.
The month is brought into the year, and the search for the day goes back to the end of a shorter
month. It gives up on the 28th, and no month is shorter, so that it gives up in years without dates
alone. Those are years out of range, for which the nearer end of the range stands.
-/

namespace DueTasks

-----------------------------------------------------------------------------------------
-- The lengths of the months
-----------------------------------------------------------------------------------------

/-- Every fourth year has a leap day, but of the years that end a century only every fourth has. -/
def HasLeapDay (year : Int) : Prop :=
  4 ∣ year ∧ (100 ∣ year → 400 ∣ year)

instance (year : Int) : Decidable (HasLeapDay year) :=
  inferInstanceAs (Decidable (_ ∧ _))

theorem isLeapYear_iff {year : Int} : isLeapYear year = true ↔ HasLeapDay year := by
  simp only [isLeapYear, HasLeapDay, Bool.and_eq_true, Bool.or_eq_true, beq_iff_eq, bne_iff_ne]
  omega

/-- The lengths of the months of a year, from January on. -/
def monthLengths (year : Int) : List Nat :=
  [31, if HasLeapDay year then 29 else 28, 31, 30, 31, 30, 31, 31, 30, 31, 30, 31]

theorem getElem?_monthLengths (year : Int) {month : Nat} (inYear : 1 ≤ month ∧ month ≤ 12)
    : (monthLengths year)[month - 1]? = some (daysInMonth year month) := by
  obtain ⟨first, last⟩ := inYear
  interval_cases month <;> simp [monthLengths, daysInMonth, isLeapYear_iff]

-----------------------------------------------------------------------------------------
-- The search for the day
-----------------------------------------------------------------------------------------

namespace Date

variable {year : Int} {month day : Nat}

/-- A day that a month has in a year of the range is a date. -/
theorem ofParts?_of_fits (range : -262143 ≤ year ∧ year ≤ 262142)
    (month_mem : 1 ≤ month ∧ month ≤ 12) (day_mem : 1 ≤ day ∧ day ≤ daysInMonth year month)
    : ofParts? year month day = some ⟨⟨year, month, day, month_mem, day_mem⟩, range⟩ := by
  rw [ofParts?, dif_pos ⟨month_mem, day_mem⟩, ofCivil?, dif_pos range]

/-- A day behind the end of a month is no date. -/
theorem ofParts?_of_long (long : daysInMonth year month < day)
    : ofParts? year month day = none := by
  rw [ofParts?, dif_neg fun parts => Nat.not_le.mpr long parts.2.2]

/-- A year out of range has no dates. -/
theorem ofParts?_of_outside (outside : ¬ (-262143 ≤ year ∧ year ≤ 262142)) (month day : Nat)
    : ofParts? year month day = none := by
  rw [ofParts?]
  split
  · rw [ofCivil?, dif_neg outside]
  · rfl

/-- The latest date of a month up to a day is that day, or the end of a shorter month, by induction
on the day. The search goes past days behind the end of the month only, and all of them come after
the 28th.
-/
theorem latestUpTo?_eq (range : -262143 ≤ year ∧ year ≤ 262142)
    (month_mem : 1 ≤ month ∧ month ≤ 12) (first : 1 ≤ day)
    : (latestUpTo? year month day).map Date.toCivil = some (Civil.clamped year month day) := by
  have shortest := (daysInMonth_mem year month).1
  have sameMonth : max 1 (min month 12) = month := by omega
  induction day with
  | zero => omega
  | succ day ih =>
      rw [latestUpTo?]
      by_cases fits : day + 1 ≤ daysInMonth year month
      · rw [ofParts?_of_fits range month_mem ⟨first, fits⟩]
        simp only [Option.map_some, Civil.clamped, sameMonth]
        congr
        omega
      · have behind : ¬ day + 1 ≤ 28 := by omega
        rw [ofParts?_of_long (Nat.not_le.mp fits)]
        simp only [if_neg behind, ih (by omega)]
        simp only [Civil.clamped, sameMonth]
        congr 2
        omega

/-- In a year out of range the search finds nothing, wherever it begins. -/
theorem latestUpTo?_of_outside (outside : ¬ (-262143 ≤ year ∧ year ≤ 262142)) (month day : Nat)
    : latestUpTo? year month day = none := by
  induction day with
  | zero => rfl
  | succ day ih =>
      rw [latestUpTo?, ofParts?_of_outside outside]
      simp only [ih, ite_self]

-----------------------------------------------------------------------------------------
-- Dates from numbers
-----------------------------------------------------------------------------------------

/-- A date from parts in a year of the range is the nearest day of the calendar. -/
theorem toCivil_ofParts (range : -262143 ≤ year ∧ year ≤ 262142) (month day : Nat)
    : (ofParts year month day).toCivil = Civil.clamped year month day := by
  have most := daysInMonth_mem year (max 1 (min month 12))
  have inYear : 1 ≤ max 1 (min month 12) ∧ max 1 (min month 12) ≤ 12 := by omega
  have latest := latestUpTo?_eq range inYear (Nat.le_max_left 1 (min day 31))
  obtain ⟨date, found, civil⟩ := Option.map_eq_some_iff.mp latest
  rw [ofParts, found, Option.getD_some, civil]
  simp only [Civil.clamped]
  congr 1
  · omega
  · rw [show max 1 (min (max 1 (min month 12)) 12) = max 1 (min month 12) by omega]
    omega

/-- Every year, month and day make a date. In a year of the range it is a day of that year: its
month is the nearest one to the given month, and its day is the given one from 1 to 31, or the last
day of a month that ends before. A year out of range leads to the end of the range in its direction.
-/
theorem ofParts_exact (year : Int) (month day : Nat)
    : let date := ofParts year month day
      if first.year ≤ year ∧ year ≤ last.year then
        date.year = year
        ∧ date.month = max 1 (min month 12)
        ∧ ∃ lastDay,
            (monthLengths year)[date.month - 1]? = some lastDay
            ∧ date.day = min (max 1 (min day 31)) lastDay
      else date = if 0 ≤ year then last else first := by
  intro date
  split
  · rename_i range
    have civil : date.toCivil = Civil.clamped year month day := toCivil_ofParts range month day
    have inYear : 1 ≤ date.month ∧ date.month ≤ 12 := date.month_mem
    have same : date.month = max 1 (min month 12) := congrArg Civil.month civil
    have length := daysInMonth_mem year (max 1 (min month 12))
    have nearest : date.day = max 1 (min day (daysInMonth year (max 1 (min month 12)))) :=
      congrArg Civil.day civil
    refine ⟨congrArg Civil.year civil, same, _, getElem?_monthLengths year inYear, ?_⟩
    rw [nearest, same]
    omega
  · rename_i outside
    have nothing := latestUpTo?_of_outside outside (max 1 (min month 12)) (max 1 (min day 31))
    show (latestUpTo? year _ _).getD (saturated year) = _
    rw [nothing, Option.getD_none, saturated]

end Date

end DueTasks
