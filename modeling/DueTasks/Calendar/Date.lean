import DueTasks.Calendar.Civil
import DueTasks.Text.Decimal

/-! The dates that tasks can have.
They are the days of the years -262143 to 262142, in calendar order. Moving a date past either end
gives no date; whoever moves it decides which end stands for the result.
-/

namespace DueTasks

/-- A day in a year that can be represented. -/
structure Date extends Civil where
  year_mem : -262143 ≤ year ∧ year ≤ 262142
deriving DecidableEq

namespace Date

instance : LT Date := ⟨fun a b => a.toCivil.before b.toCivil = true⟩

instance : LE Date := ⟨fun a b => b.toCivil.before a.toCivil = false⟩

instance (a b : Date) : Decidable (a < b) := inferInstanceAs (Decidable (_ = true))

instance (a b : Date) : Decidable (a ≤ b) := inferInstanceAs (Decidable (_ = false))

instance : Max Date := maxOfLe

instance : Min Date := minOfLe

/-- The earliest date, which also stands for everything before it. -/
def first : Date where
  toCivil := ⟨-262143, 1, 1, by omega, by decide⟩
  year_mem := by decide

/-- The latest date, which also stands for everything after it and for `never`. -/
def last : Date where
  toCivil := ⟨262142, 12, 31, by omega, by decide⟩
  year_mem := by decide

instance : Inhabited Date := ⟨first⟩

/-- A day of the calendar as a date, if its year can be represented. -/
def ofCivil? (c : Civil) : Option Date :=
  if h : -262143 ≤ c.year ∧ c.year ≤ 262142 then some ⟨c, h⟩ else none

/-- The date with the given parts, if there is one. -/
def ofParts? (year : Int) (month day : Nat) : Option Date :=
  if h : (1 ≤ month ∧ month ≤ 12) ∧ (1 ≤ day ∧ day ≤ daysInMonth year month) then
    ofCivil? ⟨year, month, day, h.1, h.2⟩
  else none

/-- The end of the range in the direction of a sign. -/
def saturated (direction : Int) : Date :=
  if 0 ≤ direction then last else first

/-- The latest date of a month on or before a day number, if there is one. Every month has 28 days,
so that the search ends with them: a month without one of them has no dates at all.
-/
def latestUpTo? (year : Int) (month : Nat) : Nat → Option Date
  | 0 => none
  | day + 1 =>
      match ofParts? year month (day + 1) with
      | some date => some date
      | none => if day + 1 ≤ 28 then none else latestUpTo? year month day

/-- A date from parts that may be out of range. The month is brought into 1 to 12 and the day into 1
to 31; a day past the end of the month becomes the end of the month.
-/
def ofParts (year : Int) (month day : Nat) : Date :=
  (latestUpTo? year (max 1 (min month 12)) (max 1 (min day 31))).getD (saturated year)

/-- The greatest number of months or of days by which a date is moved. -/
def greatestStep : Nat := 2147483647

/-- The date `count` months later, on the same day or at the end of a shorter month. -/
def addMonths? (d : Date) (count : Int) : Option Date :=
  if count.natAbs ≤ greatestStep then ofCivil? (d.toCivil.addMonths count) else none

/-- The date `count` days later. -/
def addDays? (d : Date) (count : Int) : Option Date :=
  if count.natAbs ≤ greatestStep then ofCivil? (d.toCivil.addDays count) else none

/-- A year in text: four digits from 0 to 9999, and otherwise a sign and at least four digits. -/
def yearText (year : Int) : List Char :=
  if year < 0 then '-' :: Text.paddedDecimal 4 year.natAbs
  else if 9999 < year then '+' :: Text.paddedDecimal 4 year.natAbs
  else Text.paddedDecimal 4 year.natAbs

/-- A date in text: year, month and day, joined by hyphens. -/
def chars (d : Date) : List Char :=
  yearText d.year ++ '-' :: Text.paddedDecimal 2 d.month ++ '-' :: Text.paddedDecimal 2 d.day

/-- A date as it stands in task names. -/
def text (d : Date) : String :=
  String.ofList d.chars

end Date

end DueTasks
