import DueTasks.Calendar.Date

/-! Signed calendar periods.
The parts of a period saturate at the bounds of 32 bits. Adding a period to a date moves it by years
and months first, keeping the day of the month where the month has it, and then by days; a date that
leaves the range stays at the end where it left.
-/

namespace DueTasks

/-- A period of years, months and days. Weeks count as days. Every operation keeps the parts within
32 bits.
-/
structure Period where
  years : Int
  months : Int
  days : Int
deriving DecidableEq, Inhabited

/-- The units in which a period can be written. -/
inductive PeriodUnit where
  | year
  | month
  | week
  | day
deriving DecidableEq

namespace Period

/-- The least number a part of a period can hold. -/
def leastPart : Int := -2147483648

/-- The greatest number a part of a period can hold. -/
def greatestPart : Int := 2147483647

/-- The nearest number that a part of a period can hold. -/
def saturate (n : Int) : Int :=
  max leastPart (min n greatestPart)

/-- The empty period. -/
def zero : Period := ⟨0, 0, 0⟩

instance : Zero Period := ⟨zero⟩

def weeks (count : Int) : Period :=
  ⟨0, 0, saturate (count * 7)⟩

/-- The part-wise sum, saturated. -/
def add (a b : Period) : Period :=
  ⟨saturate (a.years + b.years), saturate (a.months + b.months), saturate (a.days + b.days)⟩

instance : Add Period := ⟨add⟩

/-- The opposite period, saturated. -/
def neg (a : Period) : Period :=
  ⟨saturate (-a.years), saturate (-a.months), saturate (-a.days)⟩

instance : Neg Period := ⟨neg⟩

/-- Whether all parts are zero. -/
def isZero (p : Period) : Bool :=
  p == zero

def ofUnit (count : Nat) (unit : PeriodUnit) : Period :=
  let part := min (count : Int) greatestPart
  match unit with
  | .year => ⟨part, 0, 0⟩
  | .month => ⟨0, part, 0⟩
  | .week => weeks part
  | .day => ⟨0, 0, part⟩

/-- The sum of counted units, added up from the left. -/
def ofUnits (parts : List (Nat × PeriodUnit)) : Period :=
  parts.foldl (fun sum part => sum + ofUnit part.1 part.2) zero

/-- The number of months that years and months make up together. -/
def totalMonths (p : Period) : Int :=
  12 * p.years + p.months

/-- The date that lies this period after `d`. -/
def addTo (p : Period) (d : Date) : Date :=
  match d.addMonths? p.totalMonths with
  | none => Date.saturated p.totalMonths
  | some shifted => (shifted.addDays? p.days).getD (Date.saturated p.days)

/-- The number and the name of each part that is not zero, or zero days if there is none. -/
def keywords (p : Period) : List String :=
  let parts := [(p.years, "years"), (p.months, "months"), (p.days, "days")]
  let shown := parts.filter fun part => part.1 ≠ 0
  if shown.isEmpty then ["0", "days"]
  else shown.flatMap fun part => [toString part.1, part.2]

/-- The keywords in one text, separated by spaces. -/
def text (p : Period) : String :=
  " ".intercalate p.keywords

end Period

end DueTasks
