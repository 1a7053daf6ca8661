import DueTasks.Calendar.Period
import DueTasks.Text.Cursor

/-! Periods in text: an optional sign, then one or more numbers that each carry a unit, as in
`3Y2M1D` or `-2W`. The sign applies to all of them.
-/

namespace DueTasks

open Text

/-- The unit that a letter stands for. -/
def PeriodUnit.ofLetter? : Char → Option PeriodUnit
  | 'Y' => some .year
  | 'M' => some .month
  | 'W' => some .week
  | 'D' => some .day
  | _ => none

namespace Period

/-- Reads one letter that stands for a unit. -/
def readUnit? (c : Cursor) : Option (Parsed PeriodUnit c.remaining) := do
  let letter ← c.any?
  return letter.withValue (← PeriodUnit.ofLetter? letter.value)

/-- The greatest number that is read in front of a unit. It stands for all larger ones. -/
def greatestCount : Nat := 18446744073709551615

/-- Reads a number and its unit. -/
def readPart? (c : Cursor) : Option (Parsed (Nat × PeriodUnit) c.remaining) := do
  let digits ← c.run? Char.isDigit
  let unit ← readUnit? digits.next
  let count := cappedValue greatestCount digits.value
  return (unit.withValue (count, unit.value)).widen (Nat.le_of_lt digits.within)

/-- Reads numbers with units for as long as there are any. -/
def readParts (c : Cursor) : Parsed (List (Nat × PeriodUnit)) (c.remaining + 1) :=
  match readPart? c with
  | none => c.give []
  | some part =>
      let more := readParts part.next
      (more.withValue (part.value :: more.value)).widen (by
        have := part.within
        omega)
termination_by c.remaining
decreasing_by exact part.within

/-- Reads a sign: whether it is a minus. -/
def readSign (c : Cursor) : Parsed Bool (c.remaining + 1) :=
  let minus := (c.char? '-').map fun mark => (mark.withValue true).loosen
  let plus := (c.char? '+').map fun mark => (mark.withValue false).loosen
  (minus.or plus).getD (c.give false)

/-- Reads the longest period. -/
def read? (c : Cursor) : Option (Parsed Period c.remaining) := do
  let sign := readSign c
  let part ← readPart? sign.next
  let more := readParts part.next
  let sum := ofUnits (part.value :: more.value)
  return (more.withValue (if sign.value then -sum else sum)).widen (by
    have := sign.within
    have := part.within
    omega)

end Period

end DueTasks
