import DueTasks.Calendar.Date
import DueTasks.Text.Cursor

/-! Dates in text: four digits for the year, then `-` and two digits for the month, then `-` and two
digits for the day. The day, or the month and the day, may be missing and are then the first.
-/

namespace DueTasks.Date

open Text

/-- Reads the longest date. Numbers out of range are brought into the calendar. -/
def read? (c : Cursor) : Option (Parsed Date c.remaining) := do
  let year ← c.digits? 4
  have start : c.remaining + 1 - 4 ≤ c.remaining := by
    have := year.within
    omega
  let later {bound : Nat} (part : Parsed Nat bound) (le : bound ≤ year.next.remaining)
      (date : Date) : Parsed Date c.remaining :=
    (part.withValue date).widen (by
      have := year.within
      omega)
  match year.next.digitsAfter? '-' 2 with
  | none => return (year.withValue (ofParts year.value 1 1)).widen start
  | some month =>
      match month.next.digitsAfter? '-' 2 with
      | none => return later month (Nat.le_refl _) (ofParts year.value month.value 1)
      | some day =>
          return later day (Nat.le_of_lt month.within)
            (ofParts year.value month.value day.value)

/-- The date that a text holds, between optional white space. -/
def ofText? (text : String) : Option Date := do
  let found ← read? (Cursor.start (trim text.toList))
  if found.next.rest.isEmpty then some found.value else none

end DueTasks.Date
