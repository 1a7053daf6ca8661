import DueTasks.Calendar.Date
import DueTasks.Text.Blank

/-! Dates in full: year, month and day, joined by hyphens.
The year has up to four digits, or a sign and any number of digits; month and day have one or two.
White space may stand before each number and each hyphen, and at the end. The date must exist.
-/

namespace DueTasks.Date

open Text

/-- Reads one to `most` digits behind white space, or as many as there are, and tells what
follows.
-/
def number? (most : Option Nat) (chars : List Char) : Option (Nat × List Char) :=
  let digits := (chars.dropWhile isBlank).takeWhile Char.isDigit
  let taken := match most with
    | some most => digits.take most
    | none => digits
  if taken.isEmpty then none
  else some (digitsValue taken, (chars.dropWhile isBlank).drop taken.length)

/-- Reads a year behind white space, and tells what follows. -/
def signedYear? (chars : List Char) : Option (Int × List Char) :=
  match chars.dropWhile isBlank with
  | '-' :: rest => if startsDigit rest then (number? none rest).map fun n => (-n.1, n.2) else none
  | '+' :: rest => if startsDigit rest then (number? none rest).map fun n => (n.1, n.2) else none
  | rest => (number? (some 4) rest).map fun n => (n.1, n.2)
where
  /-- Whether a digit comes next. -/
  startsDigit (chars : List Char) : Bool :=
    chars.head?.any Char.isDigit

/-- Reads a hyphen behind white space, and tells what follows. -/
def hyphen? (chars : List Char) : Option (List Char) :=
  match chars.dropWhile isBlank with
  | '-' :: rest => some rest
  | _ => none

/-- The date that a text gives in full. -/
def ofFullText? (text : String) : Option Date := do
  let (year, rest) ← signedYear? text.toList
  let (month, rest) ← number? (some 2) (← hyphen? rest)
  let (day, rest) ← number? (some 2) (← hyphen? rest)
  if allBlank rest then ofParts? year month day else none

end DueTasks.Date
