import DueTasks.Text.Decimal

/-! Times of day, to the minute. -/

namespace DueTasks

/-- A minute of the day. -/
structure ClockTime where
  hour : Fin 24
  minute : Fin 60
deriving DecidableEq

namespace ClockTime

/-- The time with the given hour and minute, if there is one. -/
def ofParts? (hour minute : Nat) : Option ClockTime :=
  if h : hour < 24 ∧ minute < 60 then some ⟨⟨hour, h.1⟩, ⟨minute, h.2⟩⟩ else none

/-- Hours and minutes, two digits each. -/
def minuteChars (t : ClockTime) : List Char :=
  Text.paddedDecimal 2 t.hour ++ ':' :: Text.paddedDecimal 2 t.minute

/-- Hours and minutes. -/
def minuteText (t : ClockTime) : String :=
  String.ofList t.minuteChars

/-- Hours, minutes and seconds. -/
def secondText (t : ClockTime) : String :=
  String.ofList (t.minuteChars ++ [':', '0', '0'])

end ClockTime

end DueTasks
