import DueTasks.Text.Span

/-! Why a task name is not a trigger: what was expected, and where. -/

namespace DueTasks

/-- What a name should have had at some place. -/
inductive Expectation where
  | dateOrCall
  | date
  | openAfter (name : String)
  | close
  | commaOrClose
  | argument
  | closingQuote
  | timeOfDay
  | validTimeOfDay
  | priorityInRange
deriving DecidableEq

namespace Expectation

/-- The expectation in words. -/
def message : Expectation → String
  | dateOrCall => "expected a date or expression"
  | date => "expected a date"
  | openAfter name => "expected '(' after '" ++ name ++ "'"
  | close => "expected ')'"
  | commaOrClose => "expected ',' or ')'"
  | argument => "expected an argument"
  | closingQuote => "unterminated string"
  | timeOfDay => "expected a time as THH:MM"
  | validTimeOfDay => "expected a valid time of day"
  | priorityInRange => "priority is out of range"

end Expectation

/-- A name that is not a trigger. Line and column are counted in characters from 1. -/
structure SyntaxError where
  text : String
  line : Nat
  column : Nat
  expected : Expectation
deriving DecidableEq

namespace SyntaxError

/-- The error at a byte offset of a text. -/
def atOffset (text : String) (offset : Nat) (expected : Expectation) : SyntaxError :=
  let before := Text.takeBytes offset text.toList
  let column := (before.reverse.takeWhile (· ≠ '\n')).length + 1
  { text, line := before.count '\n' + 1, column, expected }

/-- The error in words. -/
def message (e : SyntaxError) : String :=
  "syntax error at " ++ toString e.line ++ ":" ++ toString e.column ++ " in '" ++ e.text ++ "': "
    ++ e.expected.message

end SyntaxError

end DueTasks
