/-! Messages of readers that only know the kind of thing that they look for. -/

namespace DueTasks.Text

/-- A kind of thing that a reader did not find. -/
inductive Mismatch where
  | number
  | identifier
  | character
  | moreInput
  /-- Any other kind, by its name. -/
  | other (name : String)
deriving DecidableEq

namespace Mismatch

/-- The kind with a given name. -/
def ofName : String → Mismatch
  | "Digit" => number
  | "Alpha" => identifier
  | "Tag" => character
  | "Char" => character
  | "OneOf" => character
  | "Eof" => moreInput
  | name => other name

/-- The mismatch in words. -/
def message : Mismatch → String
  | number => "expected a number"
  | identifier => "expected an identifier"
  | character => "unexpected character"
  | moreInput => "unexpected end of input"
  | other name => "parse error: " ++ name

/-- The mismatch in words, with the text at which it arose. -/
def messageAt (m : Mismatch) (input : String) : String :=
  m.message ++ " at: " ++ input

end Mismatch

end DueTasks.Text
