/-! Lines of a text.
A line ends at a line feed, which is not part of it; a carriage return just before the line feed
goes with it. A last line without a line feed counts if it holds anything.
-/

namespace DueTasks.Text

/-- A line without the carriage return that stood before its line feed. -/
def dropCarriageReturn (line : List Char) : List Char :=
  if line.getLast? = some '\r' then line.dropLast else line

/-- The lines of a text, `current` holding the line begun so far, latest character first. -/
def linesFrom (current : List Char) : List Char → List (List Char)
  | [] => if current.isEmpty then [] else [current.reverse]
  | '\n' :: rest => dropCarriageReturn current.reverse :: linesFrom [] rest
  | c :: rest => linesFrom (c :: current) rest

def lines (chars : List Char) : List (List Char) :=
  linesFrom [] chars

end DueTasks.Text
