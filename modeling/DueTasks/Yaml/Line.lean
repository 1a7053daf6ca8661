import DueTasks.Text.Blank
import DueTasks.Text.Parts

/-! Lines of a YAML document, and the signs that end its parts. -/

namespace DueTasks.Yaml

open Text

/-- A line of a document, without its line break. -/
abbrev Line := List Char

/-- The text with every line break as a line feed. -/
def plainBreaks : List Char → List Char
  | [] => []
  | '\r' :: '\n' :: rest => '\n' :: plainBreaks rest
  | '\r' :: rest => '\n' :: plainBreaks rest
  | '\u0085' :: rest => '\n' :: plainBreaks rest
  | c :: rest => c :: plainBreaks rest

/-- The parts of a text between line feeds. -/
def splitLines (chars : List Char) : List Line :=
  parts (· == '\n') chars

/-- Lines joined by line feeds. -/
def joinLines (lines : List Line) : List Char :=
  ['\n'].intercalate lines

/-- Whether a character may stand in a document. -/
def isAllowed (c : Char) : Bool :=
  let n := c.toNat
  c == '\t' || c == '\n' || c == '\r' || (0x20 ≤ n && n ≤ 0x7e) || n == 0x85
    || (0xa0 ≤ n && n ≠ 0xfffe && n ≠ 0xffff)

/-- The signs of mappings and sequences between brackets. -/
def isFlowSign (c : Char) : Bool :=
  [',', '[', ']', '\x7b', '\x7d'].contains c

/-- A text without spaces and tabs at its start. -/
def dropBlanks (chars : List Char) : List Char :=
  chars.dropWhile isSpaceOrTab

/-- A text without spaces and tabs at its end. -/
def dropBlanksRight (chars : List Char) : List Char :=
  (dropBlanks chars.reverse).reverse

/-- Whether a text ends here or goes on with a space, a tab or a line break. -/
def isApart (chars : List Char) : Bool :=
  chars.head?.all fun next => isSpaceOrTab next || next == '\n'

/-- The number of spaces that a line begins with. -/
def indentOf (line : Line) : Nat :=
  (line.takeWhile (· == ' ')).length

/-- Whether a line holds nothing but spaces and tabs. -/
def isBare (line : Line) : Bool :=
  line.all isSpaceOrTab

/-- Whether nothing but a comment follows. -/
def isIdle (chars : List Char) : Bool :=
  (dropBlanks chars).head?.all (· == '#')

/-- Whether nothing but a comment follows a token, from which a comment must be set off. -/
def endsLine (chars : List Char) : Bool :=
  isApart chars && isIdle chars

/-- Whether a line holds nothing but a comment, behind spaces alone. -/
def isIdleLine (line : Line) : Bool :=
  (line.dropWhile (· == ' ')).head?.all (· == '#')

/-- The lines from the first that holds more than a comment. -/
def dropIdle (lines : List Line) : List Line :=
  lines.dropWhile isIdleLine

/-- Whether a tab stands among the first blanks of a line, where only spaces may indent it. -/
def indentsByTab (indent : Nat) (line : Line) : Bool :=
  indentOf line ≤ indent && (line.drop (indentOf line)).head? == some '\t'

/-- What follows a document marker on a line that begins with it. -/
def afterMarker? (marker : String) (line : Line) : Option (List Char) :=
  if marker.toList.isPrefixOf line && isApart (line.drop marker.length) then
    some (line.drop marker.length)
  else none

/-- Text joined over a line break: by a space, or by as many line feeds as there are empty lines. -/
def foldBreak (emptyLines : Nat) : List Char :=
  if emptyLines = 0 then [' '] else List.replicate emptyLines '\n'

end DueTasks.Yaml
