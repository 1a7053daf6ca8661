import DueTasks.Yaml.Line

/-! Block scalars of YAML: the indented lines behind `|`, which keeps line breaks, or `>`, which
joins lines of text.
-/

namespace DueTasks.Yaml

open Text

/-- How line breaks at the end of a block are treated. -/
inductive Chomp where
  /-- All of them are left out. -/
  | strip
  /-- One is kept. -/
  | clip
  /-- All of them are kept. -/
  | keep
deriving DecidableEq

/-- Reads the signs behind `|` or `>`: how to treat the end, and how deep the block is indented. -/
def blockHeader? (chomp : Chomp) (depth : Option Nat) : List Char → Option (Chomp × Option Nat)
  | '-' :: rest => if chomp = .clip then blockHeader? .strip depth rest else none
  | '+' :: rest => if chomp = .clip then blockHeader? .keep depth rest else none
  | c :: rest =>
      if '1' ≤ c && c ≤ '9' && depth.isNone then
        blockHeader? chomp (some (c.toNat - '0'.toNat)) rest
      else if endsLine (c :: rest) then some (chomp, depth)
      else none
  | [] => some (chomp, depth)

/-- Whether a line is empty but for spaces. -/
def isSpaces (line : Line) : Bool :=
  line.all (· == ' ')

/-- Whether a line belongs to a block of the given depth. -/
def inBlock (depth : Nat) (line : Line) : Bool :=
  depth ≤ indentOf line || isSpaces line

/-- How deep the lines of a block are indented: as deep as its first line with text, or an empty
line before it that is deeper. That line must not be indented by a tab.
-/
def depth? (indent : Nat) (lines : List Line) : Option Nat :=
  let blank := lines.takeWhile isSpaces
  let first := (lines.drop blank.length).headD []
  let deepest := (blank.map List.length).foldl max (indentOf first)
  if first[indentOf first]? == some '\t' then none else some (max (indent + 1) deepest)

/-- Joins the lines of a folded block. Lines that begin with a blank keep their line breaks. -/
def foldBlock : List Line → List Char
  | [] => []
  | [line] => line
  | line :: next :: rest =>
      let spaced (l : Line) := l.head?.any isSpaceOrTab
      if line.isEmpty then '\n' :: foldBlock (next :: rest)
      else
        match (next :: rest).dropWhile List.isEmpty with
        | [] => line
        | after :: _ =>
            let break_ := if spaced line || spaced after then ['\n']
              else if next.isEmpty then [] else [' ']
            line ++ break_ ++ foldBlock (next :: rest)

/-- The value of a block from its lines. `ended` says that the last of them ends with a line
break.
-/
def blockValue (folded : Bool) (chomp : Chomp) (ended : Bool) (lines : List Line) : List Char :=
  let trailing := (lines.reverse.takeWhile List.isEmpty).length
  let body := lines.take (lines.length - trailing)
  let text := if folded then foldBlock body else joinLines body
  let last := if ended && !body.isEmpty then ['\n'] else []
  match chomp with
  | .strip => text
  | .clip => text ++ last
  | .keep => text ++ last ++ List.replicate trailing '\n'

/-- Reads a block whose signs are `header`, below a mapping that is indented by `indent`, and tells
which lines are left. The last of the lines is what follows the last line break.
-/
def block? (folded : Bool) (header : List Char) (indent : Nat) (lines : List Line)
    : Option (List Char × List Line) := do
  let (chomp, more) ← blockHeader? .clip none header
  let depth ← match more with
    | some more => some (indent + more)
    | none => depth? indent lines
  let body := lines.takeWhile (inBlock depth)
  let left := lines.drop body.length
  let texts := body.map (·.drop depth)
  if !left.isEmpty then return (blockValue folded chomp true texts, left)
  else if texts.getLast? = some [] then return (blockValue folded chomp true texts.dropLast, [])
  else return (blockValue folded chomp false texts, [])

end DueTasks.Yaml
