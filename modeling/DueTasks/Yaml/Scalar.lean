import DueTasks.Yaml.Block
import DueTasks.Yaml.Plain
import DueTasks.Yaml.Quoted

/-! Scalars of YAML as the values of entries, with the anchors and tags that may stand before
them.
-/

namespace DueTasks.Yaml

open Text

structure Scalar where
  text : List Char
  /-- Whether it is written as it is, neither in quotes nor as a block. -/
  isPlain : Bool
  /-- The tag in front of it, without the first exclamation mark. -/
  tag : Option (List Char)
deriving DecidableEq, Inhabited

/-- The plain scalar without text. -/
def Scalar.empty : Scalar :=
  ⟨[], true, none⟩

/-- The scalars that anchors stand for, the latest first. -/
abbrev Anchors := List (List Char × Scalar)

/-- The marks in front of a value: an anchor and a tag. -/
structure Marks where
  anchor : Option (List Char)
  tag : Option (List Char)

namespace Marks

/-- No marks. -/
def none : Marks :=
  ⟨.none, .none⟩

def bind (marks : Marks) (scalar : Scalar) (anchors : Anchors) : Anchors :=
  match marks.anchor with
  | some name => (name, scalar) :: anchors
  | .none => anchors

/-- Whether a character goes on the name of an anchor or a tag. -/
def isNameChar (c : Char) : Bool :=
  !isBlank c && !isFlowSign c

/-- The number of characters of a tag behind its exclamation mark. A tag in angle brackets ends
behind them.
-/
def tagLength (chars : List Char) : Nat :=
  if chars.head? == some '<' then (chars.takeWhile (· != '>')).length + 1
  else (chars.takeWhile isNameChar).length

/-- Reads one mark, if there is one. No value has two anchors or two tags. -/
def readOne? (marks : Marks) : List Char → Option (Marks × List Char)
  | [] => .none
  | c :: rest =>
      if c == '&' && marks.anchor.isNone then
        let name := rest.takeWhile isNameChar
        some ({ marks with anchor := some name }, dropBlanks (rest.drop name.length))
      else if c == '!' && marks.tag.isNone then
        let tag := rest.take (tagLength rest)
        some ({ marks with tag := some tag }, dropBlanks (rest.drop tag.length))
      else .none

/-- Reads the marks in front of a value, in any order. -/
def read (marks : Marks) (chars : List Char) : Marks × List Char :=
  match marks.readOne? chars with
  | .none => (marks, chars)
  | some (first, rest) => (first.readOne? rest).getD (first, rest)

end Marks

/-- Reads the scalar behind an entry's colon, where the mapping is indented by `indent`. The scalar
begins with `chars` and may go on in the lines that follow; the lines left are told.
-/
def scalar? (anchors : Anchors) (indent : Nat) (marks : Marks) (chars : List Char)
    (lines : List Line) : Option (Scalar × List Line) :=
  let scalar (plain : Bool) (text : List Char) : Scalar := ⟨text, plain, marks.tag⟩
  match chars with
  | [] => some (scalar true [], lines)
  | c :: rest =>
      if c == '*' then
        if endsLine (rest.dropWhile (!isBlank ·)) then
          (anchors.lookup (rest.takeWhile (!isBlank ·))).map fun target => (target, lines)
        else none
      else if c == '|' || c == '>' then
        (block? (c == '>') rest indent lines).map fun block => (scalar false block.1, block.2)
      else if c == '"' || c == '\'' then do
        let (text, after) ← quoted? (joinLines (chars :: lines))
        let left := splitLines after
        if endsLine (left.headD []) then return (scalar false text, left.drop 1) else none
      else if beginsPlain false chars then
        match plainRun false chars with
        | (text, .line) =>
            (plainLines? indent 0 (dropBlanksRight text) lines).map fun found =>
              (scalar true found.1, found.2)
        | (text, .comment) => some (scalar true (dropBlanksRight text), lines)
        | _ => none
      else none

/-- Reads a scalar between brackets, and tells what follows it. A missing scalar is plain and
empty.
-/
def flowScalar? (anchors : Anchors) (chars : List Char)
    : Option (Anchors × Scalar × List Char) := do
  let (marks, start) := Marks.none.read chars
  let scalar (plain : Bool) (text : List Char) : Scalar := ⟨text, plain, marks.tag⟩
  let (found, after) ← match start with
    | [] => none
    | c :: rest =>
        if c == '*' then
          (anchors.lookup (rest.takeWhile Marks.isNameChar)).map fun target =>
            (target, rest.dropWhile Marks.isNameChar)
        else if c == '"' || c == '\'' then
          (quoted? start).map fun quoted => (scalar false quoted.1, quoted.2)
        else if beginsPlain true start then
          match plainRun true start with
          | (_, .misplaced) => none
          | (raw, .colon more) => some (scalar true (plainValue raw), ':' :: more)
          | (raw, .sign more) => some (scalar true (plainValue raw), more)
          | (raw, _) => some (scalar true (plainValue raw), start.drop raw.length)
        else some (scalar true [], start)
  return (marks.bind found anchors, found, after)

end DueTasks.Yaml
