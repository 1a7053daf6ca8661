import DueTasks.Yaml.Line

/-! Plain scalars of YAML: text without quotes. It ends at a comment, or at a colon with a blank
behind it, and between brackets also at a comma or a bracket.
-/

namespace DueTasks.Yaml

open Text

/-- The signs with which no plain scalar begins. -/
def isIndicator (c : Char) : Bool :=
  isFlowSign c || "#&*!|>'\"%@\x60".toList.contains c

/-- Whether a plain scalar can begin here. With `flow` it stands between brackets. -/
def beginsPlain (flow : Bool) : List Char → Bool
  | [] => false
  | c :: rest =>
      if c == '-' then !isApart rest
      else if c == '?' || c == ':' then !flow && !isApart rest
      else !isIndicator c && !isApart [c]

/-- How a run of plain text ends. -/
inductive PlainEnd where
  /-- At the end of the text. -/
  | line
  /-- At a comment. -/
  | comment
  /-- At a colon that makes it a key, which is left out of what follows. -/
  | colon (rest : List Char)
  /-- At a sign of a mapping or a sequence between brackets. -/
  | sign (rest : List Char)
  /-- At a colon that may not stand there. -/
  | misplaced

/-- Reads plain text, on one line or, with `flow`, between brackets. -/
def plainRun (flow : Bool) : List Char → List Char × PlainEnd
  | [] => ([], .line)
  | c :: rest =>
      if c == ':' && isApart rest then ([], .colon rest)
      else if flow && c == ':' && rest.head?.any (fun next => isFlowSign next || next == '?') then
        ([], .misplaced)
      else if flow && isFlowSign c then ([], .sign (c :: rest))
      else if isApart [c] && rest.head? == some '#' then ([], .comment)
      else
        let (more, stop) := plainRun flow rest
        (c :: more, stop)

/-- Reads on a plain scalar on lines that are indented deeper than `indent`, with `gap` empty lines
passed, and tells which lines are left.
-/
def plainLines? (indent gap : Nat) (text : List Char) : List Line → Option (List Char × List Line)
  | [] => some (text, [])
  | line :: rest =>
      if indentsByTab indent line then none
      else if isBare line then plainLines? indent (gap + 1) text rest
      else if indentOf line ≤ indent || isIdle line then some (text, line :: rest)
      else
        let joined (more : List Char) := text ++ foldBreak gap ++ dropBlanksRight more
        match plainRun false (dropBlanks line) with
        | (more, .line) => plainLines? indent 0 (joined more) rest
        | (more, .comment) => some (joined more, rest)
        | _ => none

/-- Joins the lines of plain text, with `gap` empty lines passed. -/
def foldPlain (gap : Nat) (text : List Char) : List Line → List Char
  | [] => text
  | line :: rest =>
      if isBare line then foldPlain (gap + 1) text rest
      else foldPlain 0 (text ++ foldBreak gap ++ dropBlanksRight (dropBlanks line)) rest

/-- The value of plain text between brackets, which may go over several lines. -/
def plainValue (raw : List Char) : List Char :=
  match splitLines raw with
  | [] => []
  | first :: rest => foldPlain 0 (dropBlanksRight first) rest

end DueTasks.Yaml
