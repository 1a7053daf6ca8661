import DueTasks.Yaml.Scalar

/-! YAML documents that hold one flat mapping.
The mapping stands in lines or between braces, with comments, and with document markers around it.
Its keys and values are scalars. A document that holds anything else is refused.
-/

namespace DueTasks.Yaml

/-- The entries of a mapping, in their order. -/
abbrev Mapping := List (List Char × Scalar)

/-! ## Mappings in lines -/

/-- Reads the value behind a colon, which may begin on a later line that is indented deeper. -/
def entryValue? (anchors : Anchors) (indent : Nat) (chars : List Char) (lines : List Line)
    : Option (Anchors × Scalar × List Line) := do
  let (marks, start) := Marks.none.read (dropBlanks chars)
  let (marks, start, lines) :=
    if isIdle start then
      match dropIdle lines with
      | [] => (marks, [], [])
      | line :: more =>
          if indent < indentOf line then
            let (marks, start) := marks.read (dropBlanks line)
            (marks, start, more)
          else (marks, [], line :: more)
    else (marks, start, lines)
  let (scalar, left) ← scalar? anchors indent marks start lines
  return (marks.bind scalar anchors, scalar, left)

/-- Reads the key of an entry and the colon behind it, and tells what follows on the line. -/
def key? (anchors : Anchors) (chars : List Char) : Option (Anchors × List Char × List Char) := do
  let (marks, start) := Marks.none.read chars
  let (name, rest) ← match quoted? start with
    | some (name, after) =>
        match dropBlanks after with
        | ':' :: rest => if isApart rest then some (⟨name, false, marks.tag⟩, rest) else none
        | _ => none
    | none =>
        if beginsPlain false start then
          match plainRun false start with
          | (name, .colon rest) => some (⟨dropBlanksRight name, true, marks.tag⟩, rest)
          | _ => none
        else none
  return (marks.bind name anchors, name.text, rest)

/-- What an entry is read to: the anchors so far, the entry, and the lines left. -/
abbrev EntryRead := Anchors × (List Char × Scalar) × List Line

/-- Reads an entry whose key stands behind a question mark, and whose value, if there is one, stands
behind a colon on a line of its own.
-/
def questionEntry? (anchors : Anchors) (indent : Nat) (chars : List Char) (lines : List Line)
    : Option EntryRead := do
  let (anchors, key, left) ← entryValue? anchors indent chars lines
  let bare : EntryRead := (anchors, (key.text, Scalar.empty), left)
  match dropIdle left with
  | [] => return bare
  | line :: more =>
      match line.drop indent with
      | ':' :: value =>
          if indentOf line = indent && isApart value then
            let (anchors, scalar, left) ← entryValue? anchors indent value more
            return (anchors, (key.text, scalar), left)
          else return bare
      | _ => return bare

/-- Reads the entry that begins with `chars` in a mapping that is indented by `indent`. -/
def entry? (anchors : Anchors) (indent : Nat) (chars : List Char) (lines : List Line)
    : Option EntryRead := do
  if chars.head? == some '?' && isApart (chars.drop 1) then
    questionEntry? anchors indent (chars.drop 1) lines
  else
    let (anchors, name, after) ← key? anchors chars
    let (anchors, scalar, left) ← entryValue? anchors indent after lines
    return (anchors, (name, scalar), left)

/-- Reads the entries of a mapping that is indented by `indent`, at most `count` of them. -/
def entries? (indent count : Nat) (anchors : Anchors) (lines : List Line) : Option Mapping :=
  match count, dropIdle lines with
  | _, [] => some []
  | 0, _ => none
  | count + 1, line :: rest =>
      if indentOf line = indent then do
        let (anchors, entry, left) ← entry? anchors indent (line.drop indent) rest
        return entry :: (← entries? indent count anchors left)
      else none

/-! ## Mappings between braces -/

/-- A text without white space, line breaks and comments at its start. `apart` says whether a
comment may begin here, and `inside` whether one has begun.
-/
def dropFiller (apart inside : Bool) : List Char → List Char
  | [] => []
  | c :: rest =>
      if c == '\n' then dropFiller true false rest
      else if inside then dropFiller apart true rest
      else if Text.isSpaceOrTab c then dropFiller true false rest
      else if c == '#' && apart then dropFiller apart true rest
      else c :: rest

/-- Reads an entry between braces, and tells what follows it. Its key may stand behind a question
mark; otherwise the key and its colon stand on one line.
-/
def flowEntry? (anchors : Anchors) (chars : List Char)
    : Option (Anchors × (List Char × Scalar) × List Char) := do
  let asked := chars.head? == some '?'
  let start := if asked then dropFiller false false (chars.drop 1) else chars
  let (anchors, key, after) ← flowScalar? anchors start
  let next := dropFiller false false after
  match next with
  | ':' :: rest =>
      let before := start.take (start.length - next.length)
      if !asked && before.contains '\n' then none
      else
        let (anchors, scalar, left) ← flowScalar? anchors (dropFiller false false rest)
        return (anchors, (key.text, scalar), left)
  | _ => return (anchors, (key.text, .empty), next)

/-- Reads the entries up to the closing brace, at most `count` of them, and tells what follows it.
-/
def flowEntries? (count : Nat) (anchors : Anchors) (chars : List Char)
    : Option (Mapping × List Char) :=
  match count, dropFiller true false chars with
  | _, '\x7d' :: rest => some ([], rest)
  | 0, _ => none
  | count + 1, start => do
      let (anchors, entry, after) ← flowEntry? anchors start
      match dropFiller false false after with
      | ',' :: rest =>
          let (more, left) ← flowEntries? count anchors rest
          return (entry :: more, left)
      | '\x7d' :: rest => return ([entry], rest)
      | _ => none

/-! ## Documents -/

/-- Whether lines hold one scalar, without any text. -/
def isEmptyScalar (marks : Marks) (start : List Char) (lines : List Line) : Bool :=
  match scalar? [] 0 marks start lines with
  | some (scalar, left) => scalar.text.isEmpty && (dropIdle left).isEmpty
  | none => false

/-- Reads a mapping between braces, behind the opening one. -/
def braces? (lines : List Line) : Option Mapping := do
  let text := joinLines lines
  let (mapping, after) ← flowEntries? text.length [] text
  let left := splitLines after
  if endsLine (left.headD []) && (dropIdle (left.drop 1)).isEmpty then return mapping else none

/-- Reads lines that hold a mapping, in lines or between braces, or nothing. -/
def mapping? (lines : List Line) : Option Mapping :=
  match dropIdle lines with
  | [] => some []
  | line :: rest =>
      if (line.drop (indentOf line)).head? == some '\x7b' then
        braces? ((line.drop (indentOf line + 1)) :: rest)
      else entries? (indentOf line) (rest.length + 1) [] (line :: rest)

/-- Reads the lines of a document, where `start` stands behind the marker on its line. A document
that holds nothing, or a scalar without text, counts as an empty mapping.
-/
def content? (start : List Char) (lines : List Line) : Option Mapping :=
  let all := if isIdle start then dropIdle lines else dropBlanks start :: lines
  match all with
  | [] => some []
  | line :: rest =>
      let (marks, after) := Marks.none.read (line.drop (indentOf line))
      if after.head? == some '\t' then none
      else if after.head? == some '\x7b' then braces? (after.drop 1 :: rest)
      else
        let mapping := if isIdle after then mapping? rest
          else if isIdle start then mapping? all
          else none
        mapping.or (if isEmptyScalar marks after rest then some [] else none)

/-- The lines up to an end marker, and the empty text before it. There are none if a second document
follows.
-/
def untilEnd? : List Line → Option (List Line)
  | [] => some []
  | line :: rest =>
      if (afterMarker? "---" line).isSome then none
      else
        match afterMarker? "..." line with
        | some after =>
            let isEnd (l : Line) := isIdleLine l || (afterMarker? "..." l).any isIdle
            if isIdle after && rest.all isEnd then some [[]] else none
        | none => (untilEnd? rest).map (line :: ·)

/-- The words of a line up to a comment. -/
def lineWords (line : Line) : List String :=
  let words := (Text.parts Text.isSpaceOrTab line).filter (· ≠ [])
  (words.takeWhile fun word => word.head? ≠ some '#').map String.ofList

/-- Whether a line is a directive: a version that is known, or the beginning of tags. -/
def isDirective (line : Line) : Bool :=
  match lineWords line with
  | ["%YAML", version] => version == "1.1" || version == "1.2"
  | ["%TAG", _, _] => true
  | _ => false

/-- Whether a line is a directive or holds nothing but a comment. -/
def isPreamble (line : Line) : Bool :=
  isDirective line || isIdleLine line

/-- Reads a document that holds a flat mapping, or nothing. -/
def Mapping.read? (text : String) : Option Mapping :=
  let chars := match text.toList with
    | '\ufeff' :: rest => rest
    | chars => chars
  if !chars.all isAllowed then none
  else
    let lines := dropIdle (splitLines (plainBreaks chars))
    let directives := lines.takeWhile isPreamble
    match lines.drop directives.length with
    | [] => if directives.isEmpty then some [] else none
    | line :: rest =>
        match afterMarker? "---" line with
        | some start => do content? start (← untilEnd? rest)
        | none =>
            if directives.isEmpty && (afterMarker? "..." line).isNone then do
              content? [] (← untilEnd? (line :: rest))
            else none

end DueTasks.Yaml
