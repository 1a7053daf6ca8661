/-! Patterns of shell scripts: `*` stands for any text, `?` for any character, and brackets for
one of the characters between them. Quoted characters stand for themselves.
-/

namespace DueTasks.Script

/-- A character of a word that has been expanded, and whether it was quoted. -/
structure FieldChar where
  char : Char
  quoted : Bool
deriving DecidableEq

/-- A field of a command. -/
abbrev Field := List FieldChar

namespace Field

def text (field : Field) : String :=
  String.ofList (field.map FieldChar.char)

end Field

/-- Whether a character is among those between brackets, where `a-z` stands for a range. -/
def inBracket (c : Char) : List Char → Bool
  | low :: '-' :: high :: rest => (low ≤ c && c ≤ high) || inBracket c rest
  | one :: rest => c == one || inBracket c rest
  | [] => false

/-- The members between brackets, with a closing bracket at the start as a member, and what
follows.
-/
def bracket? (pattern : Field) : Option (List Char × Field) :=
  let first := match pattern with
    | ⟨']', _⟩ :: _ => 1
    | _ => 0
  let members := pattern.take first ++ (pattern.drop first).takeWhile (·.char != ']')
  match pattern.drop members.length with
  | [] => none
  | _ :: rest => some (members.map FieldChar.char, rest)

/-- What a pattern begins with. -/
inductive PatternHead where
  | any
  | one (accepts : Char → Bool)

def patternHead (c : FieldChar) (rest : Field) : PatternHead × Field :=
  if c.quoted then (.one (· == c.char), rest)
  else if c.char == '*' then (.any, rest)
  else if c.char == '?' then (.one fun _ => true, rest)
  else if c.char == '[' then
    match rest with
    | ⟨'!', false⟩ :: more =>
        match bracket? more with
        | some (members, after) => (.one fun x => !inBracket x members, after)
        | none => (.one (· == '['), rest)
    | _ =>
        match bracket? rest with
        | some (members, after) => (.one fun x => inBracket x members, after)
        | none => (.one (· == '['), rest)
  else (.one (· == c.char), rest)

/-- The heads of a pattern, in their order. -/
def patternHeads (count : Nat) (pattern : Field) : List PatternHead :=
  match count, pattern with
  | count + 1, c :: rest =>
      let (head, rest) := patternHead c rest
      head :: patternHeads count rest
  | _, _ => []

def fits : List PatternHead → List Char → Bool
  | [], chars => chars.isEmpty
  | .any :: heads, chars => fitsTail heads chars
  | .one accepts :: heads, c :: chars => accepts c && fits heads chars
  | .one _ :: _, [] => false
termination_by heads chars => (heads.length, chars.length)
where
  /-- Whether some end of a text fits the heads of a pattern. -/
  fitsTail (heads : List PatternHead) : List Char → Bool
    | [] => fits heads []
    | c :: chars => fits heads (c :: chars) || fitsTail heads chars
  termination_by chars => (heads.length, chars.length + 1)

/-- Whether a text as a whole fits a pattern. -/
def Field.accepts (pattern : Field) (text : List Char) : Bool :=
  fits (patternHeads pattern.length pattern) text

/-- A text without the part at its start that a pattern accepts: the longest or the shortest one. -/
def Field.trimStart (pattern : Field) (longest : Bool) (text : List Char) : List Char :=
  let cuts := List.range (text.length + 1)
  let cuts := if longest then cuts.reverse else cuts
  match cuts.find? fun cut => pattern.accepts (text.take cut) with
  | some cut => text.drop cut
  | none => text

/-- A text without the part at its end that a pattern accepts: the longest or the shortest one. -/
def Field.trimEnd (pattern : Field) (longest : Bool) (text : List Char) : List Char :=
  let cuts := List.range (text.length + 1)
  let cuts := if longest then cuts else cuts.reverse
  match cuts.find? fun cut => pattern.accepts (text.drop cut) with
  | some cut => text.take cut
  | none => text

end DueTasks.Script
