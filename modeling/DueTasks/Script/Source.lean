import DueTasks.Script.Command
import DueTasks.Text.Blank

/-! The text of a shell script as it is read: its blanks, its operators and its reserved words. -/

namespace DueTasks.Script

/-- Why a script cannot be read. -/
inductive ScriptError where
  | unterminatedQuote
  | missing (closing : String)
  | badLoopVariable
  | unexpected (token : String) (expecting : Option String)
  | openBackquote
  | badSubstitution
deriving DecidableEq

/-- The error in words. -/
def ScriptError.message : ScriptError → String
  | unterminatedQuote => "Syntax error: Unterminated quoted string"
  | missing closing => "Syntax error: Missing '" ++ closing ++ "'"
  | unexpected token none => "Syntax error: " ++ token ++ " unexpected"
  | unexpected token (some expecting) =>
      "Syntax error: " ++ token ++ " unexpected (expecting \"" ++ expecting ++ "\")"
  | badLoopVariable => "Syntax error: Bad for loop variable"
  | openBackquote => "Syntax error: EOF in backquote substitution"
  | badSubstitution => "Bad substitution"

/-- The rest of a script, and the number of line feeds in all of it. -/
structure Source where
  rest : List Char
  breaks : Nat

/-- Reading a script. An error comes with the number of its line. -/
abbrev Reading (α : Type) := StateT Source (Except (ScriptError × Nat)) α

namespace Source

def ofText (text : List Char) : Source :=
  ⟨text, text.count '\n'⟩

/-- The number of the line that is read. -/
def line (s : Source) : Nat :=
  1 + s.breaks - s.rest.count '\n'

/-- A text without blanks and continued lines at its start. -/
def dropBlanks : List Char → List Char
  | '\\' :: '\n' :: rest => dropBlanks rest
  | c :: rest => if Text.isSpaceOrTab c then dropBlanks rest else c :: rest
  | [] => []

/-- A text without blanks and a comment at its start. -/
def dropComment (chars : List Char) : List Char :=
  match dropBlanks chars with
  | '#' :: rest => rest.dropWhile (· != '\n')
  | rest => rest

/-- A text without blanks, comments and line breaks at its start. -/
def dropLines (chars : List Char) : List Char :=
  match chars with
  | [] => []
  | c :: rest =>
      if c == '\n' || Text.isSpaceOrTab c then dropLines rest
      else if c == '#' then dropComment rest
      else if c == '\\' && rest.head? == some '\n' then dropContinued rest
      else c :: rest
where
  /-- What follows the line break of a continued line. -/
  dropContinued : List Char → List Char
    | [] => []
    | _ :: rest => dropLines rest
  /-- What follows a comment. -/
  dropComment : List Char → List Char
    | [] => []
    | c :: rest => if c == '\n' then dropLines rest else dropComment rest

end Source

/-- Fails in the line that is read. -/
def fail {α : Type} (error : ScriptError) : Reading α := do
  throw (error, (← get).line)

/-- Fails in the last line. -/
def failAtEnd {α : Type} (error : ScriptError) : Reading α := do
  throw (error, 1 + (← get).breaks)

def rest : Reading (List Char) :=
  return (← get).rest

/-- Goes on with another rest. -/
def resume (chars : List Char) : Reading Unit :=
  modify fun s => { s with rest := chars }

/-- Skips blanks and a comment. -/
def skipBlanks : Reading Unit :=
  modify fun s => { s with rest := Source.dropComment s.rest }

/-- Skips blanks, comments and line breaks. -/
def skipLines : Reading Unit :=
  modify fun s => { s with rest := Source.dropLines s.rest }

/-- Reads a given text, if it comes next. -/
def accept (text : String) : Reading Bool := do
  let chars ← rest
  if text.toList.isPrefixOf chars then
    resume (chars.drop text.length)
    return true
  else return false

/-- Whether a given text comes next. -/
def sees (text : String) : Reading Bool :=
  return text.toList.isPrefixOf (← rest)

def endsWord (c : Char) : Bool :=
  Text.isSpaceOrTab c || "\n;&|<>()".toList.contains c

/-- The operators, the longer ones first. -/
def operators : List String :=
  ["&&", "||", ";;", ">>", "<<", ";", "&", "|", "<", ">", "(", ")"]

/-- The words that open, part and close compound commands. -/
def reservedWords : List String :=
  ["if", "then", "elif", "else", "fi", "while", "until", "for", "do", "done", "case", "esac", "in",
    "\x7b", "\x7d", "!"]

/-- The words at which a list of commands ends. -/
def closingWords : List String :=
  ["then", "elif", "else", "fi", "do", "done", "esac", "\x7d"]

/-- The text of the word that comes next, if nothing in it is quoted or expanded. -/
def plainWord (chars : List Char) : String :=
  String.ofList (chars.takeWhile (!endsWord ·))

/-- Reads a reserved word, if it comes next. -/
def acceptWord (word : String) : Reading Bool := do
  skipBlanks
  let chars ← rest
  if plainWord chars = word then
    resume (chars.drop word.length)
    return true
  else return false

/-- What comes next, as error messages name it. -/
def tokenName (chars : List Char) : String :=
  match chars with
  | [] => "end of file"
  | '\n' :: _ => "newline"
  | _ =>
      match operators.find? fun operator => operator.toList.isPrefixOf chars with
      | some operator => "\"" ++ operator ++ "\""
      | none =>
          let word := plainWord chars
          if reservedWords.contains word then "\"" ++ word ++ "\"" else "word"

/-- Fails at what comes next. -/
def unexpected {α : Type} (expecting : Option String) : Reading α := do
  skipBlanks
  fail (.unexpected (tokenName (← rest)) expecting)

/-- Reads a reserved word, which must come next, behind line breaks. -/
def expectWord (word : String) : Reading Unit := do
  skipLines
  if ← acceptWord word then return
  unexpected (some word)

/-- Reads an operator, which must come next. -/
def expectOperator (operator : String) : Reading Unit := do
  skipBlanks
  if ← accept operator then return
  unexpected (some operator)

end DueTasks.Script
