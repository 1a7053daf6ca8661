import DueTasks.Script.Source

/-! Reading shell scripts.
A script is read line by line, where a compound command may take several lines. What could be read
of a script that breaks off with an error is still run. The readers take as fuel a number that is
larger than any depth a text of the given length can have.
-/

namespace DueTasks.Script

/-- Whether a character can stand in a name. -/
def isNameChar (c : Char) : Bool :=
  c.isAlphanum || c == '_'

def isName (chars : List Char) : Bool :=
  chars.head?.any (fun c => isNameChar c && !c.isDigit) && chars.all isNameChar

/-- Whether a character by itself names a special parameter. -/
def isSpecialParameter (c : Char) : Bool :=
  "@*#?-$!".toList.contains c

/-- Reads the name of a parameter, if one comes next. A name without braces that begins with a
digit has one digit.
-/
def parameterName? (braced : Bool) (chars : List Char) : Option (String × List Char) :=
  match chars with
  | [] => none
  | c :: rest =>
      if c.isDigit then
        let more := if braced then rest.takeWhile Char.isDigit else []
        some (String.ofList (c :: more), rest.drop more.length)
      else if isNameChar c then
        some (String.ofList (chars.takeWhile isNameChar), chars.dropWhile isNameChar)
      else if isSpecialParameter c then some (c.toString, rest)
      else none

/-- Reads the sign of a fallback. -/
def fallback? : Char → Option Fallback
  | '-' => some .substitute
  | '=' => some .assign
  | '?' => some .fail
  | '+' => some .replace
  | _ => none

/-- Splits a text at the first backquote that no backslash stands before, and undoes the escapes. -/
def backquoted? : List Char → Option (List Char × List Char)
  | [] => none
  | '\x60' :: rest => some ([], rest)
  | '\\' :: c :: rest =>
      let kept := if "\x60\\$".toList.contains c then [c] else ['\\', c]
      (backquoted? rest).map fun found => (kept ++ found.1, found.2)
  | c :: rest => (backquoted? rest).map fun found => (c :: found.1, found.2)

/-- Splits lines at one that is a delimiter. With `strip`, tabs at the start of lines are left
out.
-/
def document (delimiter : String) (strip : Bool) : List (List Char) → List Char × List (List Char)
  | [] => ([], [])
  | line :: rest =>
      let line := if strip then line.dropWhile (· == '\t') else line
      if String.ofList line = delimiter then ([], rest)
      else
        let (body, after) := document delimiter strip rest
        (line ++ '\n' :: body, after)

def textLines (chars : List Char) : List (List Char) :=
  (String.ofList chars).splitOn "\n" |>.map String.toList

/-- The text of a word without what was quoted in it standing out. -/
def Word.plainText (word : Word) : String :=
  String.join (word.map fun
    | .text value _ => value
    | _ => "")

/-- Whether some piece of a word is quoted. -/
def Word.isQuoted (word : Word) : Bool :=
  word.any fun
    | .text _ quoted => quoted
    | _ => false

def Word.assignment? : Word → Option (String × Word)
  | .text value false :: rest =>
      let name := value.toList.takeWhile (· != '=')
      match value.toList.drop name.length with
      | '=' :: more =>
          if isName name then
            let first := if more.isEmpty then [] else [Piece.text (String.ofList more) false]
            some (String.ofList name, first ++ rest)
          else none
      | _ => none
  | _ => none

/-- The pieces with neighbouring texts joined, where both are quoted or both are not. -/
def joinTexts : List Piece → List Piece
  | [] => []
  | .text value quoted :: rest =>
      match joinTexts rest with
      | .text more same :: others =>
          if quoted == same then .text (value ++ more) quoted :: others
          else .text value quoted :: .text more same :: others
      | others => .text value quoted :: others
  | piece :: rest => piece :: joinTexts rest

/-- What ends a run of pieces. -/
inductive PieceEnd where
  /-- The end of a word. -/
  | word
  /-- A double quote. -/
  | quote
  /-- A closing brace. -/
  | brace (quoted : Bool)
  /-- Two closing parentheses. -/
  | parentheses
  /-- The end of the text. -/
  | document

namespace PieceEnd

/-- Whether the pieces of a run are quoted. -/
def quotes : PieceEnd → Bool
  | quote | document => true
  | brace quoted => quoted
  | _ => false

/-- Whether a run ends before a text. -/
def endsBefore (stop : PieceEnd) : List Char → Bool
  | [] => true
  | c :: rest =>
      match stop with
      | word => endsWord c
      | quote => c == '"'
      | brace _ => c == '\x7d'
      | parentheses => c == ')' && rest.head? == some ')'
      | document => false

end PieceEnd

mutual

/-- Reads the pieces of a word up to an end, which is left. `depth` counts open parentheses. -/
def readPieces (fuel : Nat) (stop : PieceEnd) (depth : Nat) : Reading (List Piece) := do
  let chars ← rest
  match fuel with
  | 0 => return []
  | fuel + 1 =>
      if stop.endsBefore chars && (depth = 0 || chars.isEmpty) then return []
      let quoted := stop.quotes
      match chars with
      | [] => return []
      | '\\' :: '\n' :: after =>
          resume after
          readPieces fuel stop depth
      | '\\' :: c :: after =>
          resume after
          let kept := if quoted && !"$\x60\"\\".toList.contains c then ['\\', c] else [c]
          return .text (String.ofList kept) true :: (← readPieces fuel stop depth)
      | '$' :: after =>
          resume after
          let piece ← readExpansion fuel quoted
          return piece :: (← readPieces fuel stop depth)
      | '\x60' :: after =>
          match backquoted? after with
          | none => failAtEnd .openBackquote
          | some (script, after) =>
              let (commands, _) ← readCommands fuel true (.ofText script)
              resume after
              return .output commands quoted :: (← readPieces fuel stop depth)
      | c :: after =>
          if c == '"' && !quoted then
            resume after
            let pieces ← readPieces fuel .quote 0
            if !(← accept "\"") then failAtEnd .unterminatedQuote
            let pieces := if pieces.isEmpty then [.text "" true] else pieces
            return pieces ++ (← readPieces fuel stop depth)
          else if c == '\'' && !quoted then
            let text := after.takeWhile (· != '\'')
            if text.length = after.length then failAtEnd .unterminatedQuote
            resume (after.drop (text.length + 1))
            return .text (String.ofList text) true :: (← readPieces fuel stop depth)
          else
            resume after
            let depth := if c == '(' then depth + 1 else if c == ')' then depth - 1 else depth
            return .text c.toString quoted :: (← readPieces fuel stop depth)

/-- Reads what follows a dollar sign. -/
def readExpansion (fuel : Nat) (quoted : Bool) : Reading Piece := do
  let chars ← rest
  match fuel, chars with
  | fuel + 1, '(' :: '(' :: after =>
      resume after
      let expression ← readPieces fuel .parentheses 0
      if !(← accept "))") then failAtEnd (.missing "))")
      return .arithmetic expression
  | fuel + 1, '(' :: after =>
      let (commands, after) ← readCommands fuel true { (← get) with rest := after }
      resume after
      expectOperator ")"
      return .output commands quoted
  | fuel + 1, '\x7b' :: after =>
      resume after
      readBraced fuel quoted
  | _, _ =>
      match parameterName? false chars with
      | some (name, after) =>
          resume after
          return .parameter name .value quoted
      | none => return .text "$" quoted

/-- Reads a parameter between braces, behind the opening brace. -/
def readBraced (fuel : Nat) (quoted : Bool) : Reading Piece := do
  let chars ← rest
  match fuel, chars with
  | _, '#' :: c :: after =>
      if c == '\x7d' then
        resume after
        return .parameter "#" .value quoted
      else
        match parameterName? true (c :: after) with
        | some (name, after) =>
            resume after
            if !(← accept "\x7d") then failAtEnd (.missing "\x7d")
            return .parameter name .length quoted
        | none => fail .badSubstitution
  | fuel + 1, _ =>
      match parameterName? true chars with
      | none => fail .badSubstitution
      | some (name, after) =>
          let word (pattern : Bool) (chars : List Char) : Reading (List Piece) := do
            resume chars
            let pieces ← readPieces fuel (.brace (quoted && !pattern)) 0
            if !(← accept "\x7d") then failAtEnd (.missing "\x7d")
            return pieces
          let used (use : ParameterUse) : Piece := .parameter name use quoted
          match after with
          | '\x7d' :: after =>
              resume after
              return used .value
          | '#' :: '#' :: after => return used (.trim true true (← word true after))
          | '#' :: after => return used (.trim true false (← word true after))
          | '%' :: '%' :: after => return used (.trim false true (← word true after))
          | '%' :: after => return used (.trim false false (← word true after))
          | ':' :: c :: after =>
              match fallback? c with
              | some kind => return used (.fallback kind true (← word false after))
              | none => fail .badSubstitution
          | c :: after =>
              match fallback? c with
              | some kind => return used (.fallback kind false (← word false after))
              | none => fail .badSubstitution
          | [] => failAtEnd (.missing "\x7d")
  | _, _ => failAtEnd (.missing "\x7d")

/-- Reads commands from a source of their own, and tells what is left. -/
def readCommands (fuel : Nat) (multiline : Bool) (source : Source)
    : Reading (List Command × List Char) := do
  match fuel with
  | 0 => return ([], source.rest)
  | fuel + 1 =>
      let (commands, left) ← (readList fuel multiline).run source
      return (commands, left.rest)

/-- Reads the next word, if there is one. -/
def readWord (fuel : Nat) : Reading (Option Word) := do
  skipBlanks
  let chars ← rest
  match fuel with
  | 0 => return none
  | fuel + 1 =>
      if PieceEnd.word.endsBefore chars then return none
      let pieces ← readPieces fuel .word 0
      return some (joinTexts pieces)

/-- Reads a redirection, if one comes next. -/
def readRedirection (fuel : Nat) : Reading (Option Redirection) := do
  skipBlanks
  let chars ← rest
  let digits := chars.takeWhile Char.isDigit
  let descriptor (standard : Nat) := (String.ofList digits).toNat?.getD standard
  let target (standard : Nat) (mode : RedirectMode) (after : List Char)
      : Reading (Option Redirection) := do
    resume after
    match ← readTarget fuel with
    | some word => return some (.mk (descriptor standard) mode word)
    | none => unexpected none
  match chars.drop digits.length with
  | '>' :: '>' :: after => target 1 .append after
  | '>' :: '&' :: after => target 1 .duplicate after
  | '>' :: '|' :: after => target 1 .write after
  | '>' :: after => target 1 .write after
  | '<' :: '<' :: after =>
      let strip := after.head? == some '-'
      resume (if strip then after.drop 1 else after)
      match ← readTarget fuel with
      | none => unexpected none
      | some word =>
          let text ← rest
          let lines := textLines text
          let (body, left) := document word.plainText strip (lines.drop 1)
          let pieces ← if word.isQuoted then pure [.text (String.ofList body) true]
            else readDocument fuel body
          let below := if lines.length < 2 then [] else '\n' :: ['\n'].intercalate left
          resume (lines.headD [] ++ below)
          return some (.mk (descriptor 0) .document pieces)
  | '<' :: '&' :: after => target 0 .duplicate after
  | '<' :: after => target 0 .read after
  | _ => return none

/-- Reads the target of a redirection. -/
def readTarget (fuel : Nat) : Reading (Option Word) := do
  match fuel with
  | 0 => return none
  | fuel + 1 => readWord fuel

/-- Reads the pieces of a text that is given to a command. -/
def readDocument (fuel : Nat) (body : List Char) : Reading (List Piece) := do
  match fuel with
  | 0 => return []
  | fuel + 1 =>
      let (pieces, _) ← (readPieces fuel .document 0).run (.ofText body)
      return pieces

/-- Reads the parts of a simple command. -/
def readSimple (fuel : Nat) (line : Nat) (assignments : List (String × Word)) (words : List Word)
    (redirections : List Redirection) : Reading Command := do
  let done : Command := .simple line assignments.reverse words.reverse redirections.reverse
  match fuel with
  | 0 => return done
  | fuel + 1 =>
      match ← readRedirection fuel with
      | some redirection => readSimple fuel line assignments words (redirection :: redirections)
      | none =>
          match ← readWord fuel with
          | none =>
              match words, assignments, ← accept "(" with
              | [word], [], true =>
                  expectOperator ")"
                  skipLines
                  return .define word.plainText (← readCommand fuel)
              | _, _, true => fail (.unexpected "\"(\"" none)
              | _, _, false => return done
          | some word =>
              match words, word.assignment? with
              | [], some assignment =>
                  readSimple fuel line (assignment :: assignments) [] redirections
              | _, _ => readSimple fuel line assignments (word :: words) redirections

def readCommand (fuel : Nat) : Reading Command := do
  skipBlanks
  match fuel with
  | 0 => return .skip
  | fuel + 1 =>
      let chars ← rest
      let compound (body : Command) : Reading Command := do
        let redirections ← readRedirections fuel
        return if redirections.isEmpty then body else .redirected body redirections
      let opened (word : String) : Reading Unit := resume (chars.drop word.length)
      if chars.head? == some '(' then
        opened "("
        let body ← readBody fuel
        expectOperator ")"
        compound (.subshell body)
      else
        match plainWord chars with
        | "\x7b" =>
            opened "\x7b"
            let body ← readBody fuel
            expectWord "\x7d"
            compound body
        | "if" =>
            opened "if"
            let body ← readBranches fuel
            compound body
        | "while" =>
            opened "while"
            let body ← readLoop fuel true
            compound body
        | "until" =>
            opened "until"
            let body ← readLoop fuel false
            compound body
        | "for" =>
            opened "for"
            let body ← readEach fuel
            compound body
        | "case" =>
            opened "case"
            let body ← readChoice fuel
            compound body
        | word =>
            if reservedWords.contains word then unexpected none
            let line := (← get).line
            let command ← readSimple fuel line [] [] []
            match command with
            | .simple _ [] [] [] => unexpected none
            | _ => return command

/-- Reads the redirections behind a compound command. -/
def readRedirections (fuel : Nat) : Reading (List Redirection) := do
  match fuel with
  | 0 => return []
  | fuel + 1 =>
      match ← readRedirection fuel with
      | none => return []
      | some redirection => return redirection :: (← readRedirections fuel)

/-- Reads the branches of a conditional command, behind its opening word. -/
def readBranches (fuel : Nat) : Reading Command := do
  match fuel with
  | 0 => return .skip
  | fuel + 1 =>
      let condition ← readBody fuel
      expectWord "then"
      let yes ← readBody fuel
      if ← acceptWord "elif" then return .branch condition yes (← readBranches fuel)
      if ← acceptWord "else" then
        let no ← readBody fuel
        expectWord "fi"
        return .branch condition yes no
      expectWord "fi"
      return .branch condition yes .skip

/-- Reads a loop, behind its opening word. -/
def readLoop (fuel : Nat) (goal : Bool) : Reading Command := do
  match fuel with
  | 0 => return .skip
  | fuel + 1 =>
      let condition ← readBody fuel
      expectWord "do"
      let body ← readBody fuel
      expectWord "done"
      return .loop goal condition body

/-- Reads a loop over words, behind its opening word. -/
def readEach (fuel : Nat) : Reading Command := do
  match fuel with
  | 0 => return .skip
  | fuel + 1 =>
      match ← readWord fuel with
      | none => fail .badLoopVariable
      | some name =>
          skipLines
          let words ← if ← acceptWord "in" then some <$> readWords fuel else pure none
          skipBlanks
          let _ ← accept ";"
          expectWord "do"
          let body ← readBody fuel
          expectWord "done"
          return .each name.plainText words body

/-- Reads words as long as there are some. -/
def readWords (fuel : Nat) : Reading (List Word) := do
  match fuel with
  | 0 => return []
  | fuel + 1 =>
      match ← readWord fuel with
      | none => return []
      | some word => return word :: (← readWords fuel)

/-- Reads a choice by patterns, behind its opening word. -/
def readChoice (fuel : Nat) : Reading Command := do
  match fuel with
  | 0 => return .skip
  | fuel + 1 =>
      match ← readWord fuel with
      | none => unexpected none
      | some word =>
          expectWord "in"
          return .choose word (← readChoices fuel)

/-- Reads the branches of a choice up to its closing word. -/
def readChoices (fuel : Nat) : Reading (List (List Word × Command)) := do
  match fuel with
  | 0 => return []
  | fuel + 1 =>
      skipLines
      if ← acceptWord "esac" then return []
      let _ ← accept "("
      let patterns ← readPatterns fuel
      expectOperator ")"
      let body ← readList fuel true
      skipLines
      if ← accept ";;" then return (patterns, .sequence body) :: (← readChoices fuel)
      expectWord "esac"
      return [(patterns, .sequence body)]

/-- Reads patterns, separated by bars. -/
def readPatterns (fuel : Nat) : Reading (List Word) := do
  match fuel with
  | 0 => return []
  | fuel + 1 =>
      match ← readWord fuel with
      | none => unexpected (some ")")
      | some pattern =>
          skipBlanks
          if ← accept "|" then return pattern :: (← readPatterns fuel)
          return [pattern]

/-- Reads commands joined by bars. -/
def readStages (fuel : Nat) : Reading (List Command) := do
  match fuel with
  | 0 => return []
  | fuel + 1 =>
      let command ← readCommand fuel
      skipBlanks
      if ← sees "||" then return [command]
      if ← accept "|" then
        skipLines
        return command :: (← readStages fuel)
      return [command]

def readPipeline (fuel : Nat) : Reading Command := do
  match fuel with
  | 0 => return .skip
  | fuel + 1 =>
      let negated ← acceptWord "!"
      match negated, ← readStages fuel with
      | false, [command] => return command
      | _, stages => return .pipeline negated stages

/-- Reads on a list whose members are joined by `&&` and `||`. -/
def readAlternatives (fuel : Nat) (left : Command) : Reading Command := do
  match fuel with
  | 0 => return left
  | fuel + 1 =>
      skipBlanks
      if ← accept "&&" then
        skipLines
        readAlternatives fuel (.both left (← readPipeline fuel))
      else if ← accept "||" then
        skipLines
        readAlternatives fuel (.either left (← readPipeline fuel))
      else return left

/-- Reads the commands of a part of a compound command, of which there must be some. -/
def readBody (fuel : Nat) : Reading Command := do
  match fuel with
  | 0 => return .skip
  | fuel + 1 =>
      match ← readList fuel true with
      | [] => unexpected none
      | commands => return .sequence commands

/-- Reads commands up to a closing sign or word, or without `multiline` up to the end of the line.
-/
def readList (fuel : Nat) (multiline : Bool) : Reading (List Command) := do
  match fuel with
  | 0 => return []
  | fuel + 1 =>
      if multiline then skipLines else skipBlanks
      let chars ← rest
      let closes := chars.isEmpty || chars.head? == some ')' || chars.head? == some '\n'
        || (← sees ";;") || closingWords.contains (plainWord chars)
      if closes then return []
      let command ← readAlternatives fuel (← readPipeline fuel)
      skipBlanks
      if (← sees ";;") then return [command]
      if ← accept "&" then return .background command :: (← readList fuel multiline)
      if ← accept ";" then return command :: (← readList fuel multiline)
      if multiline && (← sees "\n") then return command :: (← readList fuel multiline)
      return [command]

end

/-- Reads a script line by line, as far as it can be read. -/
def readScript (count : Nat) (source : Source) : List Command × Option (ScriptError × Nat) :=
  match count with
  | 0 => ([], none)
  | count + 1 =>
      let start := Source.dropLines source.rest
      if start.isEmpty then ([], none)
      else
        let line : Reading (List Command) := do
          let commands ← readList (16 * (start.length + 1)) false
          skipBlanks
          let left ← rest
          if left.isEmpty || left.head? == some '\n' then return commands
          unexpected none
        match line.run { source with rest := start } with
        | .error error => ([], some error)
        | .ok (commands, left) =>
            let (more, error) := readScript count left
            (commands ++ more, error)

/-- The commands of a script, and where and why it breaks off. -/
def parse (text : List Char) : List Command × Option (ScriptError × Nat) :=
  readScript (text.length + 1) (.ofText text)

end DueTasks.Script
