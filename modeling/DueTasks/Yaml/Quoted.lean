import DueTasks.Text.Numeral
import DueTasks.Yaml.Line

/-! Quoted scalars of YAML.
In single quotes, a quote written twice is one quote. In double quotes, a backslash begins an
escape. A line break inside stands for a space, and empty lines for line feeds.
-/

namespace DueTasks.Yaml

/-- The character whose code the hexadecimal digits spell. -/
def hexChar? (digits : List Char) : Option Char := do
  let code ← Text.numeral? 16 digits
  if code.isValidChar then some (Char.ofNat code) else none

/-- The character that a letter stands for behind a backslash. -/
def escaped? : Char → Option Char
  | '0' => some '\x00'
  | 'a' => some '\x07'
  | 'b' => some '\x08'
  | 't' => some '\t'
  | '\t' => some '\t'
  | 'n' => some '\n'
  | 'v' => some '\x0b'
  | 'f' => some '\x0c'
  | 'r' => some '\r'
  | 'e' => some '\x1b'
  | ' ' => some ' '
  | '"' => some '"'
  | '/' => some '/'
  | '\\' => some '\\'
  | 'N' => some '\u0085'
  | '_' => some '\u00a0'
  | 'L' => some '\u2028'
  | 'P' => some '\u2029'
  | _ => none

/-- The number of hexadecimal digits that a letter asks for behind a backslash. -/
def hexWidth? : Char → Option Nat
  | 'x' => some 2
  | 'u' => some 4
  | 'U' => some 8
  | _ => none

/-- Undoes the escapes of a text in double quotes. -/
def unescape? : List Char → Option (List Char)
  | [] => some []
  | ['\\'] => none
  | '\\' :: c :: rest =>
      match escaped? c, hexWidth? c with
      | some plain, _ => (unescape? rest).map (plain :: ·)
      | none, some width =>
          if width ≤ rest.length then do
            let plain ← hexChar? (rest.take width)
            (unescape? (rest.drop width)).map (plain :: ·)
          else none
      | none, none => none
  | c :: rest => (unescape? rest).map (c :: ·)
termination_by chars => chars.length
decreasing_by all_goals simp only [List.length_cons, List.length_drop]; omega

/-- Reads up to a closing quote, and tells what follows it. In double quotes a backslash takes the
next character along.
-/
def quotedRun? (quote : Char) : List Char → Option (List Char × List Char)
  | [] => none
  | [c] => if c == quote then some ([], []) else none
  | c :: next :: rest =>
      if quote == '"' && c == '\\' then
        (quotedRun? quote rest).map fun found => (c :: next :: found.1, found.2)
      else if quote == '\'' && c == quote && next == quote then
        (quotedRun? quote rest).map fun found => (quote :: found.1, found.2)
      else if c == quote then some ([], next :: rest)
      else (quotedRun? quote (next :: rest)).map fun found => (c :: found.1, found.2)

/-- Whether a line ends with a backslash that is not itself escaped. -/
def endsEscaped (line : Line) : Bool :=
  (line.reverse.takeWhile (· == '\\')).length % 2 == 1

/-- Joins the lines of a quoted scalar. `text` is what stands before, without the blanks at its end
unless a backslash took the line break away; `gap` counts the empty lines since.
-/
def foldQuoted (escapes : Bool) (text : List Char) (gap : Nat) : List Line → List Char
  | [] => text
  | line :: rest =>
      let body := dropBlanks line
      if body.isEmpty && !rest.isEmpty then foldQuoted escapes text (gap + 1) rest
      else
        let broken := escapes && endsEscaped text
        let before := if broken then text.dropLast ++ List.replicate gap '\n'
          else text ++ foldBreak gap
        let kept := if rest.isEmpty || (escapes && endsEscaped body) then body
          else dropBlanksRight body
        foldQuoted escapes (before ++ kept) 0 rest

/-- The value of what stands between quotes. -/
def quotedValue? (quote : Char) (raw : List Char) : Option (List Char) :=
  let escapes := quote == '"'
  let folded := match splitLines raw with
    | [] => []
    | [line] => line
    | first :: rest =>
        let kept := if escapes && endsEscaped first then first else dropBlanksRight first
        foldQuoted escapes kept 0 rest
  if escapes then unescape? folded else some folded

/-- Reads a scalar in quotes from a text that begins with the quote, and tells what follows it. -/
def quoted? : List Char → Option (List Char × List Char)
  | [] => none
  | quote :: rest =>
      if quote == '"' || quote == '\'' then do
        let (raw, after) ← quotedRun? quote rest
        return (← quotedValue? quote raw, after)
      else none

end DueTasks.Yaml
