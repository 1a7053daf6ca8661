import DueTasks.Report.Datum
import DueTasks.Text.Decimal

/-! Structured values as JSON text, either without spaces or one item a line with two spaces for
every level.
-/

namespace DueTasks.Json

/-- A hexadecimal digit. -/
def hexDigit (n : Nat) : Char :=
  Nat.digitChar n

/-- A character inside a string. Quotes, backslashes and control characters are escaped. -/
def escapeChar (c : Char) : List Char :=
  match c with
  | '"' => ['\\', '"']
  | '\\' => ['\\', '\\']
  | '\n' => ['\\', 'n']
  | '\r' => ['\\', 'r']
  | '\t' => ['\\', 't']
  | '\x08' => ['\\', 'b']
  | '\x0c' => ['\\', 'f']
  | c =>
      if c.toNat < 0x20 then ['\\', 'u', '0', '0', hexDigit (c.toNat / 16), hexDigit (c.toNat % 16)]
      else [c]

def quote (text : String) : String :=
  String.ofList ('"' :: text.toList.flatMap escapeChar ++ ['"'])

/-- A list of items between brackets, each on a line of its own. -/
def block (opening closing indent : String) (items : List String) : String :=
  if items.isEmpty then opening ++ closing
  else
    opening ++ "\n" ++ ",\n".intercalate (items.map fun item => indent ++ "  " ++ item) ++ "\n"
      ++ indent ++ closing

mutual

/-- A value without spaces. -/
def compact : Datum → String
  | .null => "null"
  | .bool value => if value then "true" else "false"
  | .int value => toString value
  | .text value => quote value
  | .list items => "[" ++ ",".intercalate (compactItems items) ++ "]"
  | .record fields => "\x7b" ++ ",".intercalate (compactFields fields) ++ "\x7d"

def compactItems : List Datum → List String
  | [] => []
  | item :: items => compact item :: compactItems items

/-- The fields of a record without spaces. -/
def compactFields : List (String × Datum) → List String
  | [] => []
  | (name, value) :: fields => (quote name ++ ":" ++ compact value) :: compactFields fields

end

mutual

/-- A value with one item a line, where `indent` stands before the lines after the first. -/
def pretty (indent : String) : Datum → String
  | .null => "null"
  | .bool value => if value then "true" else "false"
  | .int value => toString value
  | .text value => quote value
  | .list items => block "[" "]" indent (prettyItems (indent ++ "  ") items)
  | .record fields => block "\x7b" "\x7d" indent (prettyFields (indent ++ "  ") fields)

def prettyItems (indent : String) : List Datum → List String
  | [] => []
  | item :: items => pretty indent item :: prettyItems indent items

/-- The fields of a record, each with one item a line. -/
def prettyFields (indent : String) : List (String × Datum) → List String
  | [] => []
  | (name, value) :: fields =>
      (quote name ++ ": " ++ pretty indent value) :: prettyFields indent fields

end

end DueTasks.Json
