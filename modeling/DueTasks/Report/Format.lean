import DueTasks.Report.Cbor
import DueTasks.Report.Json

/-! Output formats, and how records are printed in them. -/

namespace DueTasks

/-- An output format. -/
inductive Format where
  /-- One line a record. -/
  | plain
  /-- A JSON array of the records. -/
  | json
  /-- A CBOR array of the records. -/
  | binary
deriving DecidableEq, Inhabited

/-- Something that can be printed: as a line, and as a structured value. -/
structure Record where
  line : String
  datum : Datum

/-- What is printed: a text or bytes. -/
inductive Printed where
  | text (value : String)
  | bytes (value : List UInt8)

def Printed.toBytes : Printed → List UInt8
  | text value => value.toUTF8.toList
  | bytes value => value

/-- Why a format cannot print what it is given. -/
inductive FormatError where
  | unknown (name : String)
  | plainNotStructured
  | structuredNotPlain
deriving DecidableEq

/-- The error in words. -/
def FormatError.message : FormatError → String
  | unknown name => "Unknown format: " ++ name
  | plainNotStructured => "Plain format not supported"
  | structuredNotPlain => "Non-plain format not supported for plain text output"

namespace Format

/-- The format of a name, in capitals or not. -/
def ofName? (name : String) : Option Format :=
  match String.ofList (name.toList.map Char.toLower) with
  | "plain" => some plain
  | "json" => some json
  | "binary" => some binary
  | "cbor" => some binary
  | _ => none

/-- The format of a name, or an error that quotes it. -/
def ofName (name : String) : Except FormatError Format :=
  match ofName? name with
  | some format => .ok format
  | none => .error (.unknown name)

def name : Format → String
  | plain => "plain"
  | json => "json"
  | binary => "binary"

/-- The lines of the records, each ended by a line feed. -/
def plainText (records : List Record) : String :=
  String.join (records.map fun record => record.line ++ "\n")

/-- The records as one structured value. -/
def datum (records : List Record) : Datum :=
  .list (records.map Record.datum)

/-- Prints records as lines. -/
def printPlain (format : Format) (records : List Record) : Except FormatError Printed :=
  match format with
  | plain => .ok (.text (plainText records))
  | _ => .error .structuredNotPlain

/-- Prints records as one structured value. JSON ends with a line feed. -/
def printStructured (format : Format) (records : List Record) : Except FormatError Printed :=
  match format with
  | plain => .error .plainNotStructured
  | json => .ok (.text (Json.compact (datum records) ++ "\n"))
  | binary => .ok (.bytes (Cbor.encode (datum records)))

/-- Prints records. Only JSON can be `pretty`. -/
def print (format : Format) (pretty : Bool) (records : List Record) : Printed :=
  match format with
  | plain => .text (plainText records)
  | json =>
      let shown := if pretty then Json.pretty "" (datum records) else Json.compact (datum records)
      .text (shown ++ "\n")
  | binary => .bytes (Cbor.encode (datum records))

end Format

end DueTasks
