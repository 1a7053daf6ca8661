import DueTasks.Files.FileSystem
import DueTasks.Text.Blank
import DueTasks.Text.Decimal

/-! Tools that scripts call: functions from their arguments, their input and the files to what they
print.
-/

namespace DueTasks.Script

structure ToolCall where
  args : List String
  input : List UInt8
  disk : Disk

/-- What a tool leaves behind. -/
structure ToolResult where
  status : Nat := 0
  out : List UInt8 := []
  /-- Its error messages, which still lack the name of the tool. -/
  err : List String := []
  /-- How long it waits, in nanoseconds. -/
  delay : Nat := 0
  /-- Whether it reads its input to the end. -/
  reads : Bool := false
deriving Inhabited

abbrev Tool := ToolCall → ToolResult

namespace ToolResult

/-- The result that prints a text. -/
def ofText (text : String) : ToolResult :=
  { out := Text.toUtf8 text }

def failure (status : Nat) (message : String) : ToolResult :=
  { status, err := [message] }

end ToolResult

/-! ## Printing -/

def charBytes (c : Char) : List UInt8 :=
  Text.toUtf8 c.toString

/-- Whether a character is an octal digit. -/
def isOctal (c : Char) : Bool :=
  '0' ≤ c && c ≤ '7'

/-- The number that octal digits spell. -/
def octalValue (digits : List Char) : Nat :=
  digits.foldl (fun n c => n * 8 + Text.digitValue c) 0

/-- The byte that a letter stands for behind a backslash. -/
def escapedByte? : Char → Option UInt8
  | 'a' => some 7
  | 'b' => some 8
  | 't' => some 9
  | 'n' => some 10
  | 'v' => some 11
  | 'f' => some 12
  | 'r' => some 13
  | 'e' => some 27
  | '\\' => some 92
  | _ => none

/-- The octal digits that an escape begins with: up to three, and with `zero` up to three behind a
zero.
-/
def octalDigits (zero : Bool) (chars : List Char) : List Char :=
  let most := if zero && chars.head? == some '0' then 4 else 3
  (chars.take most).takeWhile isOctal

/-- Reads an escape behind its backslash, and tells what follows. -/
def escape (zero : Bool) (chars : List Char) : List UInt8 × List Char :=
  match octalDigits zero chars, chars with
  | [], [] => ([92], [])
  | [], c :: rest =>
      match escapedByte? c with
      | some byte => ([byte], rest)
      | none => (92 :: charBytes c, rest)
  | digits, _ => ([.ofNat (octalValue digits)], chars.drop digits.length)

/-- An escape leaves no more than what follows its backslash. -/
theorem escape_length_le (zero : Bool) (chars : List Char)
    : (escape zero chars).2.length ≤ chars.length := by
  unfold escape
  split
  · exact Nat.le_refl _
  · split <;> exact Nat.le_succ _
  · simp

/-- The bytes of a text with escapes, up to one that ends all output, and whether there is such a
one.
-/
def unescape (chars : List Char) : List UInt8 × Bool :=
  match chars with
  | [] => ([], false)
  | c :: rest =>
      if c ≠ '\\' then
        let (more, stop) := unescape rest
        (charBytes c ++ more, stop)
      else if rest.head? == some 'c' then ([], true)
      else
        let (more, stop) := unescape (escape true rest).2
        ((escape true rest).1 ++ more, stop)
termination_by chars.length
decreasing_by
  · exact Nat.lt_succ_self _
  · exact Nat.lt_succ_of_le (escape_length_le true rest)

/-- How `echo` prints: whether it undoes escapes, and whether it ends the line. -/
structure EchoStyle where
  escapes : Bool
  ends : Bool

/-- Prints its arguments in a style. -/
def EchoStyle.print (style : EchoStyle) (words : List String) : ToolResult :=
  let text := " ".intercalate words
  let (bytes, stop) := if style.escapes then unescape text.toList else (Text.toUtf8 text, false)
  { out := bytes ++ (if style.ends && !stop then [10] else []) }

/-- Prints its arguments, behind options made of the letters `n`, `e` and `E`. -/
def echo : Tool := fun call =>
  let isOption (word : String) : Bool :=
    match word.toList with
    | '-' :: c :: letters => (c :: letters).all ("neE".toList.contains ·)
    | _ => false
  let options := call.args.takeWhile isOption
  let letters := options.flatMap String.toList
  let style : EchoStyle :=
    ⟨(letters.reverse.find? fun c => c == 'e' || c == 'E') == some 'e', !letters.contains 'n'⟩
  style.print (call.args.drop options.length)

/-- Prints its arguments with escapes undone. The only option is `-n`. -/
def plainEcho : Tool := fun call =>
  match call.args with
  | "-n" :: words => EchoStyle.print ⟨true, false⟩ words
  | words => EchoStyle.print ⟨true, true⟩ words

/-- A conversion of a format. -/
structure Conversion where
  flags : List Char
  width : Nat
  precision : Option Nat
  letter : Char

/-- Reads a conversion behind its percent sign, and tells what follows. -/
def conversion? (chars : List Char) : Option (Conversion × List Char) :=
  let flags := chars.takeWhile fun c => "-+ 0#".toList.contains c
  let rest := chars.drop flags.length
  let width := rest.takeWhile Char.isDigit
  let rest := rest.drop width.length
  let (precision, rest) := match rest with
    | '.' :: more =>
        let digits := more.takeWhile Char.isDigit
        (some (Text.digitsValue digits), more.drop digits.length)
    | _ => (none, rest)
  match rest with
  | [] => none
  | letter :: rest => some (⟨flags, Text.digitsValue width, precision, letter⟩, rest)

/-- A text brought to the width of a conversion. -/
def Conversion.pad (c : Conversion) (bytes : List UInt8) : List UInt8 :=
  if c.flags.contains '-' then bytes ++ List.replicate (c.width - bytes.length) 32
  else bytes.leftpad c.width 32

/-- The number that an argument spells, in decimal digits with an optional sign, or the code of the
character behind a quote. A missing argument is zero.
-/
def argumentNumber? (arg : String) : Option Int :=
  match arg.toList with
  | [] => some 0
  | '-' :: digits => (Text.readNatural? digits).map fun n => -(n : Int)
  | '\'' :: c :: _ => some c.toNat
  | '"' :: c :: _ => some c.toNat
  | digits => (Text.readNatural? digits).map fun n => (n : Int)

/-- A number as a conversion writes it. -/
def Conversion.number (c : Conversion) (n : Int) : List UInt8 :=
  let digits := match c.letter with
    | 'x' => Nat.toDigits 16 n.natAbs
    | 'X' => (Nat.toDigits 16 n.natAbs).map Char.toUpper
    | 'o' => Nat.toDigits 8 n.natAbs
    | _ => Text.decimal n.natAbs
  let sign := if n < 0 then ['-'] else if c.flags.contains '+' then ['+']
    else if c.flags.contains ' ' then [' '] else []
  let digits := digits.leftpad (c.precision.getD 0) '0'
  let zeros := c.flags.contains '0' && !c.flags.contains '-' && c.precision.isNone
  let digits := if zeros then digits.leftpad (c.width - sign.length) '0' else digits
  c.pad (Text.toUtf8 (String.ofList (sign ++ digits)))

/-- A format under way: what it has printed, the arguments that are left, whether one of them has
been used, the messages, and whether an escape has ended the output.
-/
structure FormatState where
  out : List UInt8 := []
  args : List String
  used : Bool := false
  err : List String := []
  stopped : Bool := false

namespace FormatState

/-- The state with more output. -/
def print (s : FormatState) (bytes : List UInt8) : FormatState :=
  { s with out := s.out ++ bytes }

/-- The state after one conversion. -/
def convert (s : FormatState) (c : Conversion) : FormatState :=
  let arg := s.args.headD ""
  let next := { s with args := s.args.drop 1, used := true }
  let limited (bytes : List UInt8) := match c.precision with
    | some most => bytes.take most
    | none => bytes
  match c.letter with
  | '%' => s.print [37]
  | 's' => next.print (c.pad (limited (Text.toUtf8 arg)))
  | 'b' =>
      let (bytes, stop) := unescape arg.toList
      { next.print (c.pad (limited bytes)) with stopped := stop }
  | 'c' => next.print (c.pad ((Text.toUtf8 arg).take 1))
  | _ =>
      match argumentNumber? arg with
      | some n => next.print (c.number n)
      | none => { next.print (c.number 0) with err := s.err ++ [arg ++ ": expected numeric value"] }

/-- The state after a format has been gone through once. -/
def run (s : FormatState) (count : Nat) (format : List Char) : FormatState :=
  match count, format with
  | count + 1, c :: rest =>
      if s.stopped then s
      else if c == '\\' then
        let (bytes, rest) := escape false rest
        run (s.print bytes) count rest
      else if c == '%' then
        match conversion? rest with
        | some (conversion, rest) => run (s.convert conversion) count rest
        | none => s.print [37]
      else run (s.print (charBytes c)) count rest
  | _, _ => s

/-- The state after a format has been gone through as often as there are arguments for it. -/
def runAll (s : FormatState) (count : Nat) (format : List Char) : FormatState :=
  match count with
  | 0 => s
  | count + 1 =>
      let after := { s with used := false }.run format.length format
      if after.args.isEmpty || !after.used || after.stopped then after
      else after.runAll count format

end FormatState

/-- Prints its arguments as a format says. -/
def printf : Tool := fun call =>
  match if call.args.head? == some "--" then call.args.drop 1 else call.args with
  | [] => .failure 2 "usage: printf format [arg ...]"
  | format :: args =>
      let done := FormatState.runAll { args } (args.length + 1) format.toList
      { status := if done.err.isEmpty then 0 else 1, out := done.out, err := done.err }

/-! ## Tests -/

/-- Why a test has no answer. -/
inductive TestError where
  | illegalNumber (text : String)
  | missingOperand (question : String)
  | malformed
deriving DecidableEq

/-- The error in words. -/
def TestError.message : TestError → String
  | illegalNumber text => "Illegal number: " ++ text
  | missingOperand question => question ++ ": argument expected"
  | malformed => "argument expected"

/-- The integer that an operand spells. -/
def operandInt (text : String) : Except TestError Int :=
  let number := match Text.trim text.toList with
    | '-' :: digits => (Text.readNatural? digits).map fun n => -(n : Int)
    | digits => (Text.readNatural? digits).map fun n => (n : Int)
  match number with
  | some n => .ok n
  | none => .error (.illegalNumber text)

/-- The answer to a question about one operand, if the text is such a question. -/
def unaryTest? (disk : Disk) (question operand : String) : Option Bool :=
  let found (follow : Bool) (holds : FileNode → Bool) : Bool :=
    match disk.node ⟨operand⟩ follow with
    | .ok node => holds node
    | .error _ => false
  match question with
  | "-n" => some !operand.isEmpty
  | "-z" => some operand.isEmpty
  | "-e" | "-r" | "-w" => some (found true fun _ => true)
  | "-f" => some (found true fun
      | .file .. => true
      | _ => false)
  | "-d" => some (found true FileNode.isDirectory)
  | "-x" => some (found true fun
      | .file _ executable => executable
      | .special => false
      | _ => true)
  | "-s" => some (found true fun
      | .file bytes _ => !bytes.isEmpty
      | .special => false
      | _ => true)
  | "-L" | "-h" => some (found false fun
      | .link _ => true
      | _ => false)
  | "-t" | "-p" | "-S" | "-b" | "-c" => some false
  | _ => none

/-- The answer to a question about two operands, if the text is such a question. -/
def binaryTest? (left question right : String) : Option (Except TestError Bool) :=
  let compare (holds : Int → Int → Bool) : Option (Except TestError Bool) :=
    some do return holds (← operandInt left) (← operandInt right)
  match question with
  | "=" | "==" => some (.ok (left == right))
  | "!=" => some (.ok (left != right))
  | "<" => some (.ok (decide (left < right)))
  | ">" => some (.ok (decide (right < left)))
  | "-eq" => compare fun a b => a == b
  | "-ne" => compare fun a b => a != b
  | "-lt" => compare fun a b => a < b
  | "-le" => compare fun a b => a ≤ b
  | "-gt" => compare fun a b => b < a
  | "-ge" => compare fun a b => b ≤ a
  | _ => none

mutual

/-- The answer to questions joined by `-o`, and the words that are left. -/
def testEither (disk : Disk) (fuel : Nat) (words : List String)
    : Except TestError (Bool × List String) :=
  match fuel with
  | 0 => .error .malformed
  | fuel + 1 => do
      let (left, rest) ← testBoth disk fuel words
      match rest with
      | "-o" :: rest =>
          let (right, rest) ← testEither disk fuel rest
          return (left || right, rest)
      | _ => return (left, rest)

/-- The answer to questions joined by `-a`, and the words that are left. -/
def testBoth (disk : Disk) (fuel : Nat) (words : List String)
    : Except TestError (Bool × List String) :=
  match fuel with
  | 0 => .error .malformed
  | fuel + 1 => do
      let (left, rest) ← testOne disk fuel words
      match rest with
      | "-a" :: rest =>
          let (right, rest) ← testBoth disk fuel rest
          return (left && right, rest)
      | _ => return (left, rest)

/-- The answer to one question, and the words that are left. -/
def testOne (disk : Disk) (fuel : Nat) (words : List String)
    : Except TestError (Bool × List String) :=
  match fuel, words with
  | 0, _ => .error .malformed
  | _, [] => .error .malformed
  | fuel + 1, left :: rest =>
      let single : Except TestError (Bool × List String) :=
        match left, rest with
        | "!", _ :: _ => do
            let (inner, rest) ← testOne disk fuel rest
            return (!inner, rest)
        | "(", _ :: _ => do
            match ← testEither disk fuel rest with
            | (inner, ")" :: rest) => return (inner, rest)
            | _ => .error .malformed
        | _, operand :: more =>
            match unaryTest? disk left operand with
            | some answer => .ok (answer, more)
            | none => .ok (!left.isEmpty, rest)
        | _, [] => .ok (!left.isEmpty, [])
      match rest with
      | question :: right :: more =>
          match binaryTest? left question right with
          | some answer => do return (← answer, more)
          | none => single
      | [question] =>
          if (binaryTest? left question "").isSome then .error (.missingOperand question)
          else single
      | [] => single

end

/-- Answers the question that its arguments ask. With `bracket` the last argument is a bracket. -/
def test (bracket : Bool) : Tool := fun call =>
  let closed := call.args.getLast? == some "]"
  if bracket && !closed then .failure 2 "missing ]"
  else
    let words := if bracket then call.args.dropLast else call.args
    if words.isEmpty then { status := 1 }
    else
      match testEither call.disk (4 * words.length + 4) words with
      | .ok (answer, []) => { status := if answer then 0 else 1 }
      | .ok (_, rest) =>
          let last := words[words.length - rest.length - 1]?.getD ""
          .failure 2 (last ++ ": unexpected operator")
      | .error error => .failure 2 error.message

/-! ## Files, numbers and time -/

/-- What is wrong with a file, in the words of a tool. -/
def fileComplaint : SystemError → String
  | .notFound => "No such file or directory"
  | .permissionDenied => "Permission denied"
  | .notADirectory => "Not a directory"
  | .isADirectory => "Is a directory"
  | .nameTooLong => "File name too long"
  | .tooManyLinks => "Too many levels of symbolic links"
  | error => error.message

/-- The bytes of the named files together, where a hyphen stands for the input, and the messages.
They are made from a name by `shown`.
-/
def contents (call : ToolCall) (shown : String → String) (names : List String)
    : List UInt8 × List String :=
  match names with
  | [] => ([], [])
  | name :: rest =>
      let (more, err) := contents call shown rest
      if name = "-" then (call.input ++ more, err)
      else
        match call.disk.fileSystem.bytes ⟨name⟩ with
        | .ok bytes => (bytes ++ more, err)
        | .error error => (more, (shown name ++ ": " ++ fileComplaint error) :: err)

/-- The bytes of the named files, or of the input if no file is named, made into a result. -/
def fromContents (call : ToolCall) (shown : String → String) (names : List String)
    (use : List UInt8 → List UInt8) : ToolResult :=
  let names := if names.isEmpty then ["-"] else names
  let (bytes, err) := contents call shown names
  { status := if err.isEmpty then 0 else 1, out := use bytes, err, reads := names.contains "-" }

/-- The bytes of the first lines. -/
def firstLines : Nat → List UInt8 → List UInt8
  | 0, _ => []
  | _, [] => []
  | count + 1, b :: rest =>
      b :: (if b = 10 then firstLines count rest else firstLines (count + 1) rest)

/-- Prints the start of its input: ten lines, or as many lines or bytes as an option says. -/
def head : Tool := fun call =>
  let number (text : List Char) : Nat := (String.ofList text).toNat?.getD 0
  let from_ := fromContents call fun name => "cannot open '" ++ name ++ "' for reading"
  match call.args with
  | "-n" :: count :: names => from_ names (firstLines (number count.toList))
  | "-c" :: count :: names => from_ names (·.take (number count.toList))
  | option :: names =>
      match option.toList with
      | '-' :: 'n' :: digits => from_ names (firstLines (number digits))
      | '-' :: 'c' :: digits => from_ names (·.take (number digits))
      | '-' :: digits => from_ names (firstLines (number digits))
      | _ => from_ call.args (firstLines 10)
  | [] => from_ [] (firstLines 10)

/-- The number of words in a text. -/
def wordCount (text : String) : Nat :=
  ((text.splitToList Text.isBlank).filter (!·.isEmpty)).length

/-- Counts the lines, words or bytes of its input. -/
def count : Tool := fun call =>
  let printed (n : Nat) := Text.toUtf8 (toString n ++ "\n")
  match call.args with
  | ["-l"] => fromContents call id [] fun bytes => printed (bytes.count 10)
  | ["-c"] => fromContents call id [] fun bytes => printed bytes.length
  | ["-w"] => fromContents call id [] fun bytes => printed (wordCount (Text.ofUtf8Lossy bytes))
  | _ => .failure 1 "unknown arguments"

/-- Prints the numbers from one to another. -/
def sequence : Tool := fun call =>
  let upTo (first step last : Int) : ToolResult :=
    let size := if step = 0 then 0 else ((last - first) / step + 1).toNat
    let lines := (List.range size).map fun (i : Nat) => toString (first + i * step) ++ "\n"
    .ofText (String.join lines)
  match call.args.mapM argumentNumber? with
  | some [last] => upTo 1 1 last
  | some [first, last] => upTo first 1 last
  | some [first, step, last] => upTo first step last
  | _ => .failure 1 "invalid arguments"

/-- The nanoseconds that an operand of `sleep` stands for: a decimal number with an optional unit.
-/
def delay? (text : String) : Option Nat := do
  let whole := text.toList.takeWhile Char.isDigit
  let (fraction, rest) := match text.toList.drop whole.length with
    | '.' :: more => (more.takeWhile Char.isDigit, more.dropWhile Char.isDigit)
    | rest => ([], rest)
  if whole.isEmpty && fraction.isEmpty then none
  let unit ← match rest with
    | [] | ['s'] => some 1
    | ['m'] => some 60
    | ['h'] => some 3600
    | ['d'] => some 86400
    | _ => none
  let fraction := (fraction ++ List.replicate 9 '0').take 9
  return (Text.digitsValue whole * 1000000000 + Text.digitsValue fraction) * unit

/-- Waits as long as its arguments say together. -/
def sleep : Tool := fun call =>
  if call.args.isEmpty then .failure 1 "missing operand\nTry 'sleep --help' for more information."
  else
    match call.args.find? fun arg => (delay? arg).isNone with
    | some arg =>
        .failure 1
          ("invalid time interval '" ++ arg ++ "'\nTry 'sleep --help' for more information.")
    | none => { delay := (call.args.filterMap delay?).foldl (· + ·) 0 }

/-- Prints the last part of a path, without an ending. -/
def baseName : Tool := fun call =>
  match call.args with
  | path :: more =>
      let name := (Path.mk path).fileName?.getD path
      let ending := more.headD ""
      let kept := if name.endsWith ending && name != ending then
        String.ofList (name.toList.take (name.length - ending.length)) else name
      .ofText (kept ++ "\n")
  | [] => .failure 1 "missing operand\nTry 'basename --help' for more information."

/-- Prints the directory of a path. -/
def directoryName : Tool := fun call =>
  match call.args with
  | [path] =>
      let directory := ((Path.mk path).parent?.getD ⟨path⟩).text
      .ofText ((if directory.isEmpty then "." else directory) ++ "\n")
  | _ => .failure 1 "missing operand\nTry 'dirname --help' for more information."

/-- The tools by their names. -/
def tools : List (String × Tool) :=
  [("echo", echo), ("printf", printf), ("test", test false), ("[", test true),
    ("true", fun _ => {}), ("false", fun _ => { status := 1 }),
    ("cat", fun call => fromContents call id call.args id), ("head", head), ("wc", count),
    ("seq", sequence), ("sleep", sleep), ("basename", baseName), ("dirname", directoryName),
    ("pwd", fun call => .ofText ((Path.ofNames true call.disk.working).text ++ "\n"))]

end DueTasks.Script
