import DueTasks.Text.Blank
import DueTasks.Text.Numeral

/-! Arithmetic of shell scripts: integers, variables, and operators in the usual order of binding.
-/

namespace DueTasks.Script

/-- Why an expression has no value. -/
inductive ArithmeticError where
  | malformed
  | divisionByZero
deriving DecidableEq

/-- The error in words. -/
def ArithmeticError.message : ArithmeticError → String
  | malformed => "expecting primary"
  | divisionByZero => "division by zero"

/-- The operators between two operands. -/
inductive BinaryOperator where
  | times | divide | remainder | plus | minus | shiftLeft | shiftRight
  | less | lessOrEqual | greater | greaterOrEqual | equal | different
  | bitAnd | bitXor | bitOr | and | or
deriving DecidableEq

namespace BinaryOperator

/-- The spellings of the operators. An operator comes before those that it begins with. -/
def spellings : List (String × BinaryOperator) :=
  [("<<", shiftLeft), (">>", shiftRight), ("<=", lessOrEqual), (">=", greaterOrEqual),
    ("==", equal), ("!=", different), ("&&", and), ("||", or), ("*", times), ("/", divide),
    ("%", remainder), ("+", plus), ("-", minus), ("<", less), (">", greater), ("&", bitAnd),
    ("^", bitXor), ("|", bitOr)]

/-- How tightly an operator binds. -/
def binding : BinaryOperator → Nat
  | times | divide | remainder => 10
  | plus | minus => 9
  | shiftLeft | shiftRight => 8
  | less | lessOrEqual | greater | greaterOrEqual => 7
  | equal | different => 6
  | bitAnd => 5
  | bitXor => 4
  | bitOr => 3
  | and => 2
  | or => 1

/-- The value of a truth value. -/
def ofBool (b : Bool) : Int :=
  if b then 1 else 0

/-- The bits of a number, as one of 64 bits. -/
def bits (n : Int) : BitVec 64 :=
  BitVec.ofInt 64 n

def result (operator : BinaryOperator) (a b : Int) : Except ArithmeticError Int :=
  match operator with
  | times => .ok (a * b)
  | divide => if b = 0 then .error .divisionByZero else .ok (a.tdiv b)
  | remainder => if b = 0 then .error .divisionByZero else .ok (a.tmod b)
  | plus => .ok (a + b)
  | minus => .ok (a - b)
  | shiftLeft => .ok (bits a <<< (b.toNat % 64)).toInt
  | shiftRight => .ok ((bits a).sshiftRight (b.toNat % 64)).toInt
  | less => .ok (ofBool (a < b))
  | lessOrEqual => .ok (ofBool (a ≤ b))
  | greater => .ok (ofBool (b < a))
  | greaterOrEqual => .ok (ofBool (b ≤ a))
  | equal => .ok (ofBool (a == b))
  | different => .ok (ofBool (a != b))
  | bitAnd => .ok (bits a &&& bits b).toInt
  | bitXor => .ok (bits a ^^^ bits b).toInt
  | bitOr => .ok (bits a ||| bits b).toInt
  | and => .ok (ofBool (a != 0 && b != 0))
  | or => .ok (ofBool (a != 0 || b != 0))

end BinaryOperator

inductive Expression where
  | number (value : Int)
  | parameter (name : String)
  | negate (operand : Expression)
  | not (operand : Expression)
  | complement (operand : Expression)
  | binary (operator : BinaryOperator) (left right : Expression)
  | select (condition yes no : Expression)
  /-- Gives a variable a value, joined with its old one if there is an operator. -/
  | assign (name : String) (operator : Option BinaryOperator) (value : Expression)

namespace Expression

/-- The number that a text spells: in octal behind a zero, in hexadecimal behind `0x`. -/
def number? : List Char → Option Nat
  | '0' :: 'x' :: digits => Text.numeral? 16 digits
  | '0' :: 'X' :: digits => Text.numeral? 16 digits
  | ['0'] => some 0
  | '0' :: digits => Text.numeral? 8 digits
  | digits => Text.numeral? 10 digits

/-- Whether a character can stand in a name or a number. -/
def isWordChar (c : Char) : Bool :=
  c.isAlphanum || c == '_'

/-- A text without blanks and line breaks at its start. -/
def skip (chars : List Char) : List Char :=
  chars.dropWhile Text.isBlank

/-- The binary operator that a text begins with. -/
def operator? (chars : List Char) : Option (BinaryOperator × List Char) :=
  (BinaryOperator.spellings.find? fun spelling => spelling.1.toList.isPrefixOf chars).map
    fun spelling => (spelling.2, chars.drop spelling.1.length)

/-- The sign of an assignment that a text begins with, and the operator before it. -/
def assignment? (chars : List Char) : Option (Option BinaryOperator × List Char) :=
  match chars with
  | '=' :: rest => if rest.head? == some '=' then none else some (none, rest)
  | _ =>
      match operator? chars with
      | some (operator, '=' :: rest) =>
          if 8 ≤ operator.binding || (3 ≤ operator.binding && operator.binding ≤ 5) then
            some (some operator, rest)
          else none
      | _ => none

mutual

/-- Reads an assignment or a choice. -/
def readFull? (fuel : Nat) (chars : List Char) : Option (Expression × List Char) :=
  match fuel with
  | 0 => none
  | fuel + 1 => do
      let chars := skip chars
      let name := chars.takeWhile isWordChar
      match assignment? (skip (chars.drop name.length)) with
      | some (operator, rest) =>
          if name.head?.any fun c => !c.isDigit then
            let (value, rest) ← readFull? fuel rest
            return (.assign (String.ofList name) operator value, rest)
          else none
      | none =>
          let (condition, rest) ← readBinary? fuel 1 chars
          match skip rest with
          | '?' :: rest =>
              let (yes, rest) ← readFull? fuel rest
              match skip rest with
              | ':' :: rest =>
                  let (no, rest) ← readFull? fuel rest
                  return (.select condition yes no, rest)
              | _ => none
          | rest => return (condition, rest)

/-- Reads operands joined by operators that bind at least as tightly as `least`. -/
def readBinary? (fuel : Nat) (least : Nat) (chars : List Char) : Option (Expression × List Char) :=
  match fuel with
  | 0 => none
  | fuel + 1 => do
      let (left, rest) ← readUnary? fuel (skip chars)
      readOn? fuel least left rest

/-- Reads on behind a left operand. -/
def readOn? (fuel : Nat) (least : Nat) (left : Expression) (chars : List Char)
    : Option (Expression × List Char) :=
  match fuel with
  | 0 => none
  | fuel + 1 =>
      match operator? (skip chars) with
      | some (operator, rest) =>
          if least ≤ operator.binding then do
            let (right, rest) ← readBinary? fuel (operator.binding + 1) rest
            readOn? fuel least (.binary operator left right) rest
          else some (left, chars)
      | none => some (left, chars)

/-- Reads an operand with the signs before it. -/
def readUnary? (fuel : Nat) (chars : List Char) : Option (Expression × List Char) :=
  match fuel, chars with
  | 0, _ => none
  | fuel + 1, '-' :: rest => (readUnary? fuel (skip rest)).map fun e => (.negate e.1, e.2)
  | fuel + 1, '+' :: rest => readUnary? fuel (skip rest)
  | fuel + 1, '!' :: rest => (readUnary? fuel (skip rest)).map fun e => (.not e.1, e.2)
  | fuel + 1, '~' :: rest => (readUnary? fuel (skip rest)).map fun e => (.complement e.1, e.2)
  | fuel + 1, '(' :: rest => do
      let (inner, rest) ← readFull? fuel rest
      match skip rest with
      | ')' :: rest => return (inner, rest)
      | _ => none
  | _ + 1, chars =>
      let word := chars.takeWhile isWordChar
      match word with
      | [] => none
      | c :: _ =>
          let rest := chars.drop word.length
          if c.isDigit then (number? word).map fun n => (.number n, rest)
          else some (.parameter (String.ofList word), rest)

end

/-- The expression that a text holds. An empty text is zero. -/
def parse? (chars : List Char) : Option Expression :=
  if (skip chars).isEmpty then some (.number 0)
  else
    match readFull? (8 * (chars.length + 1)) chars with
    | some (expression, rest) => if (skip rest).isEmpty then some expression else none
    | none => none

/-- The value of a variable. An unset or empty one is zero. -/
def valueOf (store : List (String × String)) (name : String) : Except ArithmeticError Int :=
  let value? := match skip ((store.lookup name).getD "").toList with
    | [] => some 0
    | '-' :: digits => (number? digits).map fun n => -(n : Int)
    | '+' :: digits => (number? digits).map fun n => (n : Int)
    | digits => (number? digits).map fun n => (n : Int)
  match value? with
  | some value => .ok value
  | none => .error .malformed

/-- The value of an expression, and the variables afterwards. -/
def eval (store : List (String × String))
    : Expression → Except ArithmeticError (Int × List (String × String))
  | number value => .ok (value, store)
  | parameter name => do return (← valueOf store name, store)
  | negate operand => do
      let (value, store) ← eval store operand
      return (-value, store)
  | not operand => do
      let (value, store) ← eval store operand
      return (BinaryOperator.ofBool (value == 0), store)
  | complement operand => do
      let (value, store) ← eval store operand
      return (-value - 1, store)
  | binary operator left right => do
      let (a, store) ← eval store left
      if operator = .and && a = 0 then return (0, store)
      if operator = .or && a ≠ 0 then return (1, store)
      let (b, store) ← eval store right
      return (← operator.result a b, store)
  | select condition yes no => do
      let (decision, store) ← eval store condition
      if decision ≠ 0 then eval store yes else eval store no
  | assign name operator value => do
      let (right, store) ← eval store value
      let result ← match operator with
        | some operator => do operator.result (← valueOf store name) right
        | none => pure right
      return (result, (name, toString result) :: store.filter (·.1 != name))

/-- The value of the expression that a text holds, and the variables afterwards. -/
def evalText (store : List (String × String)) (chars : List Char)
    : Except ArithmeticError (Int × List (String × String)) :=
  match parse? chars with
  | some expression => expression.eval store
  | none => .error .malformed

end Expression

end DueTasks.Script
