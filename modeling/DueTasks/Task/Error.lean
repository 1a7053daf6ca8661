import DueTasks.Files.Place
import DueTasks.Helper.Duration
import DueTasks.Trigger.SyntaxError

/-! Everything that can be wrong with a task, and the words for it. -/

namespace DueTasks

/-- How a helper program can fail its task: it exits with status 0, leaves its error output empty
and prints exactly one line, which is a date.
-/
inductive HelperError where
  | timeout (program : String) (limit : Duration)
  | notStarted (program message : String)
  | exitStatus (program : String) (code : Option Int)
  | errorOutput (program output : String)
  | manyLines (program : String)
  | noOutput (program : String)
  | notADate (program line : String)
deriving DecidableEq

namespace HelperError

/-- The error in words. A helper that a signal ended has no exit code. -/
def message : HelperError → String
  | timeout program limit => "'" ++ program ++ "' timed out after " ++ limit.text
  | notStarted program message => "'" ++ program ++ "' could not be started: " ++ message
  | exitStatus program code =>
      "'" ++ program ++ "' exited with status " ++ (code.map toString).getD "signal"
  | errorOutput program output => "'" ++ program ++ "' wrote to stderr: " ++ output
  | manyLines program => "'" ++ program ++ "' printed more than one line"
  | noOutput program => "'" ++ program ++ "' printed nothing"
  | notADate program line => "'" ++ program ++ "' printed '" ++ line ++ "', which is not a date"

end HelperError

/-- Why a well-formed trigger has no value. -/
inductive SemanticError where
  | illegalExpression (name : String)
  | argumentCount (name expected : String) (found : Nat)
  | expectedLiteral (name : String) (index : Nat)
  | misplacedPlaceholder (text : String)
  | invalidDate (text : String)
  | unknownBuiltin (name : String)
  | idNotFound (id : String)
  | duplicateId (id : String)
  | cycle (id : String)
  | lineOutOfRange (line : String) (count : Nat)
  | notAFilterOutput (path : String)
  | notFileOrDirectory (path : String)
  | unknownTask (path : String)
  | cannotRepeat
  | file (error : FileError)
deriving DecidableEq

namespace SemanticError

/-- The error in words. -/
def message : SemanticError → String
  | illegalExpression name => "illegal expression '" ++ name ++ "'"
  | argumentCount name expected found =>
      "'" ++ name ++ "' expects " ++ expected ++ " argument(s), got " ++ toString found
  | expectedLiteral name index =>
      "argument " ++ toString index ++ " of '" ++ name ++ "' must be a literal word"
  | misplacedPlaceholder text => "'" ++ text ++ "' can only be used as an argument of bin()"
  | invalidDate text => "'" ++ text ++ "' is not a date"
  | unknownBuiltin name => "unknown builtin '" ++ name ++ "'"
  | idNotFound id => "no task declares id '" ++ id ++ "'"
  | duplicateId id => "id '" ++ id ++ "' is declared by more than one task"
  | cycle id => "reference cycle detected through id '" ++ id ++ "'"
  | lineOutOfRange line count =>
      "line " ++ line ++ " is out of range, the task has " ++ toString count ++ " line(s)"
  | notAFilterOutput path => "'" ++ path ++ "' is not a filter output"
  | notFileOrDirectory path => "'" ++ path ++ "' is neither a readable file nor a directory"
  | unknownTask path => "no task at '" ++ path ++ "'"
  | cannotRepeat => "a task with an id() cannot repeat"
  | file error => error.message

end SemanticError

/-- The error of a task. It quotes the text that it comes from. -/
inductive TaskError where
  /-- The name does not start with a trigger. -/
  | malformed (error : SyntaxError)
  /-- The trigger has no value. -/
  | semantic (text : String) (error : SemanticError)
  /-- A helper program failed. -/
  | helper (text : String) (error : HelperError)
deriving DecidableEq

namespace TaskError

/-- The error in words. -/
def message : TaskError → String
  | malformed error => error.message
  | semantic text error => error.message ++ " (in '" ++ text ++ "')"
  | helper text error => error.message ++ " (in '" ++ text ++ "')"

end TaskError

end DueTasks
