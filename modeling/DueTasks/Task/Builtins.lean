import DueTasks.Calendar.DateReader
import DueTasks.Task.Environment

/-! The standard builtins. Each takes a date and a path, and gives the date if something holds of
the path, and the latest date, which stands for never, if it does not.
-/

namespace DueTasks.Builtin

variable {σ : Type}

def dateAndPath (name : String) (args : List String) : Except SemanticError (Date × String) :=
  match args with
  | [date, path] =>
      match Date.ofText? date with
      | none => .error (.invalidDate date)
      | some date => .ok (date, path)
  | _ => .error (.argumentCount name "2" args.length)

/-- The builtin `filter(date, path)`: the date if the tag filter that writes to the path requires
action.
-/
def filter : Builtin σ := fun scope args => do
  let (date, path) ← (dateAndPath "filter" args : Except _ _)
  let place ← (scope.files.resolve scope.directory path).mapError .file
  if ← scope.filters.isOutput place then
    if ← scope.filters.requiresAction place then return date else return .last
  else throw (.notAFilterOutput path)

/-- The builtin `non_empty(date, path)`: the date if the path is a file or a directory that is not
empty.
-/
def nonEmpty : Builtin σ := fun scope args => do
  let (date, path) ← (dateAndPath "non_empty" args : Except _ _)
  let place ← (scope.files.resolve scope.directory path).mapError .file
  let facts ← (scope.files.facts place).mapError .file
  if facts.present && (facts.isFile || facts.isDirectory) then
    if 0 < facts.size then return date else return .last
  else throw (.notFileOrDirectory path)

/-- The builtins that every batch has. -/
def standard : BuiltinTable σ :=
  [("filter", filter), ("non_empty", nonEmpty)]

end DueTasks.Builtin
