import DueTasks.Helper.Output
import DueTasks.Task.Context

/-! The outside world of a batch of tasks: its files, the helper programs that it can run, its tag
filters and its builtins.
-/

namespace DueTasks

/-- The files that tasks can see. -/
structure TaskFiles (σ : Type) where
  /-- The place that a text names from a directory, if it lies where tasks may look. -/
  resolve : Path → String → Asking σ FileError Path
  /-- What is known about a place. A place where nothing is, is not an error. -/
  facts : Path → Asking σ FileError FileFacts
  /-- The lines of a file. -/
  lines : Path → Asking σ FileError (List String)
  /-- The target of a link. -/
  target : Path → Asking σ FileError Path
  /-- The path under which programs outside can reach a place. -/
  nativePath : Path → Asking σ FileError Path
  /-- The place of a helper program. -/
  findHelper : String → Asking σ FileError Path

structure TagFilters (σ : Type) where
  /-- Whether a filter writes to a place. -/
  isOutput : Path → StateM σ Bool
  /-- Whether the filter that writes to a place requires action. -/
  requiresAction : Path → StateM σ Bool

/-- No tag filters at all. -/
def TagFilters.none {σ : Type} : TagFilters σ where
  isOutput _ := pure false
  requiresAction _ := pure false

/-- What a builtin can look at while it runs. -/
structure BuiltinScope (σ : Type) where
  files : TaskFiles σ
  filters : TagFilters σ
  /-- The directory of the task, from which relative paths lead. -/
  directory : Path

/-- A function that a task can call for a date. -/
abbrev Builtin (σ : Type) := BuiltinScope σ → List String → Asking σ SemanticError Date

/-- Builtins by their names. -/
abbrev BuiltinTable (σ : Type) := List (String × Builtin σ)

def BuiltinTable.call {σ : Type} (table : BuiltinTable σ) (name : String) (scope : BuiltinScope σ)
    (args : List String) : Asking σ SemanticError Date :=
  match table.lookup name with
  | none => throw (.unknownBuiltin name)
  | some builtin => builtin scope args

/-- The outside world of a batch of tasks. -/
structure Environment (σ : Type) where
  /-- The current date. -/
  now : Date
  files : TaskFiles σ
  /-- Runs a program with its arguments. -/
  run : List String → Asking σ HelperError HelperOutput
  filters : TagFilters σ
  builtins : BuiltinTable σ

end DueTasks
