import DueTasks.Files.Path
import DueTasks.Task.Error
import DueTasks.Trigger.Syntax

/-! What the evaluation of a task asks from outside the task's name.
The outside may change with every question. Its state is threaded through, and a question that fails
leaves behind the state it failed in.
-/

namespace DueTasks

/-- An action on a state that answers or fails. -/
abbrev Asking (σ ε α : Type) := ExceptT ε (StateM σ) α

/-- Turns the errors of an action into others. -/
def Asking.mapError {σ ε ε' α : Type} (wrap : ε → ε') (action : Asking σ ε α) : Asking σ ε' α :=
  ExceptT.adapt wrap action

/-- Why a reference has no date. -/
inductive ReferenceError where
  /-- The reference is at fault: its id is unknown, ambiguous or leads back. -/
  | reference (error : SemanticError)
  /-- The task it refers to failed with this error. -/
  | target (error : TaskError)
deriving DecidableEq

/-- What a trigger can ask for. -/
structure Context (σ : Type) where
  /-- The current date, from which a repeat counts. -/
  now : Date
  /-- The current date as a call of `now` is told it, which may change with every question. -/
  today : Asking σ Empty Date := pure now
  /-- The date of the task that declares an id. -/
  resolve : String → Asking σ ReferenceError Date
  /-- The place of a helper program. -/
  findHelper : String → Asking σ FileError Path
  /-- The line that a helper prints when it is run with these words. -/
  runHelper : List String → Asking σ HelperError String
  /-- The date that a builtin gives for these arguments. -/
  callBuiltin : String → List String → Asking σ SemanticError Date
  /-- The lines of the task's own file. -/
  ownLines : Asking σ FileError (List String)
  /-- The target of the task's own link. -/
  ownTarget : Asking σ FileError Path
  /-- The path of the task's own file. -/
  ownPath : Asking σ FileError Path

end DueTasks
