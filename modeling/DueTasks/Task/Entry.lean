import DueTasks.Files.Path

/-! Tasks as they are found: by the path of a file, whose name says what the task is. -/

namespace DueTasks

/-- A task: where it lies and what it is called. -/
structure TaskEntry where
  path : Path
  name : String
deriving DecidableEq

/-- The task at a path, called by its file name. -/
def TaskEntry.ofPath? (path : Path) : Option TaskEntry :=
  path.fileName?.map fun name => ⟨path, name⟩

end DueTasks
