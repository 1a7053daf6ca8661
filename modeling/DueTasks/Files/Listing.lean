import DueTasks.Files.FileSystem
import DueTasks.Task.Entry

/-! The tasks in a directory: its files and links, in the order of their paths.
Entries whose names begin with a dot or are not UTF-8 are left out, and so are devices, pipes and
sockets. Links are tasks themselves and are not followed.
-/

namespace DueTasks

/-- Why a directory cannot be listed. -/
structure ListingError where
  path : Path
  cause : SystemError
deriving DecidableEq

/-- The error in words, without its cause. -/
def ListingError.message (e : ListingError) : String :=
  "failed to read task directory " ++ e.path.text

mutual

/-- The tasks among the entries of a directory at a path, in the order of the entries. -/
def FileNode.tasks (path : Path) (recurse : Bool) : List (EntryName × FileNode) → List TaskEntry
  | [] => []
  | (.undecodable _, _) :: rest => FileNode.tasks path recurse rest
  | (.text name, node) :: rest =>
      FileNode.tasksOf (path.join name) name recurse node ++ FileNode.tasks path recurse rest

/-- The tasks that one entry stands for. -/
def FileNode.tasksOf (path : Path) (name : String) (recurse : Bool) : FileNode → List TaskEntry
  | .file .. => if name.startsWith "." then [] else [⟨path, name⟩]
  | .link _ => if name.startsWith "." then [] else [⟨path, name⟩]
  | .directory entries =>
      if name.startsWith "." || !recurse then [] else FileNode.tasks path recurse entries
  | .special => []

end

/-- The tasks in a directory, and with `recurse` in the directories below it, sorted by path. -/
def Disk.tasks (disk : Disk) (path : Path) (recurse : Bool)
    : Except ListingError (List TaskEntry) :=
  match disk.node path true with
  | .error cause => .error ⟨path, cause⟩
  | .ok (.directory entries) =>
      .ok ((FileNode.tasks path recurse entries).mergeSort fun a b => !b.path.precedes a.path)
  | .ok _ => .error ⟨path, .notADirectory⟩

end DueTasks
