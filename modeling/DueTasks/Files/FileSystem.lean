import DueTasks.Files.Tree
import DueTasks.Text.Lines
import DueTasks.Text.Utf8

/-! The questions that a program asks of a file system, and a file system that answers them from a
tree.
-/

namespace DueTasks

/-- What a path leads to. -/
inductive FileKind where
  | file (size : Nat) (executable : Bool)
  /-- A directory, with the number of its entries. -/
  | directory (entries : Nat)
  /-- A device, a pipe or a socket. -/
  | special
deriving DecidableEq

/-- A file system, as a program sees it. -/
structure FileSystem where
  /-- The working directory, an absolute path. -/
  workingDirectory : Path
  /-- The absolute path, free of links, `.` and `..`, of what a path leads to. -/
  canonical : Path → Except SystemError Path
  /-- What a path leads to, links followed. -/
  kind : Path → Except SystemError FileKind
  /-- The bytes of the file that a path leads to. -/
  bytes : Path → Except SystemError (List UInt8)
  /-- The text of the link that a path names, if it names a link. -/
  linkTarget? : Path → Except SystemError (Option Path)

namespace FileSystem

/-- The text of the file that a path leads to. -/
def text (fs : FileSystem) (path : Path) : Except SystemError String := do
  match Text.ofUtf8? (← fs.bytes path) with
  | some text => .ok text
  | none => .error .notText

/-- The lines of the file that a path leads to. -/
def lines (fs : FileSystem) (path : Path) : Except SystemError (List String) :=
  (fs.text path).map fun text => (Text.lines text.toList).map String.ofList

end FileSystem

/-- A tree of files together with a working directory, given by the names that lead to it. -/
structure Disk where
  root : FileNode
  working : List String
deriving Inhabited

namespace Disk

variable (disk : Disk)

/-- The names that lead to what a path leads to. -/
def locate (path : Path) (follow : Bool) : Except SystemError (List String) :=
  disk.root.locate disk.working path.text follow

/-- The node that a path leads to. -/
def node (path : Path) (follow : Bool) : Except SystemError FileNode := do
  match disk.root.at? (← disk.locate path follow) with
  | some node => .ok node
  | none => .error .notFound

/-- The answers that the tree gives. -/
def fileSystem : FileSystem where
  workingDirectory := .ofNames true disk.working
  canonical path := (disk.locate path true).map (.ofNames true)
  kind path := do
    match ← disk.node path true with
    | .file bytes executable => .ok (.file bytes.length executable)
    | .directory entries => .ok (.directory entries.length)
    | .link _ => .error .tooManyLinks
    | .special => .ok .special
  bytes path := do
    match ← disk.node path true with
    | .file bytes _ => .ok bytes
    | .directory _ => .error .isADirectory
    | .link _ => .error .tooManyLinks
    | .special => .ok []
  linkTarget? path := do
    match ← disk.node path false with
    | .link target => .ok (some ⟨target⟩)
    | _ => .ok none

/-- The names of the directory that components lead to from a directory, where what is missing
counts as made.
-/
def reach (names : List String) : List PathComponent → List String
  | [] => names
  | .root :: rest => reach [] rest
  | .current :: rest => reach names rest
  | .parent :: rest => reach names.dropLast rest
  | .name name :: rest =>
      let here := disk.locate (.ofNames true (names ++ [name])) true
      reach (here.toOption.getD (names ++ [name])) rest

/-- The disk with an entry put into a directory. Directories on the way are made where they are
missing; links on the way are followed.
-/
def putNamed (directory : Path) (name : EntryName) (entry : FileNode) : Disk :=
  { disk with root := disk.root.put (disk.reach disk.working directory.components) name entry }

/-- The disk with an entry put where a path says. -/
def put (path : Path) (entry : FileNode) : Disk :=
  match path.fileName? with
  | none => disk
  | some name => disk.putNamed path.directory (.text name) entry

/-- The disk with a directory at a path, unless something is there. -/
def makeDirectory (path : Path) : Disk :=
  match disk.node path true with
  | .ok _ => disk
  | .error _ => disk.put path (.directory [])

end Disk

end DueTasks
