import DueTasks.Files.FileSystem

/-! A jail: the part of a file system that tasks may see.
Every path that a task names is resolved to a place below the root of the jail. Helper programs are
looked up by plain names in one directory, which may lie elsewhere.
-/

namespace DueTasks

/-- The root of a jail and the directory of the helper programs. -/
structure Jail where
  root : Path
  helpers : Path
deriving DecidableEq, Inhabited

namespace FileSystem

variable (fs : FileSystem)

/-- A path made absolute by its spelling. A slash at the end and two slashes at the start stay. The
empty path cannot be made absolute.
-/
def absolute? (path : Path) : Option Path :=
  if path.text.isEmpty then none
  else
    let names := path.components.filterMap fun
      | .name name => some name
      | .parent => some ".."
      | _ => none
    let double := path.text.startsWith "//" && !path.text.startsWith "///"
    let start := if path.isAbsolute then ⟨if double then "//" else "/"⟩ else fs.workingDirectory
    let joined := names.foldl Path.join start
    some (if path.text.endsWith "/" then joined.join "" else joined)

/-- The absolute form of a directory, which need not exist. -/
def absoluteDirectory (path : Path) : Path :=
  match fs.canonical path with
  | .ok canonical => canonical
  | .error _ =>
      match fs.absolute? path with
      | some absolute => absolute.normalize?.getD absolute
      | none => path

end FileSystem

namespace Jail

/-- The jail at a root, which must exist. -/
def make (fs : FileSystem) (root helpers : Path) : Except FileError Jail := do
  let canonical ← (fs.canonical root).mapError (.ofSystem root)
  return ⟨canonical, fs.absoluteDirectory helpers⟩

variable (jail : Jail) (fs : FileSystem)

/-- A path, if it lies inside of the jail. -/
def inside (shown : String) (path : Path) : Except FileError Path :=
  if path.startsWith jail.root then .ok path else .error (.outsideJail shown)

/-- The place that a text names from a directory. A slash at its start stands for the root of the
jail. The path must stay inside by its spelling, and what it leads to must lie inside too.
-/
def resolve (base : Path) (relative : String) : Except FileError Path := do
  let start := (fs.canonical base).toOption.getD base
  let joined := match relative.toList with
    | '/' :: rest => jail.root.join (String.ofList rest)
    | _ => start.join relative
  match joined.normalize? with
  | none => .error (.outsideJail relative)
  | some normalized => do
      let spelled ← jail.inside relative normalized
      match fs.canonical spelled with
      | .ok real => jail.inside relative real
      | .error _ => .ok spelled

/-- What is known about a place. -/
def facts (path : Path) : Except FileError FileFacts :=
  match fs.kind path with
  | .ok (.file size _) => .ok ⟨true, true, false, size⟩
  | .ok (.directory size) => .ok ⟨true, false, true, size⟩
  | .ok .special => .ok ⟨true, false, false, 0⟩
  | .error .notFound => .ok ⟨false, false, false, 0⟩
  | .error error => .error (.ofSystem path error)

def lines (path : Path) : Except FileError (List String) :=
  (fs.lines path).mapError (.ofSystem path)

/-- The target of a link. -/
def target (path : Path) : Except FileError Path := do
  match ← (fs.linkTarget? path).mapError (.ofSystem path) with
  | some target => .ok target
  | none => .error (.notALink path.text)

/-- The path under which helper programs can reach a place: the path itself, if it lies inside of
the jail or is relative.
-/
def nativePath (path : Path) : Except FileError Path :=
  if path.startsWith jail.root || !path.isAbsolute then .ok path
  else .error (.noNativePath path.text)

def isPlainName (name : String) : Bool :=
  match (Path.mk name).components with
  | [.name _] => true
  | _ => false

/-- The path of a helper program: an executable file in the directory of the helpers. -/
def findHelper (name : String) : Except FileError Path :=
  if !isPlainName name then .error (.helperNotFound name)
  else
    let path := jail.helpers.join name
    match fs.kind path with
    | .ok (.file _ true) => .ok path
    | _ => .error (.helperNotFound name)

end Jail

end DueTasks
