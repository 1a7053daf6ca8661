import DueTasks.Files.Path
import DueTasks.Files.Place

/-! Trees of files, directories and symbolic links.
Looking up a path follows links on the way. The number of links that may be followed is bounded, so
that links that lead back to themselves are an error.
-/

namespace DueTasks

/-- The name of an entry of a directory. -/
inductive EntryName where
  | text (name : String)
  /-- A name that is not UTF-8. -/
  | undecodable (bytes : List UInt8)
deriving DecidableEq

/-- What an entry of a directory is. -/
inductive FileNode where
  | file (bytes : List UInt8) (executable : Bool)
  | directory (entries : List (EntryName × FileNode))
  /-- A symbolic link. -/
  | link (target : String)
  /-- A device, a pipe or a socket, that has no bytes of its own. -/
  | special
deriving Inhabited

namespace FileNode

def isDirectory : FileNode → Bool
  | directory _ => true
  | _ => false

def entries : FileNode → List (EntryName × FileNode)
  | directory entries => entries
  | _ => []

/-- The entry of a directory with a given name. -/
def child? (node : FileNode) (name : String) : Option FileNode :=
  node.entries.lookup (.text name)

/-- The entries with one of them added or replaced. -/
def putEntry (name : EntryName) (node : FileNode) (entries : List (EntryName × FileNode))
    : List (EntryName × FileNode) :=
  if entries.any (·.1 == name) then
    entries.map fun entry => if entry.1 = name then (name, node) else entry
  else entries ++ [(name, node)]

def at? (node : FileNode) : List String → Option FileNode
  | [] => some node
  | name :: rest => do (← node.child? name).at? rest

/-- The tree with an entry put into the directory below the given names. Directories that are
missing on the way are made.
-/
def put (node : FileNode) (directories : List String) (name : EntryName) (entry : FileNode)
    : FileNode :=
  match directories with
  | [] => .directory (putEntry name entry node.entries)
  | first :: rest =>
      let below := (node.child? first).getD (.directory [])
      .directory (putEntry (.text first) (below.put rest name entry) node.entries)

/-- The segments of a path that count when it is looked up. A slash at the end asks for a directory,
as a `.` does.
-/
def lookupSegments (path : String) : List String :=
  let segments := (Path.segments path.toList).filter (· ≠ [])
  let closing := if path.toList.getLast? = some '/' then [['.']] else []
  (segments ++ closing).map String.ofList

/-- The greatest number of bytes of a file name. -/
def maxNameBytes : Nat := 255

/-- The greatest number of bytes of a path. -/
def maxPathBytes : Nat := 4095

/-- The greatest number of links that are followed for one path. -/
def maxLinks : Nat := 40

/-- Follows segments from the place with the given names, latest first, in the tree `root`. The last
segment is followed if it is a link and `follow` says so. The answer is the place reached.
-/
def walk (root : FileNode) (follow : Bool) (links : Nat) (place : List String)
    (segments : List String) : Except SystemError (List String) :=
  match segments with
  | [] => .ok place
  | segment :: rest =>
      match root.at? place.reverse with
      | some (.directory entries) =>
          if segment = "." then walk root follow links place rest
          else if segment = ".." then walk root follow links place.tail rest
          else if maxNameBytes < segment.utf8ByteSize then .error .nameTooLong
          else
            match entries.lookup (.text segment) with
            | none => .error .notFound
            | some (.link target) =>
                if rest.isEmpty && !follow then .ok (segment :: place)
                else
                  match links with
                  | 0 => .error .tooManyLinks
                  | links + 1 =>
                      let start := if target.toList.head? = some '/' then [] else place
                      walk root follow links start (lookupSegments target ++ rest)
            | some _ => walk root follow links (segment :: place) rest
      | _ => .error .notADirectory
termination_by (links, segments.length)

/-- The names that lead to a path, from a working directory given by its own names. -/
def locate (root : FileNode) (working : List String) (path : String) (follow : Bool)
    : Except SystemError (List String) :=
  if path.isEmpty then .error .notFound
  else if path.toList.contains '\x00' then .error .zeroByte
  else if maxPathBytes < path.utf8ByteSize then .error .nameTooLong
  else
    let start := if path.toList.head? = some '/' then [] else working.reverse
    (walk root follow maxLinks start (lookupSegments path)).map List.reverse

end FileNode

end DueTasks
