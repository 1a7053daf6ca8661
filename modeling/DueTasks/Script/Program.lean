import DueTasks.Files.FileSystem
import DueTasks.Script.Tool
import DueTasks.Text.Blank

/-! Programs in a tree of files.
A program is either native, which is told by the bytes that it begins with, or a text that names its
interpreter in its first line, behind the signs `#!`.
-/

namespace DueTasks.Script

/-- The bytes that a native program begins with. -/
def nativeMark : List UInt8 :=
  [0x7f, 0x45, 0x4c, 0x46]

/-- The interpreter that the first line of a text names, and its argument. -/
def interpreter? (bytes : List UInt8) : Option (String × Option String) :=
  match bytes with
  | 0x23 :: 0x21 :: rest =>
      let line := (Text.ofUtf8Lossy (rest.takeWhile (· != 10))).toList
      let trimmed := (line.reverse.dropWhile Text.isSpaceOrTab).reverse.dropWhile Text.isSpaceOrTab
      let program := trimmed.takeWhile (!Text.isSpaceOrTab ·)
      let argument := (trimmed.drop program.length).dropWhile Text.isSpaceOrTab
      some (String.ofList program,
        if argument.isEmpty then none else some (String.ofList argument))
  | _ => none

/-- A native program as it is run: its own name, the name that it is called by, and its arguments.
-/
structure NativeCall where
  program : String
  called : String
  args : List String
deriving DecidableEq

/-- The native program that runs the file at a path: its interpreter, if it is a script. At most
`depth` interpreters are scripts themselves.
-/
def nativeCall (disk : Disk) (depth : Nat) (path called : String) (args : List String)
    : Except SystemError NativeCall := do
  match ← disk.node ⟨path⟩ true with
  | .directory _ | .link _ | .special => .error .permissionDenied
  | .file bytes executable =>
      if !executable then .error .permissionDenied
      else if nativeMark.isPrefixOf bytes then
        return ⟨((← disk.locate ⟨path⟩ true).getLast?).getD "", called, args⟩
      else
        match interpreter? bytes, depth with
        | none, _ => .error .notExecutable
        | some _, 0 => .error .tooManyLinks
        | some (program, argument), depth + 1 =>
            nativeCall disk depth program program (argument.toList ++ path :: args)

/-- The directories in which programs are looked up. -/
def programDirectories : List String :=
  ["/usr/local/sbin", "/usr/local/bin", "/usr/sbin", "/usr/bin", "/sbin", "/bin"]

/-- The path of a program: its name, if there is a slash in it, and otherwise the place in the
first of the directories in which there is such an executable file.
-/
def programPath? (disk : Disk) (name : String) : Except SystemError String :=
  if name.toList.contains '/' then .ok name
  else if name.isEmpty then .error .notFound
  else
    let isProgram (path : String) : Bool :=
      match disk.node ⟨path⟩ true with
      | .ok (.file _ executable) => executable
      | _ => false
    match (programDirectories.map (· ++ "/" ++ name)).find? isProgram with
    | some path => .ok path
    | none => .error .notFound

/-- A tree with the native programs in their places. -/
def nativeTree : FileNode :=
  let native (name : String) : EntryName × FileNode := (.text name, .file nativeMark true)
  let names := ["dash", "env"] ++ (tools.map Prod.fst)
  let programs := (.text "sh", .link "dash") :: names.map native
  .directory [
    (.text "usr", .directory [(.text "bin", .directory programs)]),
    (.text "bin", .link "usr/bin"),
    (.text "dev", .directory [(.text "null", .special)])
  ]

end DueTasks.Script
