import DueTasks.Files.Path

/-! What is known about a place in a file system, and what can be wrong with it. -/

namespace DueTasks

/-- What is known about a place in the file system. -/
structure FileFacts where
  present : Bool
  isFile : Bool
  isDirectory : Bool
  /-- The size of a file in bytes, or the number of entries of a directory. -/
  size : Nat
deriving DecidableEq, Inhabited

/-- Why the operating system refuses an operation. -/
inductive SystemError where
  | notFound
  | permissionDenied
  | notExecutable
  | notADirectory
  | isADirectory
  | nameTooLong
  | tooManyLinks
  | zeroByte
  | notText
deriving DecidableEq

namespace SystemError

/-- The error in words. -/
def message : SystemError → String
  | notFound => "No such file or directory (os error 2)"
  | permissionDenied => "Permission denied (os error 13)"
  | notExecutable => "Exec format error (os error 8)"
  | notADirectory => "Not a directory (os error 20)"
  | isADirectory => "Is a directory (os error 21)"
  | nameTooLong => "File name too long (os error 36)"
  | tooManyLinks => "Too many levels of symbolic links (os error 40)"
  | zeroByte => "file name contained an unexpected NUL byte"
  | notText => "stream did not contain valid UTF-8"

end SystemError

/-- What can go wrong with files. -/
inductive FileError where
  | outsideJail (path : String)
  | notFound (path : String)
  | notALink (path : String)
  | noNativePath (path : String)
  | helperNotFound (name : String)
  | system (path message : String)
deriving DecidableEq

namespace FileError

/-- An error of the operating system about a path. -/
def ofSystem (path : Path) (error : SystemError) : FileError :=
  .system path.text error.message

/-- The error in words. -/
def message : FileError → String
  | outsideJail path => "path '" ++ path ++ "' escapes the jail"
  | notFound path => "'" ++ path ++ "' does not exist"
  | notALink path => "'" ++ path ++ "' is not a symbolic link"
  | noNativePath path => "'" ++ path ++ "' has no native path"
  | helperNotFound name => "binary '" ++ name ++ "' not found or not a regular executable file"
  | system path message => path ++ ": " ++ message

end FileError

end DueTasks
