import DueTasks.Files.Path
import DueTasks.Task.Error
import DueTasks.Text.Blank
import DueTasks.Text.Lines

/-! What helper programs print, and the protocol that they keep: exit with status 0, an empty error
output, and exactly one line of output that is not blank.
-/

namespace DueTasks

/-- What a program left behind. A program that a signal ended has no exit code. -/
structure HelperOutput where
  code : Option Int
  out : String
  err : String
deriving DecidableEq, Inhabited

/-- The name that a program is called by in messages: the file name of its path, if it has one. -/
def programName (program : String) : String :=
  (Path.mk program).fileName?.getD program

/-- The one line that a program printed, if it kept to the protocol. -/
def HelperOutput.line (output : HelperOutput) (program : String) : Except HelperError String :=
  let shown := programName program
  if output.code ≠ some 0 then .error (.exitStatus shown output.code)
  else if output.err ≠ "" then
    .error (.errorOutput shown (String.ofList (Text.trimRight output.err.toList)))
  else
    match Text.lines output.out.toList with
    | [] => .error (.noOutput shown)
    | first :: more =>
        if Text.allBlank first then .error (.noOutput shown)
        else if more ≠ [] then .error (.manyLines shown)
        else .ok (String.ofList first)

end DueTasks
