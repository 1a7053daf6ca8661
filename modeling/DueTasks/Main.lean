import DueTasks.Program.Run
import Std.Time.Zoned

/-! The command line: its words are a request, and the files come as an archive on the input. -/

namespace DueTasks

def currentDate : IO Date := do
  let today ← Std.Time.PlainDate.now
  return (Date.ofParts? today.year.toInt today.month.toNat today.day.toNat).getD .last

def readAll (input : IO.FS.Stream) : IO ByteArray := do
  let mut bytes := ByteArray.empty
  repeat
    let more ← input.read 65536
    if more.isEmpty then break
    bytes := bytes ++ more
  return bytes

def answerFromInput (request : Request) : IO Ending := do
  let archive ← readAll (← IO.getStdin)
  return request.answerArchive (← currentDate) archive.toList

end DueTasks

/-- Runs the program and prints what it answers. -/
def main (words : List String) : IO UInt32 := do
  let ending ← match DueTasks.Request.ofWords words with
    | .ok request => DueTasks.answerFromInput request
    | .error error => pure (.ofUsageError error)
  (← IO.getStdout).write (ByteArray.mk ending.out.toArray)
  (← IO.getStderr).putStr ending.err
  return ending.code
