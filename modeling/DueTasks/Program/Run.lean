import DueTasks.CommandLine.Parser
import DueTasks.Files.Archive
import DueTasks.Files.Listing
import DueTasks.Helper.Machine
import DueTasks.Report.TaskReport
import DueTasks.Settings.Reader
import DueTasks.Task.Builtins

/-! The whole program: from the words of a command line and a machine to what is printed. -/

namespace DueTasks

/-- Why a request fails. -/
inductive RequestError where
  | settings (error : SettingsError)
  | jail (root : Path) (error : FileError)
  | listing (error : ListingError)
  | done (error : DoneError)
deriving DecidableEq

namespace RequestError

/-- The error in words. -/
def message : RequestError → String
  | settings error => error.message
  | jail root _ => "invalid jail root " ++ root.text
  | listing error => error.message
  | done error => error.message

/-- What lies behind the error, in words. -/
def cause? : RequestError → Option String
  | settings error => some error.cause
  | jail _ error => some error.message
  | listing error => some error.cause.message
  | done _ => none

/-- The error as it is reported to the user. -/
def report (error : RequestError) : String :=
  let causes := match error.cause? with
    | some cause => "\n\nCaused by:\n    " ++ cause
    | none => ""
  "Error: " ++ error.message ++ causes ++ "\n"

end RequestError

namespace Request

variable (request : Request)

/-- The tasks of a request, in their surroundings. `today` is the date without a choice of
another.
-/
def registry (today : Date) (disk : Disk) : Except RequestError (Registry Machine) := do
  let fs := disk.fileSystem
  let settings ← (request.settings.settings fs).mapError .settings
  let root := settings.jailRootFor request.directory
  let jail ← (Jail.make fs root (settings.helpersFor root)).mapError (.jail root)
  let entries ← (disk.tasks request.directory request.recurse).mapError .listing
  let environment : Environment Machine :=
    { now := request.now.getD today
      files := Machine.files jail
      run := Machine.run settings.timeout
      filters := .none
      builtins := Builtin.standard }
  return .ofEntries environment entries

/-- The records that answer a request about tasks. -/
def records (registry : Registry Machine)
    : Asking (Session Machine) RequestError (List Record) := do
  match request.done with
  | some name => return [(← (registry.doneReport name).mapError .done).toRecord]
  | none => return (← registry.reports request.dueOnly).map TaskReport.toRecord

end Request

/-- How a program ends: its exit code, and what it has printed. -/
structure Ending where
  code : UInt32
  out : List UInt8
  err : String

namespace Ending

/-- The end of a program that crashes. -/
def crash : Ending :=
  ⟨101, [], "\nthe deadline of a helper program is out of range\n"⟩

def usage : String :=
  "Tells when tasks are due. The files are read from a tar archive on standard input.\n\n"
    ++ "Usage: due-tasks [OPTIONS] <TASK_DIR>\n\n"
    ++ "  -o, --output <OUTPUT>  plain, json or binary\n"
    ++ "      --pretty           indent JSON\n"
    ++ "      --recurse          look for tasks in subdirectories\n"
    ++ "  -c, --config <FILE>    a YAML file with settings\n"
    ++ "      --jail-root <DIR>  the directory that tasks may not leave\n"
    ++ "      --bin-dir <DIR>    the directory of helper programs\n"
    ++ "      --timeout <SECS>   how many seconds a helper may run\n"
    ++ "      --now <DATE>       the date that counts as today\n"
    ++ "      --done <NAME>      print the done name of a task\n"
    ++ "      --due-only         leave out tasks that are not due\n"
    ++ "  -h, --help             print this\n"

/-- The end of a program whose command line is no request. -/
def ofUsageError : UsageError → Ending
  | .help => ⟨0, Text.toUtf8 usage, ""⟩
  | error => ⟨2, [], "error: " ++ error.message ++ "\n"⟩

/-- The end of a program that cannot read its files. -/
def badArchive : Ending :=
  ⟨1, [], "Error: standard input is not a tar archive\n"⟩

end Ending

def Request.answer (request : Request) (today : Date) (machine : Machine) : Ending :=
  match request.registry today machine.disk with
  | .error error => ⟨1, [], error.report⟩
  | .ok registry =>
      let (outcome, session) := (request.records registry).run.run (.start machine)
      if session.world.crashed then .crash
      else
        match outcome with
        | .error error => ⟨1, [], error.report⟩
        | .ok records => ⟨0, (request.format.print request.pretty records).toBytes, ""⟩

/-- Answers a request with the files of an archive. -/
def Request.answerArchive (request : Request) (today : Date) (archive : List UInt8) : Ending :=
  let disk : Disk := ⟨Script.nativeTree, ["home"]⟩
  match (disk.makeDirectory ⟨"/home"⟩).unpackAll? archive with
  | some disk => request.answer today (.start disk)
  | none => .badArchive

/-- Runs the program with the words of its command line. -/
def runProgram (words : List String) (today : Date) (machine : Machine) : Ending :=
  match Request.ofWords words with
  | .error error => .ofUsageError error
  | .ok request => request.answer today machine

end DueTasks
