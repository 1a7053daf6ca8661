import DueTasks.Files.Jail
import DueTasks.Helper.Output
import DueTasks.Script.Interpreter
import DueTasks.Task.Environment

/-! The machine on which helper programs run: its files and its clock.
A helper may run up to a deadline. If the deadline is a time that the clock cannot tell, the machine
crashes.
-/

namespace DueTasks

structure Machine where
  disk : Disk
  /-- How long the machine has been running. -/
  clock : Duration
  /-- Whether it has crashed. -/
  crashed : Bool

namespace Machine

/-- The last second that a clock can tell. -/
def lastSecond : Nat := 9223372036854775807

/-- The time that comes a length of time after another, if a clock can tell it. -/
def deadline? (clock limit : Duration) : Option Duration :=
  let sum : Duration := ⟨clock.nanoseconds + limit.nanoseconds⟩
  if sum.nanoseconds / 1000000000 ≤ lastSecond then some sum else none

/-- A machine with the given files that has been running for an hour. -/
def start (disk : Disk) : Machine :=
  ⟨disk, .ofSeconds 3600, false⟩

/-- How a machine starts a program, or the reason in words why it cannot. -/
def prepare (disk : Disk) (program : String) (args : List String)
    : Except String Script.NativeCall :=
  if (program :: args).any (·.toList.contains '\x00') then
    .error "nul byte found in provided data"
  else
    ((Script.programPath? disk program).bind fun path =>
      Script.nativeCall disk 4 path program args).mapError SystemError.message

/-- Runs a program with its arguments, for at most a length of time. -/
def run (limit : Duration) : List String → Asking Machine HelperError HelperOutput
  | [] => throw (.notStarted "" "empty command line")
  | program :: args => do
      let machine ← get
      let shown := programName program
      match prepare machine.disk program args with
      | .error message => throw (.notStarted shown message)
      | .ok call =>
          match deadline? machine.clock limit with
          | none =>
              set { machine with crashed := true }
              throw (.timeout shown limit)
          | some deadline =>
              let disk := machine.disk
              let result := Script.run disk machine.clock.nanoseconds deadline.nanoseconds call
              let finish := result.finish.getD deadline.nanoseconds
              set { machine with disk := { disk with root := result.root }, clock := ⟨finish⟩ }
              if result.finish.isNone then throw (.timeout shown limit)
              return ⟨result.code.map Int.ofNat, Text.ofUtf8Lossy result.out,
                Text.ofUtf8Lossy result.err⟩

/-- The files of a machine, as tasks see them through a jail. -/
def files (jail : Jail) : TaskFiles Machine :=
  let ask {α : Type} (question : FileSystem → Except FileError α) : Asking Machine FileError α := do
    (question (← get).disk.fileSystem : Except _ _)
  { resolve := fun base relative => ask (jail.resolve · base relative)
    facts := fun path => ask (Jail.facts · path)
    lines := fun path => ask (Jail.lines · path)
    target := fun path => ask (Jail.target · path)
    nativePath := fun path => ask fun _ => jail.nativePath path
    findHelper := fun name => ask (jail.findHelper · name) }

end Machine

end DueTasks
