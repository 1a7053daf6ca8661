import DueTasks.Script.Command
import DueTasks.Script.Tool

/-! The state in which a script runs: the files, the time, what has been printed, and the process
that runs the script, with its variables and open outputs.

Time is counted in nanoseconds. Processes that run side by side are run one after the other, each
from the time at which it was started; what they print is put into the order of time afterwards.
-/

namespace DueTasks.Script

/-- Where what is printed goes. -/
inductive Channel where
  /-- The output of the run. -/
  | out
  /-- The error output of the run. -/
  | err
  | nowhere
  /-- The file that names lead to. -/
  | file (names : List String)
  /-- A pipe to another process. -/
  | pipe (id : Nat)
deriving DecidableEq

/-- Bytes that were printed. -/
structure Print where
  channel : Channel
  time : Nat
  bytes : List UInt8

/-- A process in the background, with the channels that it holds open until its end. -/
structure Job where
  id : Nat
  finish : Nat
  status : Nat
  held : List Channel

/-- A process that runs a script. -/
structure Process where
  id : Nat
  /-- The name that the script was called by. -/
  name : String
  args : List String
  /-- The variables and their values. -/
  store : List (String × String)
  /-- The names of the variables that other programs see. -/
  exported : List String
  functions : List (String × Command)
  /-- The channels of the descriptors from one on. -/
  channels : List (Nat × Channel)
  input : List UInt8
  directory : List String
  /-- The status of the last command. -/
  status : Nat
  /-- The line of the last command. -/
  line : Nat
  /-- The number of loops that the command is in. -/
  loops : Nat
  /-- The values that variables of a function had before. -/
  shadowed : List (String × Option String)
  /-- What is run when the script ends. -/
  atExit : Option String
  /-- Whether the script ends at the first command that fails. -/
  stopsOnFailure : Bool
  /-- Whether unset variables are errors. -/
  refusesUnset : Bool

structure RunState where
  root : FileNode
  time : Nat
  deadline : Nat
  /-- What has been printed, latest first. -/
  prints : List Print
  jobs : List Job
  /-- The number that the next process or pipe gets. -/
  next : Nat
  process : Process

/-- What breaks off a command. -/
inductive Jump where
  /-- Out of the given number of loops. -/
  | leave (loops : Nat)
  /-- To the next round of the loop that many loops out. -/
  | again (loops : Nat)
  /-- Out of a function. -/
  | back
  | exit
  /-- A signal that ends a process. -/
  | killed (id : Nat) (signal : Nat)
  /-- The time is over. -/
  | late

/-- A run of commands. -/
abbrev Run (α : Type) := ExceptT Jump (StateM RunState) α

/-- The time that a command takes by itself. -/
def commandTime : Nat := 20000

/-- The time that it takes to start a program. -/
def startTime : Nat := 1000000

/-- Lets time pass. -/
def pass (nanoseconds : Nat) : Run Unit := do
  let s ← get
  set { s with time := s.time + nanoseconds }
  if s.deadline ≤ s.time + nanoseconds then throw .late

def change (f : Process → Process) : Run Unit :=
  modify fun s => { s with process := f s.process }

def current : Run Process :=
  return (← get).process

/-- Sets the status. -/
def setStatus (status : Nat) : Run Unit :=
  change fun p => { p with status }

/-- The files, seen from the directory of the process. -/
def files : Run Disk := do
  let s ← get
  return ⟨s.root, s.process.directory⟩

/-- A new number for a process or a pipe. -/
def fresh : Run Nat := do
  let s ← get
  set { s with next := s.next + 1 }
  return s.next

namespace Process

/-- The value of a variable. -/
def valueOf? (p : Process) (name : String) : Option String :=
  p.store.lookup name

/-- The process with a variable set. -/
def withVariable (p : Process) (name value : String) : Process :=
  { p with store := (name, value) :: p.store.filter (·.1 != name) }

/-- The process with a variable set, or unset if there is no value. -/
def restore (p : Process) (name : String) (value? : Option String) : Process :=
  match value? with
  | some value => p.withVariable name value
  | none => { p with store := p.store.filter (·.1 != name) }

def channel (p : Process) (descriptor : Nat) : Channel :=
  (p.channels.lookup descriptor).getD .nowhere

/-- The process with a descriptor that leads to a channel. -/
def withChannel (p : Process) (descriptor : Nat) (channel : Channel) : Process :=
  { p with channels := (descriptor, channel) :: p.channels.filter (·.1 != descriptor) }

/-- The characters that separate fields. -/
def separators (p : Process) : List Char :=
  ((p.valueOf? "IFS").getD " \t\n").toList

end Process

/-- The bytes of the file that names lead to. -/
def fileBytes (root : FileNode) (names : List String) : List UInt8 × Bool :=
  match root.at? names with
  | some (.file bytes executable) => (bytes, executable)
  | _ => ([], false)

/-- The tree with other bytes in the file that names lead to. -/
def putBytes (root : FileNode) (names : List String) (bytes : List UInt8) : FileNode :=
  match names.getLast? with
  | some last => root.put names.dropLast (.text last) (.file bytes (fileBytes root names).2)
  | none => root

/-- Prints bytes to a descriptor. -/
def emit (descriptor : Nat) (bytes : List UInt8) : Run Unit := do
  if bytes.isEmpty then return
  modify fun s =>
    match s.process.channel descriptor with
    | .nowhere => s
    | .file names => { s with root := putBytes s.root names ((fileBytes s.root names).1 ++ bytes) }
    | channel => { s with prints := ⟨channel, s.time, bytes⟩ :: s.prints }

/-- What was printed to a channel, in the order of time. -/
def printed (prints : List Print) (channel : Channel) : List UInt8 :=
  let own := (prints.filter (·.channel = channel)).reverse
  (own.mergeSort fun a b => decide (a.time ≤ b.time)).flatMap Print.bytes

/-- Prints a message with the name of the script and the line before it. -/
def complain (message : String) : Run Unit := do
  let p ← current
  emit 2 (Text.toUtf8 (p.name ++ ": " ++ toString p.line ++ ": " ++ message ++ "\n"))

/-- Fails with a message. -/
def refuse (status : Nat) (message : String) : Run Unit := do
  complain message
  setStatus status

/-- Ends the script with a message. -/
def abort {α : Type} (message : String) : Run α := do
  refuse 2 message
  throw .exit

/-- Calls a tool. The tool of a script is named in messages behind the script. -/
def callTool (tool : Tool) (name : String) (inScript : Bool) (args : List String) : Run Unit := do
  let result := tool ⟨args, (← current).input, ← files⟩
  emit 1 result.out
  for message in result.err do
    if inScript then complain (name ++ ": " ++ message)
    else emit 2 (Text.toUtf8 (name ++ ": " ++ message ++ "\n"))
  if result.reads then change fun p => { p with input := [] }
  setStatus result.status
  pass result.delay

/-! ## Redirections -/

/-- Opens a file for printing. The answer is an error in words if it cannot be opened. -/
def openOutput (path : String) (append : Bool) : Run (Except String Channel) := do
  let disk ← files
  let create (names : List String) (bytes : List UInt8) : Run (Except String Channel) := do
    modify fun s => { s with root := putBytes s.root names bytes }
    return .ok (.file names)
  let refusal (reason : String) : Run (Except String Channel) :=
    return .error ("cannot create " ++ path ++ ": " ++ reason)
  if path = "/dev/null" then return .ok .nowhere
  else
    match disk.node ⟨path⟩ true, disk.locate ⟨path⟩ true with
    | .ok (.file bytes _), .ok names => create names (if append then bytes else [])
    | .ok .special, _ => return .ok .nowhere
    | .ok _, _ => refusal "Is a directory"
    | .error _, _ =>
        let parent := (Path.mk path).directory
        let directory := disk.locate (if parent.text.isEmpty then ⟨"."⟩ else parent) true
        match directory, (Path.mk path).fileName? with
        | .ok names, some name => create (names ++ [name]) []
        | _, _ => refusal "Directory nonexistent"

/-- Redirects a descriptor. The answer is an error in words if that cannot be done. -/
def redirect (descriptor : Nat) (mode : RedirectMode) (target : String)
    : Run (Except String Unit) := do
  let lead (channel : Channel) : Run (Except String Unit) := do
    change (·.withChannel descriptor channel)
    return .ok ()
  match mode with
  | .document =>
      change fun p => { p with input := Text.toUtf8 target }
      return .ok ()
  | .read =>
      let fs := (← files).fileSystem
      let bytes := if target = "/dev/null" then Except.ok [] else fs.bytes ⟨target⟩
      match bytes with
      | .ok bytes =>
          change fun p => { p with input := bytes }
          return .ok ()
      | .error .notFound => return .error ("cannot open " ++ target ++ ": No such file")
      | .error error => return .error ("cannot open " ++ target ++ ": " ++ fileComplaint error)
  | .duplicate =>
      if target = "-" then lead .nowhere
      else
        let channels := (← current).channels
        match target.toNat?.bind fun n => channels.lookup n with
        | some channel => lead channel
        | none => return .error (target ++ ": Bad file descriptor")
  | .write | .append =>
      match ← openOutput target (mode = .append) with
      | .ok channel => lead channel
      | .error message => return .error message

end DueTasks.Script
