import DueTasks.Script.Process
import DueTasks.Script.Program

/-! The commands of a shell that are no programs of their own, and need no other commands to be
run.
-/

namespace DueTasks.Script

/-- Runs an action, and answers what broke it off. -/
def observe {α : Type} (action : Run α) : Run (Except Jump α) :=
  fun s =>
    let (outcome, after) := action s
    (.ok outcome, after)

/-- Goes on with an outcome. -/
def proceed {α : Type} (outcome : Except Jump α) : Run α :=
  match outcome with
  | .ok value => pure value
  | .error jump => throw jump

def parameterValue? (p : Process) (jobs : List Job) (name : String) : Option String :=
  match name with
  | "#" => some (toString p.args.length)
  | "?" => some (toString p.status)
  | "$" => some (toString p.id)
  | "!" => jobs.head?.map fun job => toString job.id
  | "-" => some ""
  | "@" | "*" => if p.args.isEmpty then none else some (" ".intercalate p.args)
  | "0" => some p.name
  | _ =>
      match name.toNat? with
      | some n => p.args[n - 1]?
      | none => p.valueOf? name

def numberOr (standard : Nat) (command : String) (args : List String) : Run Nat :=
  match args with
  | [] => return standard
  | text :: _ =>
      match text.toNat? with
      | some n => return n
      | none => abort (command ++ ": Illegal number: " ++ text)

/-- Splits `name=value`. -/
def assignment (text : String) : String × Option String :=
  let name := text.toList.takeWhile (· != '=')
  match text.toList.drop name.length with
  | _ :: value => (String.ofList name, some (String.ofList value))
  | [] => (String.ofList name, none)

/-- Sets the variables of assignments. -/
def assignAll (args : List String) : Run Unit := do
  for arg in args do
    match assignment arg with
    | (name, some value) => change (·.withVariable name value)
    | (_, none) => pure ()

/-- Sets options and arguments. -/
def configure (args : List String) : Run Unit := do
  let turn (on : Bool) (letters : List Char) : Run Unit := do
    for letter in letters do
      match letter with
      | 'e' => change fun p => { p with stopsOnFailure := on }
      | 'u' => change fun p => { p with refusesUnset := on }
      | _ => pure ()
  match args with
  | [] => pure ()
  | "--" :: rest => change fun p => { p with args := rest }
  | "-o" :: "errexit" :: _ => turn true ['e']
  | "-o" :: "nounset" :: _ => turn true ['u']
  | first :: rest =>
      match first.toList with
      | '-' :: letters =>
          turn true letters
          if !rest.isEmpty then change fun p => { p with args := rest.filter (· ≠ "--") }
      | '+' :: letters => turn false letters
      | _ => change fun p => { p with args := first :: rest }

/-- A line of input split into the values of so many variables, the last of which takes all the
rest.
-/
def splitLine (separators : List Char) (count : Nat) (chars : List Char) : List String :=
  let isBlank (c : Char) := separators.contains c && Text.isBlank c
  let chars := chars.dropWhile isBlank
  match count with
  | 0 => []
  | 1 => [String.ofList (chars.reverse.dropWhile isBlank).reverse]
  | count + 1 =>
      let word := chars.takeWhile (!separators.contains ·)
      let rest := (chars.drop word.length).dropWhile isBlank
      let rest := match rest with
        | c :: more => if separators.contains c then more else rest
        | [] => []
      String.ofList word :: splitLine separators count rest

/-- Reads a line of the input into variables. -/
def readLine (args : List String) : Run Unit := do
  let names := args.filter (!·.startsWith "-")
  let p ← current
  let line := p.input.takeWhile (· != 10)
  let values := splitLine p.separators names.length (Text.ofUtf8Lossy line).toList
  change fun p => { p with input := p.input.drop (line.length + 1) }
  for (name, value) in names.zip values do
    change (·.withVariable name value)
  setStatus (if line.length < p.input.length then 0 else 1)

/-- Goes to another directory. -/
def changeDirectory (args : List String) : Run Unit := do
  let target := args.headD (((← current).valueOf? "HOME").getD "/")
  let disk ← files
  match disk.node ⟨target⟩ true, disk.locate ⟨target⟩ true with
  | .ok (.directory _), .ok names =>
      change fun p => { p with directory := names }
      setStatus 0
  | _, _ => refuse 2 ("cd: can't cd to " ++ target)

/-- The numbers of the signals. -/
def signals : List (String × Nat) :=
  [("HUP", 1), ("INT", 2), ("QUIT", 3), ("ABRT", 6), ("KILL", 9), ("USR1", 10), ("SEGV", 11),
    ("USR2", 12), ("PIPE", 13), ("ALRM", 14), ("TERM", 15)]

/-- The signal of a name or a number. -/
def signal? (text : String) : Option Nat :=
  let name := if text.startsWith "SIG" then String.ofList (text.toList.drop 3) else text
  text.toNat? <|> signals.lookup name

/-- What a shell reports about a program that a signal has ended. -/
def signalReport : Nat → String
  | 1 => "Hangup\n"
  | 3 => "Quit\n"
  | 6 => "Aborted\n"
  | 9 => "Killed\n"
  | 10 => "User defined signal 1\n"
  | 11 => "Segmentation fault\n"
  | 12 => "User defined signal 2\n"
  | 14 => "Alarm clock\n"
  | 15 => "Terminated\n"
  | _ => ""

/-- Sends a signal to a process. -/
def send (signal : Nat) (target : String) : Run Unit := do
  let s ← get
  match target.toNat? with
  | none => refuse 2 ("kill: Illegal number: " ++ target)
  | some id =>
      if signal = 0 then setStatus 0
      else if id = s.process.id then throw (.killed id signal)
      else if s.jobs.any (·.id = id) then
        let stop (job : Job) : Job :=
          if job.id = id then
            { job with finish := min job.finish s.time, status := 128 + signal }
          else job
        set { s with jobs := s.jobs.map stop }
        setStatus 0
      else refuse 1 "kill: No such process\n"

/-- Sends signals to processes. -/
def sendAll (args : List String) : Run Unit := do
  let (signal, targets) := match args with
    | "-s" :: name :: targets => (signal? name, targets)
    | first :: targets =>
        match first.toList with
        | '-' :: name => (signal? (String.ofList name), targets)
        | _ => (some 15, first :: targets)
    | [] => (none, [])
  match signal with
  | some signal => targets.forM (send signal)
  | none => refuse 2 "kill: Illegal arguments"

/-- Waits for processes in the background. -/
def await (args : List String) : Run Unit := do
  let s ← get
  let wanted := if args.isEmpty then s.jobs
    else s.jobs.filter fun job => args.contains (toString job.id)
  pass ((wanted.map fun job => job.finish - s.time).foldl max 0)
  match args.getLast? with
  | none => setStatus 0
  | some id =>
      setStatus (((s.jobs.find? fun job => toString job.id = id).map Job.status).getD 127)

/-- Gives the variables of assignments other values up to the end of the function. -/
def shadow (args : List String) : Run Unit := do
  for arg in args do
    let name := (assignment arg).1
    change fun p => { p with shadowed := (name, p.valueOf? name) :: p.shadowed }
  assignAll args

/-- Sets what is run when the script ends. -/
def setTrap (args : List String) : Run Unit := do
  match args with
  | action :: signals =>
      if signals.any fun signal => signal = "EXIT" || signal = "0" then
        change fun p => { p with atExit := if action = "-" then none else some action }
  | [] => pure ()
  setStatus 0

/-- Breaks out of loops, if there are any. -/
def jumpOut (command : String) (jump : Nat → Jump) (args : List String) : Run Unit := do
  let count ← numberOr 1 command args
  let loops := (← current).loops
  if 0 < loops then throw (jump (min count loops))
  setStatus 0

/-- The commands of a shell by their names. -/
def builtins : List (String × (List String → Run Unit)) :=
  let nothing (_ : List String) : Run Unit := setStatus 0
  let tool (name : String) (tool : Tool) := (name, callTool tool name true)
  [(":", nothing), ("times", nothing), ("ulimit", nothing), ("alias", nothing),
    ("hash", nothing), ("jobs", nothing), ("trap", setTrap),
    tool "umask" (fun call => if call.args.isEmpty then .ofText "0022\n" else {}),
    tool "echo" plainEcho, tool "printf" printf, tool "test" (test false), tool "[" (test true),
    tool "true" (fun _ => {}), tool "false" (fun _ => { status := 1 }),
    tool "pwd" (fun call => .ofText ((Path.ofNames true call.disk.working).text ++ "\n")),
    ("exit", fun args => do
      setStatus ((← numberOr (← current).status "exit" args) % 256)
      throw .exit),
    ("return", fun args => do
      setStatus ((← numberOr (← current).status "return" args) % 256)
      throw .back),
    ("break", jumpOut "break" .leave), ("continue", jumpOut "continue" .again),
    ("shift", fun args => do
      let count ← numberOr 1 "shift" args
      if (← current).args.length < count then abort "shift: can't shift that many"
      change fun p => { p with args := p.args.drop count, status := 0 }),
    ("set", fun args => do
      configure args
      setStatus 0),
    ("export", fun args => do
      assignAll args
      change fun p =>
        { p with exported := args.map (assignment · |>.1) ++ p.exported, status := 0 }),
    ("readonly", fun args => do
      assignAll args
      setStatus 0),
    ("local", fun args => do
      shadow args
      setStatus 0),
    ("unset", fun args => change fun p =>
      { p with
        store := p.store.filter fun v => !args.contains v.1
        functions := p.functions.filter fun f => !(args.contains "-f" && args.contains f.1)
        status := 0 }),
    ("read", readLine), ("cd", changeDirectory), ("kill", sendAll), ("wait", await)]

end DueTasks.Script
