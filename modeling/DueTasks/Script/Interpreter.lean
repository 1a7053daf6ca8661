import DueTasks.Script.Arithmetic
import DueTasks.Script.Builtin
import DueTasks.Script.Expansion
import DueTasks.Script.Parser

/-! Running shell scripts.
A script runs on a tree of files and in a time of its own, so that a run is a function of what it
is given. Commands that are nested too deep end their process, and a run that lasts too long is
broken off at its deadline.
-/

namespace DueTasks.Script

/-- Runs an action in a process that shares nothing with the one around it but the files and the
time.
-/
def inSubshell (action : Run Unit) : Run Unit := do
  let outer ← current
  let outcome ← observe action
  let status := (← current).status
  change fun _ => { outer with status }
  match outcome with
  | .error (.killed id signal) => throw (.killed id signal)
  | .error .late => throw .late
  | _ => return

/-- Runs an action as a process of its own. The answer is the signal that ended it. -/
def inProcess (process : Process) (action : Run Unit) : Run (Option Nat) := do
  let outer ← current
  change fun _ => process
  let outcome ← observe action
  let status := (← current).status
  let leave (status : Nat) : Run Unit := change fun _ => { outer with status }
  match outcome with
  | .error (.killed id signal) =>
      leave (128 + signal)
      if id = process.id then return some signal else throw (.killed id signal)
  | .error .late => throw .late
  | _ =>
      leave status
      return none

/-- Takes what was printed to a pipe, once all processes that hold it have ended. -/
def gather (id : Nat) : Run (List UInt8) := do
  let s ← get
  let holders := s.jobs.filter fun job => job.held.contains (.pipe id)
  pass ((holders.map fun job => job.finish - s.time).foldl max 0)
  modify fun s => { s with prints := s.prints.filter (·.channel ≠ .pipe id) }
  return printed s.prints (.pipe id)

/-- Repeats a step as long as it answers a status to go on with, at most so many times. -/
def iterate (count : Nat) (status : Nat) (step : Nat → Run (Option Nat)) : Run Unit :=
  match count with
  | 0 => throw .late
  | count + 1 => do
      match ← step status with
      | some status => iterate count status step
      | none => return

/-- Takes a step for each value, as long as it answers to go on. -/
def forEachValue (step : String → Run Bool) : List String → Run Unit
  | [] => return
  | value :: rest => do if ← step value then forEachValue step rest

/-- Runs the body of a loop. The answer is whether the loop goes on. -/
def loopBody (body : Run Unit) : Run Bool := do
  let outer := (← current).loops
  change fun p => { p with loops := outer + 1 }
  let outcome ← observe body
  change fun p => { p with loops := outer }
  match outcome with
  | .ok () => return true
  | .error (.leave loops) =>
      if 1 < loops then throw (.leave (loops - 1))
      setStatus 0
      return false
  | .error (.again loops) =>
      if 1 < loops then throw (.again (loops - 1))
      return true
  | .error jump => throw jump

/-- Ends a script that stops at failures, if the last command failed. `tested` says that its
status is looked at.
-/
def checkFailure (tested : Bool) : Run Unit := do
  let p ← current
  if p.stopsOnFailure && !tested && p.status ≠ 0 then throw .exit

/-- The text without line feeds at its end. -/
def dropBreaks (chars : List Char) : List Char :=
  (chars.reverse.dropWhile (· == '\n')).reverse

/-- Whether a word holds what commands print. -/
def Word.runsCommands (word : Word) : Bool :=
  word.any fun
    | .output .. => true
    | _ => false

/-- How a shell is started: whether it runs a text, and its options. -/
structure ShellStart where
  runsText : Bool := false
  options : List String := []
  words : List String

/-- Reads the arguments of a shell. -/
def ShellStart.ofArgs (start : ShellStart) : List String → ShellStart
  | [] => { start with words := [] }
  | arg :: rest =>
      match arg.toList with
      | '-' :: c :: letters =>
          if arg = "--" then { start with words := rest }
          else
            ofArgs { start with
              runsText := start.runsText || (c :: letters).contains 'c'
              options := arg :: start.options } rest
      | _ => { start with words := arg :: rest }

/-- A new process for a program that the current one starts. -/
def spawn (name : String) (args : List String) : Run Process := do
  let id ← fresh
  let p ← current
  return { p with
    id, name, args, functions := [], status := 0, line := 0, loops := 0, shadowed := []
    atExit := none, stopsOnFailure := false, refusesUnset := false
    store := p.store.filter fun v => p.exported.contains v.1 }

mutual

/-- What a piece of a word expands to. -/
def expandPiece (fuel : Nat) (piece : Piece) : Run (List Atom) := do
  match fuel with
  | 0 => throw (.killed (← current).id 11)
  | fuel + 1 =>
      match piece with
      | .text value quoted =>
          let written := value.toList.map (Atom.written · quoted)
          return if quoted then .mark :: written else written
      | .parameter "@" .value quoted => return Atom.ofFields quoted (← current).args
      | .parameter "*" .value quoted =>
          let p ← current
          let separator := String.ofList (p.separators.take 1)
          return if quoted then Atom.ofText true (separator.intercalate p.args).toList
            else Atom.ofFields false p.args
      | .parameter name use quoted =>
          let s ← get
          let value? := parameterValue? s.process s.jobs name
          let plain (value : List Char) : List Atom := Atom.ofText quoted value
          match use with
          | .value =>
              if value?.isNone && s.process.refusesUnset then abort (name ++ ": parameter not set")
              else return plain (value?.getD "").toList
          | .length => return plain (toString (value?.getD "").length).toList
          | .fallback kind orEmpty word =>
              let isSet := value?.any fun value => !(orEmpty && value.isEmpty)
              match kind, isSet with
              | .replace, false => return plain []
              | .replace, true => expandWord fuel word
              | _, true => return plain (value?.getD "").toList
              | .substitute, false => expandWord fuel word
              | .assign, false =>
                  let value := (joinAtoms (← expandWord fuel word)).text
                  change (·.withVariable name value)
                  return plain value.toList
              | .fail, false =>
                  let message := (joinAtoms (← expandWord fuel word)).text
                  let unset := "parameter not set" ++ (if orEmpty then " or null" else "")
                  abort (name ++ ": " ++ (if message.isEmpty then unset else message))
          | .trim atStart longest word =>
              let pattern := joinAtoms (← expandWord fuel word)
              let value := (value?.getD "").toList
              return plain (if atStart then pattern.trimStart longest value
                else pattern.trimEnd longest value)
      | .arithmetic expression =>
          let text := (joinAtoms (← expandWord fuel expression)).text
          match Expression.evalText (← current).store text.toList with
          | .ok (value, store) =>
              change fun p => { p with store }
              return Atom.ofText false (toString value).toList
          | .error error =>
              abort ("arithmetic expression: " ++ error.message ++ ": \"" ++ text ++ "\"")
      | .output commands quoted =>
          let id ← fresh
          inSubshell do
            change (·.withChannel 1 (.pipe id))
            commands.forM (execute fuel false)
          return Atom.ofText quoted (dropBreaks (Text.ofUtf8Lossy (← gather id)).toList)

def expandWord (fuel : Nat) (word : Word) : Run (List Atom) := do
  match fuel with
  | 0 => throw (.killed (← current).id 11)
  | fuel + 1 => return (← word.mapM (expandPiece fuel)).flatten

def expandFields (fuel : Nat) (words : List Word) : Run (List String) := do
  match fuel with
  | 0 => throw (.killed (← current).id 11)
  | fuel + 1 =>
      let fields ← words.mapM fun word => do
        let atoms ← expandWord fuel word
        let split := splitAtoms (← current).separators none atoms
        let disk ← files
        return split.flatMap (Field.words disk)
      return fields.flatten

/-- Opens redirections, up to one that fails. The answer is whether none has failed. -/
def openAll (fuel : Nat) (redirections : List Redirection) : Run Bool := do
  match fuel with
  | 0 => throw (.killed (← current).id 11)
  | fuel + 1 =>
      redirections.allM fun redirection => do
        let .mk descriptor mode word := redirection
        let target := (joinAtoms (← expandWord fuel word)).text
        match ← redirect descriptor mode target with
        | .ok () => return true
        | .error message =>
            refuse 2 message
            return false

/-- Runs an action under redirections, which are undone afterwards. -/
def underRedirections (fuel : Nat) (redirections : List Redirection) (action : Run Unit)
    : Run Unit := do
  match fuel with
  | 0 => throw (.killed (← current).id 11)
  | fuel + 1 =>
      let outer ← current
      if ← openAll fuel redirections then
        let outcome ← observe action
        let reads := redirections.any fun (.mk descriptor _ _) => descriptor = 0
        change fun p =>
          { p with channels := outer.channels, input := if reads then outer.input else p.input }
        proceed outcome
      else change fun p => { p with channels := outer.channels, input := outer.input }

/-- Runs a native program. The answer is the signal that ended it. -/
def runNative (fuel : Nat) (call : NativeCall) : Run (Option Nat) := do
  match fuel with
  | 0 => throw (.killed (← current).id 11)
  | fuel + 1 =>
      match call.program with
      | "dash" =>
          let start := ShellStart.ofArgs { words := [] } call.args
          let options (action : Run Unit) : Run Unit := do
            start.options.forM fun option => configure [option]
            let outcome ← observe action
            match outcome, (← current).atExit with
            | .ok (), some last | .error .exit, some last =>
                let status := (← current).status
                runText fuel last.toList
                setStatus status
            | _, _ => proceed outcome
          match start.runsText, start.words with
          | true, [] =>
              emit 2 (Text.toUtf8 (call.called ++ ": 0: -c requires an argument\n"))
              setStatus 2
              return none
          | true, text :: more =>
              let process ← spawn (more.headD call.called) (more.drop 1)
              inProcess process (options (runText fuel text.toList))
          | false, [] =>
              let process ← spawn call.called []
              let text := Text.ofUtf8Lossy process.input
              inProcess { process with input := [] } (options (runText fuel text.toList))
          | false, path :: args =>
              match (← files).fileSystem.bytes ⟨path⟩ with
              | .ok bytes =>
                  let process ← spawn path args
                  inProcess process (options (runText fuel (Text.ofUtf8Lossy bytes).toList))
              | .error error =>
                  let reason := if error = .notFound then "No such file" else fileComplaint error
                  let complaint := "cannot open " ++ path ++ ": " ++ reason
                  emit 2 (Text.toUtf8 (call.called ++ ": 0: " ++ complaint ++ "\n"))
                  setStatus 2
                  return none
      | "env" =>
          let given := call.args.filter (· ≠ "-i")
          let words := given.dropWhile (·.toList.contains '=')
          match words with
          | [] =>
              let p ← current
              let shown := p.store.filter fun v => p.exported.contains v.1
              emit 1 (Text.toUtf8 (String.join (shown.map fun v => v.1 ++ "=" ++ v.2 ++ "\n")))
              setStatus 0
              return none
          | name :: args =>
              let changed := given.takeWhile (·.toList.contains '=')
              let outer ← current
              let process := if given = call.args then outer else { outer with exported := [] }
              inProcess process do
                assignAll changed
                change fun p => { p with exported := changed.map (assignment · |>.1) ++ p.exported }
                let _ ← runProgram fuel "" name args
      | name =>
          match tools.lookup name with
          | some tool => callTool tool name false call.args
          | none => setStatus 0
          return none

/-- Runs the text of a script. -/
def runText (fuel : Nat) (text : List Char) : Run Unit := do
  match fuel with
  | 0 => throw (.killed (← current).id 11)
  | fuel + 1 =>
      let (commands, broken) := parse text
      commands.forM (execute fuel false)
      match broken with
      | none => return
      | some (error, line) =>
          change fun p => { p with line }
          abort error.message

/-- Runs a program by its name, for a command that messages name before it. The answer is the signal
that ended it.
-/
def runProgram (fuel : Nat) (caller name : String) (args : List String) : Run (Option Nat) := do
  match fuel with
  | 0 => throw (.killed (← current).id 11)
  | fuel + 1 =>
      let disk ← files
      let call := (programPath? disk name).bind fun path => nativeCall disk 4 path name args
      pass startTime
      match call with
      | .ok call => runNative fuel call
      | .error .notExecutable => runNative fuel ⟨"dash", name, name :: args⟩
      | .error .notFound | .error .notADirectory =>
          refuse 127 (caller ++ name ++ ": not found")
          return none
      | .error error =>
          refuse 126 (caller ++ name ++ ": " ++ fileComplaint error)
          return none

/-- Runs a command by its name. `tested` says that its status is looked at. -/
def runNamed (fuel : Nat) (tested : Bool) (name : String) (args : List String) (asFunction : Bool)
    : Run Unit := do
  match fuel with
  | 0 => throw (.killed (← current).id 11)
  | fuel + 1 =>
      let p ← current
      match if asFunction then p.functions.lookup name else none with
      | some body =>
          change fun p => { p with args, shadowed := [] }
          let outcome ← observe (execute fuel tested body)
          let after ← current
          let restored := after.shadowed.foldl (fun q v => q.restore v.1 v.2) after
          change fun _ => { restored with args := p.args, shadowed := p.shadowed }
          match outcome with
          | .error .back => return
          | outcome => proceed outcome
      | none =>
          match name, args with
          | "eval", args => runText fuel (" ".intercalate args).toList
          | ".", path :: _ =>
              match (← files).fileSystem.bytes ⟨path⟩ with
              | .ok bytes => runText fuel (Text.ofUtf8Lossy bytes).toList
              | .error _ => abort (".: cannot open " ++ path ++ ": No such file")
          | "command", "-v" :: name :: _ =>
              let known := builtins.any (·.1 == name) || p.functions.any (·.1 == name)
              let disk ← files
              match if known then Except.ok name else programPath? disk name with
              | .ok path =>
                  emit 1 (Text.toUtf8 (path ++ "\n"))
                  setStatus 0
              | .error _ => setStatus 127
          | "command", name :: args => runNamed fuel tested name args false
          | "type", name :: _ =>
              let show_ (status : Nat) (text : String) : Run Unit := do
                emit 1 (Text.toUtf8 (name ++ text ++ "\n"))
                setStatus status
              if reservedWords.contains name then show_ 0 " is a shell keyword"
              else if p.functions.any (·.1 == name) then show_ 0 " is a shell function"
              else if builtins.any (·.1 == name) then show_ 0 " is a shell builtin"
              else
                match programPath? (← files) name with
                | .ok path => show_ 0 (" is " ++ path)
                | .error _ => show_ 127 ": not found"
          | _, _ =>
              match builtins.lookup name with
              | some builtin => builtin args
              | none =>
                  match ← runProgram fuel "" name args with
                  | some signal => emit 2 (Text.toUtf8 (signalReport signal))
                  | none => return

/-- Runs the stages of a pipeline, of which each reads what the one before it prints. -/
def runStages (fuel : Nat) (stages : List Command) : Run Unit := do
  match fuel with
  | 0 => throw (.killed (← current).id 11)
  | fuel + 1 =>
      let start := (← get).time
      let last := stages.length - 1
      let _ ← stages.zipIdx.foldlM (fun (state : Option (List UInt8) × Nat) stage => do
        let (input, finish) := state
        let id ← fresh
        modify fun s => { s with time := start }
        inSubshell do
          change fun p => { p with input := input.getD p.input }
          if stage.2 < last then change (·.withChannel 1 (.pipe id))
          execute fuel true stage.1
        let output ← gather id
        modify fun s => { s with time := max s.time finish }
        return (some output, (← get).time)) (none, start)

/-- Runs a command. `tested` says that its status is looked at. -/
def execute (fuel : Nat) (tested : Bool) (command : Command) : Run Unit := do
  match fuel with
  | 0 => throw (.killed (← current).id 11)
  | fuel + 1 =>
      match command with
      | .simple line assignments words redirections =>
          change fun p => { p with line }
          pass commandTime
          let fields ← expandFields fuel words
          let outer ← current
          let values ← assignments.mapM fun (name, word) => do
            let value := (joinAtoms (← expandWord fuel word)).text
            change (·.withVariable name value)
            return name
          match fields with
          | [] =>
              let kept := (assignments.map Prod.snd ++ words).any Word.runsCommands
              if !kept then setStatus 0
              underRedirections fuel redirections (pure ())
          | "exec" :: words =>
              if ← openAll fuel redirections then
                match words with
                | [] => setStatus 0
                | name :: args =>
                    change fun p => { p with exported := values ++ p.exported }
                    match ← runProgram fuel "exec: " name args with
                    | some signal => throw (.killed outer.id signal)
                    | none => throw .exit
          | name :: args =>
              change fun p => { p with exported := values ++ p.exported }
              underRedirections fuel redirections (runNamed fuel tested name args true)
              if !values.isEmpty then
                change fun p =>
                  let undo (q : Process) (name : String) := q.restore name (outer.valueOf? name)
                  { values.foldl undo p with exported := outer.exported }
          checkFailure tested
      | .pipeline negated stages =>
          runStages fuel stages
          if negated then setStatus (if (← current).status = 0 then 1 else 0)
          else checkFailure tested
      | .both left right =>
          execute fuel true left
          if (← current).status = 0 then execute fuel tested right
      | .either left right =>
          execute fuel true left
          if (← current).status ≠ 0 then execute fuel tested right
      | .sequence commands => commands.forM (execute fuel tested)
      | .redirected body redirections =>
          underRedirections fuel redirections (execute fuel tested body)
      | .subshell body =>
          inSubshell (execute fuel tested body)
          checkFailure tested
      | .branch condition yes no =>
          execute fuel true condition
          if (← current).status = 0 then execute fuel tested yes
          else
            setStatus 0
            execute fuel tested no
      | .loop goal condition body =>
          let s ← get
          iterate ((s.deadline - s.time) / commandTime + 1) 0 fun status => do
            pass commandTime
            execute fuel true condition
            if ((← current).status == 0) == goal then
              if ← loopBody (execute fuel tested body) then return some (← current).status
              return none
            setStatus status
            return none
      | .each name words body =>
          let values ← match words with
            | some words => expandFields fuel words
            | none => pure (← current).args
          setStatus 0
          values |> forEachValue fun value => do
            change (·.withVariable name value)
            loopBody (execute fuel tested body)
      | .choose word branches =>
          let text := (joinAtoms (← expandWord fuel word)).text
          let branch ← branches.findM? fun branch =>
            branch.1.anyM fun pattern => do
              return (joinAtoms (← expandWord fuel pattern)).accepts text.toList
          setStatus 0
          match branch with
          | some (_, body) => execute fuel tested body
          | none => return
      | .define name body =>
          change fun p => { p with functions := (name, body) :: p.functions, status := 0 }
      | .background command =>
          let outer ← get
          let id ← fresh
          let (body, redirections) : Command × List Redirection := match command with
            | .simple line assignments words redirections =>
                (.simple line assignments words [], redirections)
            | .redirected body redirections => (body, redirections)
            | command => (command, [])
          change fun p => { p with input := [] }
          let opened ← openAll fuel redirections
          let held := (← current).channels.map Prod.snd
          let outcome ← observe (if opened then execute fuel false body else pure ())
          let s ← get
          let finish := match outcome with
            | .error .late => s.deadline
            | _ => s.time
          set { s with
            time := outer.time
            process := { outer.process with status := 0 }
            jobs := ⟨id, finish, s.process.status, held⟩ :: s.jobs }

end

/-- What a run of a program leaves behind. -/
structure RunResult where
  /-- The exit code, unless a signal ended the program. -/
  code : Option Nat
  out : List UInt8
  err : List UInt8
  /-- When the program had ended and its outputs were closed, unless that was too late. -/
  finish : Option Nat
  root : FileNode

/-- How deep commands may be nested. -/
def maxDepth : Nat := 2000

/-- Runs a native program from one time up to another. -/
def run (disk : Disk) (start deadline : Nat) (call : NativeCall) : RunResult :=
  let process : Process :=
    { id := 2, name := call.called, args := [], store := [], exported := [], functions := []
      channels := [(1, .out), (2, .err)], input := [], directory := disk.working, status := 0
      line := 0, loops := 0, shadowed := [], atExit := none, stopsOnFailure := false
      refusesUnset := false }
  let state : RunState :=
    { root := disk.root, time := start, deadline, prints := [], jobs := [], next := 3, process }
  let whole : Run (Option Nat) := do
    pass startTime
    runNative maxDepth call
  let (outcome, after) := whole state
  let holders := after.jobs.filter fun job => job.held.contains .out || job.held.contains .err
  let finish := (holders.map Job.finish).foldl max after.time
  let late := match outcome with
    | .error .late => true
    | _ => deadline ≤ finish
  { code := match outcome with
      | .ok none => some after.process.status
      | .ok (some _) => none
      | .error _ => some after.process.status
    out := printed after.prints .out
    err := printed after.prints .err
    finish := if late then none else some finish
    root := after.root }

end DueTasks.Script
