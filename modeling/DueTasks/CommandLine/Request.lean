import DueTasks.Calendar.FullDate
import DueTasks.Report.Format
import DueTasks.Settings.Basic
import DueTasks.Text.Decimal

/-! What a command line can ask for, and how its parameters are spelled. -/

namespace DueTasks

/-- What a command line asks for. -/
structure Request where
  /-- The directory of the tasks. -/
  directory : Path := ⟨""⟩
  /-- Whether the directories below it count as well. -/
  recurse : Bool := false
  /-- The output format. -/
  format : Format := .plain
  /-- Whether JSON is indented. -/
  pretty : Bool := false
  /-- The settings. -/
  settings : SettingsChoice := {}
  /-- The date that counts as today. -/
  now : Option Date := none
  /-- The file name of the task whose done name is wanted. -/
  done : Option String := none
  /-- Whether tasks that are not due are left out. -/
  dueOnly : Bool := false
deriving Inhabited

/-- Why a command line holds no request. -/
inductive UsageError where
  /-- The usage is asked for instead. -/
  | help
  | unknownArgument
  /-- A parameter is given twice. -/
  | repeated
  /-- A parameter has no value, or an empty one where that means nothing. -/
  | missingValue
  /-- A switch has a value. -/
  | unneededValue
  | invalidValue
  /-- There is no directory. -/
  | missingDirectory
deriving DecidableEq

/-- The error in words. -/
def UsageError.message : UsageError → String
  | .help => "the usage is asked for"
  | .unknownArgument => "unexpected argument"
  | .repeated => "an argument cannot be used multiple times"
  | .missingValue => "a value is required for an argument"
  | .unneededValue => "unexpected value for an argument"
  | .invalidValue => "invalid value for an argument"
  | .missingDirectory => "the task directory was not provided"

inductive Parameter where
  | directory
  | format
  | configFile
  | jailRoot
  | helpers
  | timeout
  | now
  | done
  | pretty
  | recurse
  | dueOnly
deriving DecidableEq

namespace Parameter

/-- Whether a parameter is turned on by its name alone. -/
def isSwitch : Parameter → Bool
  | pretty | recurse | dueOnly => true
  | _ => false

def ofLongName? : String → Option Parameter
  | "output" => some format
  | "config" => some configFile
  | "jail-root" => some jailRoot
  | "bin-dir" => some helpers
  | "timeout" => some timeout
  | "now" => some now
  | "done" => some done
  | "pretty" => some pretty
  | "recurse" => some recurse
  | "due-only" => some dueOnly
  | _ => none

def ofShortName? : Char → Option Parameter
  | 'o' => some format
  | 'c' => some configFile
  | _ => none

end Parameter

/-- The path that a value gives. It must not be empty. -/
def pathValue (value : String) : Except UsageError Path :=
  if value.isEmpty then .error .missingValue else .ok ⟨value⟩

/-- The number that a value gives, if it fits into a word. -/
def wordValue (value : String) : Except UsageError UInt64 :=
  match Text.readNatural? value.toList with
  | some number => if number < UInt64.size then .ok (.ofNat number) else .error .invalidValue
  | none => .error .invalidValue

/-- The request with the value of a parameter. Switches are turned on whatever the value is. -/
def Request.set (request : Request) (parameter : Parameter) (value : String)
    : Except UsageError Request := do
  let settings := request.settings
  match parameter with
  | .directory => return { request with directory := ← pathValue value }
  | .format =>
      match Format.ofName? value with
      | some format => return { request with format }
      | none => .error .invalidValue
  | .configFile =>
      return { request with settings := { settings with file := some (← pathValue value) } }
  | .jailRoot =>
      return { request with settings := { settings with jailRoot := some (← pathValue value) } }
  | .helpers =>
      return { request with settings := { settings with helpers := some (← pathValue value) } }
  | .timeout =>
      let seconds ← wordValue value
      return { request with settings := { settings with timeoutSeconds := some seconds } }
  | .now =>
      match Date.ofFullText? value with
      | some now => return { request with now := some now }
      | none => .error .invalidValue
  | .done => return { request with done := some value }
  | .pretty => return { request with pretty := true }
  | .recurse => return { request with recurse := true }
  | .dueOnly => return { request with dueOnly := true }

end DueTasks
