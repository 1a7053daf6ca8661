import DueTasks.CommandLine.Request

/-! Reading command lines.
A parameter is given as `--name=value`, as `--name` with the value in the next word, or by the
letter of a short name, with the value behind it or in the next word. Words that begin with a
hyphen are never the next word's value. Behind the word `--`, every word is a directory.

A value in a word of its own is looked at when the next parameter begins or the words end. So a
word with an unknown name is an error that comes before those of the value.
-/

namespace DueTasks

inductive CommandWord where
  /-- The word `--`. -/
  | separator
  /-- The name of a parameter, with the value attached to it. -/
  | named (parameter : Parameter) (attached : Option String)
  /-- A request for help, with the value attached to it. -/
  | help (attached : Option String)
  /-- A name that nothing has. -/
  | unknown
  /-- Anything else. -/
  | plain

namespace CommandWord

/-- The word behind two hyphens: a long name, and a value behind an equals sign. -/
def ofLong (chars : List Char) : CommandWord :=
  let attached := match chars.dropWhile (· != '=') with
    | _ :: value => some (String.ofList value)
    | [] => none
  match String.ofList (chars.takeWhile (· != '=')) with
  | "help" => help attached
  | name =>
      match Parameter.ofLongName? name with
      | some parameter => named parameter attached
      | none => unknown

/-- The word behind one hyphen: a short name, and a value with or without an equals sign before
it.
-/
def ofShort (letter : Char) (rest : List Char) : CommandWord :=
  let attached := match rest with
    | [] => none
    | '=' :: value => some (String.ofList value)
    | value => some (String.ofList value)
  if letter = 'h' then help none
  else
    match Parameter.ofShortName? letter with
    | some parameter => named parameter attached
    | none => unknown

/-- What a word is. A single hyphen is no name. -/
def ofText (word : String) : CommandWord :=
  match word.toList with
  | ['-', '-'] => separator
  | '-' :: '-' :: chars => ofLong chars
  | '-' :: letter :: rest => ofShort letter rest
  | _ => plain

end CommandWord

/-- A parameter that was named, whose value has not been looked at. -/
structure PendingParameter where
  parameter : Parameter
  value : Option String

/-- A request in the making. -/
structure RequestDraft where
  request : Request
  /-- The parameters whose values the request has. -/
  given : List Parameter

namespace RequestDraft

/-- The draft with a parameter, which must be new and have a value if it needs one. -/
def accept (draft : RequestDraft) (parameter : Parameter) (value : Option String)
    : Except UsageError RequestDraft :=
  if value.isNone && !parameter.isSwitch then .error .missingValue
  else if draft.given.contains parameter then .error .repeated
  else return ⟨← draft.request.set parameter (value.getD ""), parameter :: draft.given⟩

/-- The draft with the pending parameter, if there is one. -/
def settle (draft : RequestDraft) : Option PendingParameter → Except UsageError RequestDraft
  | none => .ok draft
  | some pending => draft.accept pending.parameter pending.value

def finish (draft : RequestDraft) : Except UsageError Request :=
  if draft.given.contains .directory then .ok draft.request else .error .missingDirectory

/-- Reads words. `plain` says that names are no longer looked for, and `placed` that the directory
has been given.
-/
def read (draft : RequestDraft) (pending : Option PendingParameter) (plain placed : Bool)
    : List String → Except UsageError RequestDraft
  | [] => draft.settle pending
  | word :: rest =>
      match if plain then .plain else CommandWord.ofText word with
      | .separator => draft.read pending true placed rest
      | .unknown => .error .unknownArgument
      | .help (some _) => .error .unneededValue
      | .help none => do
          let _ ← draft.settle pending
          .error .help
      | .named parameter attached =>
          if parameter.isSwitch && attached.isSome then .error .unneededValue
          else do
            let settled ← draft.settle pending
            if parameter.isSwitch || attached.isSome then
              (← settled.accept parameter attached).read none false placed rest
            else settled.read (some ⟨parameter, none⟩) false placed rest
      | .plain =>
          match plain, pending with
          | false, some ⟨parameter, none⟩ =>
              draft.read (some ⟨parameter, some word⟩) false placed rest
          | _, _ =>
              if placed then .error .unknownArgument
              else do
                let settled ← draft.settle pending
                settled.read (some ⟨.directory, some word⟩) plain true rest

end RequestDraft

/-- The request that the words of a command line hold. -/
def Request.ofWords (words : List String) : Except UsageError Request := do
  (← RequestDraft.read ⟨{}, []⟩ none false false words).finish

end DueTasks
