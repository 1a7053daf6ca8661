import DueTasks.Calendar.DateReader
import DueTasks.Task.Context

/-! The value of a trigger: its date and what its annotations say.
A trigger is evaluated from left to right and inside out, and the first failure ends the evaluation.
Only annotations and operators outside of arguments count for the task as a whole.
-/

namespace DueTasks

/-- An argument of a helper or a builtin, evaluated. -/
inductive HelperArg where
  /-- A text. -/
  | word (value : String)
  /-- The place of `arg()`, where the period of a repeat goes as one word. -/
  | period
  /-- The place of `args()`, where the period of a repeat goes as several words. -/
  | periodWords
deriving DecidableEq

/-- The words that an argument stands for. Places for a period are left out where there is none. -/
def HelperArg.expand (period : Option Period) : HelperArg → List String
  | .word value => [value]
  | .period => (period.map Period.text).toList
  | .periodWords => (period.map Period.keywords).getD []

/-- The command line that arguments stand for. -/
def HelperArg.expandAll (args : List HelperArg) (period : Option Period) : List String :=
  args.flatMap (HelperArg.expand period)

/-- The arguments of calls, by the offset at which the call starts, in ascending order. -/
abbrev CallArgs := List (Nat × List HelperArg)

namespace CallArgs

/-- Records the arguments of a call, in place of those recorded for the same offset. -/
def insert (offset : Nat) (args : List HelperArg) : CallArgs → CallArgs
  | [] => [(offset, args)]
  | entry :: rest =>
      if offset < entry.1 then (offset, args) :: entry :: rest
      else if offset = entry.1 then (offset, args) :: rest
      else entry :: insert offset args rest

/-- The records of both, where later ones replace earlier ones. -/
def merge (earlier later : CallArgs) : CallArgs :=
  later.foldl (fun calls entry => insert entry.1 entry.2 calls) earlier

end CallArgs

/-- What is noted about a trigger while it is evaluated. -/
structure Notes where
  isRepeating : Bool := false
  isWaiting : Bool := false
  usesExpression : Bool := false
  usesOperators : Bool := false
  usesReference : Bool := false
  priority : Option UInt32 := none
  time : Option ClockTime := none
  calls : CallArgs := []
deriving DecidableEq

/-- The notes on two parts together; a priority or a time of the later part replaces that of the
earlier one.
-/
def Notes.append (earlier later : Notes) : Notes where
  isRepeating := earlier.isRepeating || later.isRepeating
  isWaiting := earlier.isWaiting || later.isWaiting
  usesExpression := earlier.usesExpression || later.usesExpression
  usesOperators := earlier.usesOperators || later.usesOperators
  usesReference := earlier.usesReference || later.usesReference
  priority := later.priority.or earlier.priority
  time := later.time.or earlier.time
  calls := earlier.calls.merge later.calls

instance : Append Notes := ⟨Notes.append⟩

/-- A value with the notes taken on the way to it. -/
structure Noted (α : Type) where
  value : α
  notes : Notes

structure Evaluation where
  date : Date
  ending : String
  /-- Whether the task may be renamed to a repeat at all: a task with an id may not. -/
  canRepeat : Bool
  notes : Notes
deriving DecidableEq

/-- What a call can stand for. -/
inductive Callee where
  | now
  | id
  | reference
  | waiting
  | helper
  | builtin
  | period
  | periodWords
  | line
  | target
  | task
  | unknown
deriving DecidableEq

def Callee.ofName : String → Callee
  | "now" => now
  | "id" => id
  | "ref" => reference
  | "waiting" => waiting
  | "bin" => helper
  | "builtin" => builtin
  | "arg" => period
  | "args" => periodWords
  | "line" => line
  | "target" => target
  | "task" => task
  | _ => unknown

/-- Where a node stands in its trigger. -/
inductive Position where
  /-- It is the whole trigger, parentheses aside. -/
  | root
  /-- It is an operand. -/
  | operand
  /-- It is an argument or a part of one. -/
  | argument
deriving DecidableEq

/-- The position of the operands of a node. -/
def Position.ofOperands : Position → Position
  | argument => argument
  | _ => operand

def Notes.ofOperator (position : Position) : Notes :=
  { usesOperators := position != .argument }

/-- The notes on annotations. -/
def Notes.ofSuffix (suffix : Suffix) (position : Position) : Notes :=
  if position = .argument then {}
  else
    { isRepeating := suffix.repetition.isSome
      priority := suffix.priority
      time := suffix.time }

/-- A date with the offset of its annotations added. -/
def Suffix.applyTo (suffix : Suffix) (date : Date) : Date :=
  match suffix.effective with
  | none => date
  | some period => period.addTo date

namespace Trigger

variable {σ : Type} (t : Trigger) (context : Context σ)

/-- An error of a node, quoting its text. -/
def semanticError (node : Node) (error : SemanticError) : TaskError :=
  .semantic (t.text node.span) error

/-- An error about files of a node, quoting its text. -/
def fileError (node : Node) (error : FileError) : TaskError :=
  t.semanticError node (.file error)

/-- An error of a helper that a node runs, quoting the node's text. -/
def helperError (node : Node) (error : HelperError) : TaskError :=
  .helper (t.text node.span) error

/-- The error of a reference, quoting its text, or that of the task it refers to. -/
def referenceError (node : Node) : ReferenceError → TaskError
  | .reference error => t.semanticError node error
  | .target error => error

/-- Fails unless a call has no arguments. -/
def expectNone (node : Node) (name : String) (args : List Argument) : Asking σ TaskError Unit :=
  match args with
  | [] => pure ()
  | _ => throw (t.semanticError node (.argumentCount name "0" args.length))

/-- The argument of a call that has one, taken literally. -/
def expectLiteral (node : Node) (name : String) (args : List Argument)
    : Asking σ TaskError String :=
  match args with
  | [arg] => pure (t.literal arg)
  | _ => throw (t.semanticError node (.argumentCount name "1" args.length))

/-- The first argument of a helper or builtin call, which is a word and names what is called. -/
def expectWord (node : Node) (name : String) (arg : Argument) : Asking σ TaskError String :=
  match arg.word? with
  | none => throw (t.semanticError node (.expectedLiteral name 0))
  | some word => pure word

/-- One of the lines of the task's own file, counted from 1. -/
def ownLine (node : Node) (requested : String) : Asking σ TaskError String := do
  let lines ← context.ownLines.mapError (t.fileError node)
  let found := do
    let number ← Text.readNatural? requested.toList
    if number = 0 then none else lines[number - 1]?
  match found with
  | some line => pure line
  | none => throw (t.semanticError node (.lineOutOfRange requested lines.length))

/-- The value of an argument that makes sense only as such: a place for a period or something about
the task's own file.
-/
def placeholder? (node : Node) : Option (Asking σ TaskError HelperArg) :=
  match node with
  | .call name args _ _ =>
      match Callee.ofName name with
      | .period => some do
          t.expectNone node name args
          return .period
      | .periodWords => some do
          t.expectNone node name args
          return .periodWords
      | .line => some do
          let requested ← t.expectLiteral node name args
          return .word (← t.ownLine context node requested)
      | .target => some do
          t.expectNone node name args
          return .word (← context.ownTarget.mapError (t.fileError node)).text
      | .task => some do
          t.expectNone node name args
          return .word (← context.ownPath.mapError (t.fileError node)).text
      | _ => none
  | _ => none

/-- Fails if an argument of a builtin is a place for a period: builtins do not repeat. -/
def expectNoPlace (node : Node) (callee : Callee) (arg : Argument) (value : HelperArg)
    : Asking σ TaskError Unit :=
  match callee, value with
  | .builtin, .period => throw (misplaced)
  | .builtin, .periodWords => throw (misplaced)
  | _, _ => pure ()
where
  /-- The error of a place for a period among the arguments of a builtin. -/
  misplaced : TaskError :=
    t.semanticError node (.misplacedPlaceholder (t.text arg.span))

/-- Runs a helper and reads the date that it prints. -/
def helperDate (node : Node) (program : String) (args : List HelperArg)
    : Asking σ TaskError Date := do
  let line ← (context.runHelper (HelperArg.expandAll args none)).mapError (t.helperError node)
  match Date.ofText? line with
  | some date => pure date
  | none => throw (t.helperError node (.notADate program line))

mutual

def evaluateNode (node : Node) (position : Position) : Asking σ TaskError (Noted Date) :=
  match node with
  | .date value _ suffix => pure ⟨suffix.applyTo value, .ofSuffix suffix position⟩
  | .call name args token suffix => do
      let call ← evaluateCall (.call name args token suffix) name token position args
      return ⟨suffix.applyTo call.value,
        { usesExpression := true } ++ call.notes ++ .ofSuffix suffix position⟩
  | .both left right => do
      let first ← evaluateNode left position.ofOperands
      let second ← evaluateNode right position.ofOperands
      return ⟨max first.value second.value,
        .ofOperator position ++ first.notes ++ second.notes⟩
  | .either left right => do
      let first ← evaluateNode left position.ofOperands
      let second ← evaluateNode right position.ofOperands
      return ⟨min first.value second.value,
        .ofOperator position ++ first.notes ++ second.notes⟩
  | .group inner _ => evaluateNode inner position

/-- The date of a call without its annotations. -/
def evaluateCall (node : Node) (name : String) (token : Span) (position : Position)
    (args : List Argument) : Asking σ TaskError (Noted Date) :=
  match Callee.ofName name, args with
  | .now, args => do
      t.expectNone node name args
      let date ← context.today.mapError Empty.elim
      return ⟨date, {}⟩
  | .id, args => do
      let _ ← t.expectLiteral node name args
      return ⟨.first, {}⟩
  | .reference, args => do
      let id ← t.expectLiteral node name args
      let date ← (context.resolve id).mapError (t.referenceError node)
      return ⟨date, { usesReference := true }⟩
  | .waiting, args => do
      t.expectNone node name args
      return ⟨.last, { isWaiting := position == .root }⟩
  | .helper, arg :: args => do
      let program ← t.expectWord node name arg
      let path ← (context.findHelper program).mapError (t.fileError node)
      let rest ← evaluateArguments node .helper args
      let line := .word path.text :: rest.value
      let date ← t.helperDate context node program line
      return ⟨date, rest.notes ++ { calls := [(token.start, line)] }⟩
  | .builtin, arg :: args => do
      let builtin ← t.expectWord node name arg
      let rest ← evaluateArguments node .builtin args
      let words := HelperArg.expandAll rest.value none
      let date ← (context.callBuiltin builtin words).mapError (t.semanticError node)
      return ⟨date, rest.notes ++ { calls := [(token.start, rest.value)] }⟩
  | .helper, [] => throw (t.semanticError node (.argumentCount name "at least 1" 0))
  | .builtin, [] => throw (t.semanticError node (.argumentCount name "at least 1" 0))
  | _, _ => throw (t.semanticError node (.illegalExpression name))

/-- The values of the arguments of a helper or builtin call. -/
def evaluateArguments (node : Node) (callee : Callee) (args : List Argument)
    : Asking σ TaskError (Noted (List HelperArg)) :=
  match args with
  | [] => pure ⟨[], {}⟩
  | arg :: args => do
      let first ← evaluateArgument arg
      t.expectNoPlace node callee arg first.value
      let rest ← evaluateArguments node callee args
      return ⟨first.value :: rest.value, first.notes ++ rest.notes⟩

/-- The value of an argument. A trigger stands for its date in text. -/
def evaluateArgument (arg : Argument) : Asking σ TaskError (Noted HelperArg) :=
  match arg with
  | .quoted value _ => pure ⟨.word value, {}⟩
  | .bare value _ => pure ⟨.word value, {}⟩
  | .trigger node =>
      match t.placeholder? context node with
      | some action => do return ⟨← action, {}⟩
      | none => do
          let date ← evaluateNode node .argument
          return ⟨.word date.value.text, date.notes⟩

end

def evaluate : Asking σ TaskError Evaluation := do
  let result ← t.evaluateNode context t.root .root
  return {
    date := result.value
    ending := t.endingText
    canRepeat := t.declaredIds.isEmpty
    notes := result.notes
  }

end Trigger

end DueTasks
