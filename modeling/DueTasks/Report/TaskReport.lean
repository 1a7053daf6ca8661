import DueTasks.Report.Format
import DueTasks.Task.Registry

/-! Reports on tasks: when they are due, or why that is unknown, and what they are called once
they are done.
-/

namespace DueTasks

/-- The outcome of evaluating one task. -/
structure TaskReport where
  entry : TaskEntry
  outcome : Except TaskError Evaluation

namespace TaskReport

/-- When a task is due, in one word. -/
def dueText (evaluation : Evaluation) : String :=
  if evaluation.notes.isWaiting then "waiting"
  else if evaluation.date = Date.last then "never"
  else evaluation.date.text

/-- The time, repeat and priority of a task, each behind a space. -/
def flagsText (notes : Notes) : String :=
  let time := (notes.time.map fun time => " " ++ time.minuteText).getD ""
  let repetition := if notes.isRepeating then " repeat" else ""
  let priority := (notes.priority.map fun priority => " #" ++ toString priority.toNat).getD ""
  time ++ repetition ++ priority

/-- The report as a line, its parts separated by tabs. -/
def line (report : TaskReport) : String :=
  match report.outcome with
  | .ok evaluation =>
      dueText evaluation ++ flagsText evaluation.notes ++ "\t" ++ report.entry.name
  | .error error => "error\t" ++ report.entry.name ++ "\t" ++ error.message

/-- The value of a task as a structured value. -/
def evaluationDatum (evaluation : Evaluation) : Datum :=
  let notes := evaluation.notes
  .record [
    ("date", .text evaluation.date.text),
    ("time", .optionalText (notes.time.map ClockTime.secondText)),
    ("file_ending", .text evaluation.ending),
    ("is_repeating", .bool notes.isRepeating),
    ("is_waiting", .bool notes.isWaiting),
    ("priority", .optionalInt (notes.priority.map fun priority => priority.toNat)),
    ("uses_expression", .bool notes.usesExpression),
    ("uses_operators", .bool notes.usesOperators),
    ("uses_reference", .bool notes.usesReference),
    ("can_repeat", .bool evaluation.canRepeat)
  ]

/-- The report as a structured value. -/
def datum (report : TaskReport) : Datum :=
  let outcome := match report.outcome with
    | .ok evaluation => ("task", evaluationDatum evaluation)
    | .error error => ("error", .text error.message)
  .record [("name", .text report.entry.name), ("path", .text report.entry.path.text), outcome]

def toRecord (report : TaskReport) : Record :=
  ⟨report.line, report.datum⟩

/-- Whether the task is due by a date, or its date is unknown. -/
def isDue (report : TaskReport) (now : Date) : Bool :=
  match report.outcome with
  | .ok evaluation => decide (evaluation.date ≤ now)
  | .error _ => true

end TaskReport

/-- The name of a task once it is done. -/
structure DoneReport where
  name : String
  doneName : String

def DoneReport.toRecord (report : DoneReport) : Record :=
  ⟨report.doneName,
    .record [("name", .text report.name), ("done_name", .text report.doneName)]⟩

/-- Why there is no done name to report. -/
inductive DoneError where
  | noTask (name : String)
  | task (error : TaskError)
deriving DecidableEq

/-- The error in words. -/
def DoneError.message : DoneError → String
  | noTask name => "no task named '" ++ name ++ "'"
  | task error => error.message

namespace Registry

variable {σ : Type} (r : Registry σ)

/-- A report on every task, or with `dueOnly` on those that are due or have an error. -/
def reports (dueOnly : Bool) : StateM (Session σ) (List TaskReport) := do
  let outcomes ← r.evaluateAll
  let all := outcomes.map fun outcome => TaskReport.mk outcome.1 outcome.2
  return all.filter fun report => !dueOnly || report.isDue r.environment.now

/-- The done name of the first task with a given file name. -/
def doneReport (name : String) : Asking (Session σ) DoneError DoneReport :=
  match r.entries.find? (·.name == name) with
  | none => throw (.noTask name)
  | some entry => do
      let doneName ← (r.doneName entry.path).mapError .task
      return ⟨entry.name, doneName⟩

end Registry

end DueTasks
