import DueTasks.Task.Evaluation

/-! The name that a task is given once it is done.
Only what a repeat changes is written anew: the text of a repeating date becomes the current date
plus the period, and a repeating helper call becomes the line that the helper prints for the
period. All other text is copied as it stands.
-/

namespace DueTasks.Trigger

variable {σ : Type} (t : Trigger) (context : Context σ) (evaluation : Evaluation)

/-- Whether a repeating date gets a new date. It keeps its own while the operators that the task
uses leave it undue, and when the repeat is forced without a period.
-/
def moves (now : Date) (repetition : Repeat) : Bool :=
  let pending := evaluation.notes.usesOperators && decide (now < evaluation.date)
  let pinned := repetition.forced && repetition.period.isZero
  !pending && !pinned

/-- The characters of a stretch of the name. -/
def copy (span : Span) : List Char :=
  Text.slice t.source.toList span

/-- The text of a date once the task is done. -/
def doneDate (token : Span) (suffix : Suffix) : List Char :=
  match suffix.repetition with
  | none => t.copy ⟨token.start, suffix.span.stop⟩
  | some repetition =>
      if moves evaluation context.now repetition then
        (repetition.period.addTo context.now).chars ++ t.copy ⟨token.stop, suffix.span.stop⟩
      else t.copy ⟨token.start, suffix.span.stop⟩

/-- The text of a helper call once the task is done. It runs with the arguments recorded when it was
evaluated, now with the period of its repeat.
-/
def doneCall (token : Span) (suffix : Suffix) : Asking σ TaskError (List Char) :=
  let whole : Span := ⟨token.start, suffix.span.stop⟩
  match suffix.repetition, evaluation.notes.calls.lookup token.start with
  | some repetition, some args => do
      let line ← (context.runHelper (HelperArg.expandAll args (some repetition.period))).mapError
        (.helper (t.text whole))
      return line.toList ++ t.copy ⟨token.stop, suffix.span.stop⟩
  | _, _ => pure (t.copy whole)

/-- The text of a node once the task is done. -/
def doneNode (node : Node) : Asking σ TaskError (List Char) :=
  match node with
  | .date _ token suffix => pure (t.doneDate context evaluation token suffix)
  | .call name _ token suffix =>
      if Callee.ofName name = .helper then t.doneCall context evaluation token suffix
      else pure (t.copy ⟨token.start, suffix.span.stop⟩)
  | .both left right => do
      let first ← doneNode left
      let second ← doneNode right
      return first ++ t.copy ⟨left.span.stop, right.span.start⟩ ++ second
  | .either left right => do
      let first ← doneNode left
      let second ← doneNode right
      return first ++ t.copy ⟨left.span.stop, right.span.start⟩ ++ second
  | .group inner span => do
      let text ← doneNode inner
      return t.copy ⟨span.start, inner.span.start⟩ ++ text ++ t.copy ⟨inner.span.stop, span.stop⟩

/-- The name of a task once it is done, given its evaluation. A task that does not repeat keeps its
name.
-/
def doneName : Asking σ TaskError String :=
  if !t.hasRepeat then pure t.source
  else if !evaluation.canRepeat then throw (.semantic t.source .cannotRepeat)
  else do
    let text ← t.doneNode context evaluation t.root
    return String.ofList (text ++ t.copy t.ending)

end DueTasks.Trigger
