import DueTasks.Proofs.Asking
import DueTasks.Task.Evaluation

/-! The steps of an evaluation.
What a trigger does is told by its tree alone: it is a list of steps, each of which asks the context
at most once. Evaluation takes these steps one after the other, and the first one that fails is the
last one that is taken.
-/

namespace DueTasks

-----------------------------------------------------------------------------------------
-- What an evaluation has found so far
-----------------------------------------------------------------------------------------

/-- The dates that no operator and no call has used yet, latest first, and the arguments of the
calls that are not done yet, innermost call first.
-/
structure Values where
  dates : List Date := []
  calls : List (List HelperArg) := []

namespace Values

variable (values : Values)

def addDate (date : Date) : Values :=
  { values with dates := date :: values.dates }

/-- Changes the latest date. -/
def changeDate (change : Date → Date) : Values :=
  { values with dates := values.dates.modifyHead change }

/-- Puts one date in place of the two latest ones. -/
def joinDates (join : Date → Date → Date) : Values :=
  match values.dates with
  | second :: first :: dates => { values with dates := join first second :: dates }
  | _ => values

/-- Begins a call with its first arguments. -/
def openCall (args : List HelperArg) : Values :=
  { values with calls := args :: values.calls }

/-- The arguments of the innermost call. -/
def args : List HelperArg :=
  values.calls.headD []

/-- Adds an argument to the innermost call. -/
def addArg (arg : HelperArg) : Values :=
  { values with calls := values.calls.modifyHead (· ++ [arg]) }

/-- Makes the text of the latest date an argument of the innermost call. -/
def spellDate : Values :=
  match values.dates with
  | date :: dates => addArg ⟨dates, values.calls⟩ (.word date.text)
  | [] => values

/-- Ends the innermost call with its date. -/
def closeCall (date : Date) : Values :=
  ⟨date :: values.dates, values.calls.tail⟩

end Values

-----------------------------------------------------------------------------------------
-- Steps
-----------------------------------------------------------------------------------------

/-- A step of an evaluation. -/
inductive Step where
  /-- A node has this date. -/
  | date (node : Node) (value : Date)
  /-- A node has the current date. -/
  | now (node : Node)
  /-- A node has the date of the task with an id. -/
  | resolve (node : Node) (id : String)
  /-- The helper of a node is looked up, before any other argument of the call. -/
  | find (node : Node) (program : String)
  /-- The helper of a node is run with the arguments of the call. -/
  | run (node : Node) (program : String)
  /-- A builtin gets its arguments next. -/
  | enter
  /-- The builtin of a node is called with its arguments. -/
  | call (node : Node) (builtin : String)
  /-- The annotations of a date or a call are applied. -/
  | suffix (suffix : Suffix)
  /-- Two dates are joined to the later one. -/
  | later
  /-- Two dates are joined to the earlier one. -/
  | sooner
  /-- A value becomes an argument. -/
  | arg (value : HelperArg)
  /-- A date becomes an argument. -/
  | text
  /-- A line of the task's own file becomes an argument. -/
  | line (node : Node) (requested : String)
  /-- The target of the task's own link becomes an argument. -/
  | target (node : Node)
  /-- The path of the task's own file becomes an argument. -/
  | path (node : Node)
  /-- The latest argument of a call is seen to be allowed. -/
  | check (node : Node) (callee : Callee) (arg : Argument)
  /-- A node is ill-formed. -/
  | fail (node : Node) (error : SemanticError)

namespace Trigger

variable {σ : Type} (t : Trigger) (context : Context σ)

/-- What a step does. -/
def perform (step : Step) (values : Values) : Asking σ TaskError Values :=
  match step with
  | .date _ value => pure (values.addDate value)
  | .now _ => values.addDate <$> context.today.mapError Empty.elim
  | .resolve node id =>
      values.addDate <$> (context.resolve id).mapError (t.referenceError node)
  | .find node program =>
      (fun path => values.openCall [.word path.text])
        <$> (context.findHelper program).mapError (t.fileError node)
  | .run node program => values.closeCall <$> t.helperDate context node program values.args
  | .enter => pure (values.openCall [])
  | .call node builtin =>
      values.closeCall
        <$> (context.callBuiltin builtin (HelperArg.expandAll values.args none)).mapError
          (t.semanticError node)
  | .suffix suffix => pure (values.changeDate suffix.applyTo)
  | .later => pure (values.joinDates max)
  | .sooner => pure (values.joinDates min)
  | .arg value => pure (values.addArg value)
  | .text => pure values.spellDate
  | .line node requested =>
      (fun line => values.addArg (.word line)) <$> t.ownLine context node requested
  | .target node =>
      (fun path : Path => values.addArg (.word path.text))
        <$> context.ownTarget.mapError (t.fileError node)
  | .path node =>
      (fun path : Path => values.addArg (.word path.text))
        <$> context.ownPath.mapError (t.fileError node)
  | .check node callee arg =>
      match values.args.getLast? with
      | some value => (fun _ => values) <$> t.expectNoPlace node callee arg value
      | none => pure values
  | .fail node error => throw (t.semanticError node error)

/-- Takes steps one after the other, up to the first one that fails. -/
def performAll (steps : List Step) (values : Values) : Asking σ TaskError Values :=
  steps.foldlM (fun values step => t.perform context step values) values

-----------------------------------------------------------------------------------------
-- The steps of a tree
-----------------------------------------------------------------------------------------

/-- A step, if a call has no arguments. -/
def stepIfNone (node : Node) (name : String) (args : List Argument) (step : Step) : Step :=
  match args with
  | [] => step
  | _ => .fail node (.argumentCount name "0" args.length)

/-- The step for the argument of a call that has one. -/
def stepOfLiteral (node : Node) (name : String) (args : List Argument) (step : String → Step)
    : Step :=
  match args with
  | [arg] => step (t.literal arg)
  | _ => .fail node (.argumentCount name "1" args.length)

/-- The steps for the first argument of a call, if that is a word. -/
def stepsOfWord (node : Node) (name : String) (arg : Argument) (steps : String → List Step)
    : List Step :=
  match arg.word? with
  | some word => steps word
  | none => [.fail node (.expectedLiteral name 0)]

/-- The step of an argument that makes sense only as such. -/
def stepOfPlaceholder? (node : Node) : Option Step :=
  match node with
  | .call name args _ _ =>
      match Callee.ofName name with
      | .period => some (stepIfNone node name args (.arg .period))
      | .periodWords => some (stepIfNone node name args (.arg .periodWords))
      | .line => some (t.stepOfLiteral node name args (.line node))
      | .target => some (stepIfNone node name args (.target node))
      | .task => some (stepIfNone node name args (.path node))
      | _ => none
  | _ => none

mutual

/-- The steps of a node: those of its operands from left to right, then the one that joins them;
those of a call, then its annotations.
-/
def steps : Node → List Step
  | .date value token suffix => [.date (.date value token suffix) value, .suffix suffix]
  | .call name args token suffix =>
      stepsOfCall (.call name args token suffix) name args ++ [.suffix suffix]
  | .both left right => steps left ++ steps right ++ [.later]
  | .either left right => steps left ++ steps right ++ [.sooner]
  | .group inner _ => steps inner

/-- The steps of a call: those of its arguments, then its own one. A helper is looked up before its
arguments.
-/
def stepsOfCall (node : Node) (name : String) (args : List Argument) : List Step :=
  match Callee.ofName name, args with
  | .now, args => [stepIfNone node name args (.now node)]
  | .id, args => [t.stepOfLiteral node name args fun _ => .date node .first]
  | .reference, args => [t.stepOfLiteral node name args (.resolve node)]
  | .waiting, args => [stepIfNone node name args (.date node .last)]
  | .helper, arg :: args =>
      stepsOfWord node name arg fun program =>
        .find node program :: (stepsOfArguments node .helper args ++ [.run node program])
  | .builtin, arg :: args =>
      stepsOfWord node name arg fun builtin =>
        .enter :: (stepsOfArguments node .builtin args ++ [.call node builtin])
  | .helper, [] => [.fail node (.argumentCount name "at least 1" 0)]
  | .builtin, [] => [.fail node (.argumentCount name "at least 1" 0)]
  | _, _ => [.fail node (.illegalExpression name)]

/-- The steps of the arguments of a call, from left to right. -/
def stepsOfArguments (node : Node) (callee : Callee) : List Argument → List Step
  | [] => []
  | arg :: args =>
      stepsOfArgument arg ++ .check node callee arg :: stepsOfArguments node callee args

/-- The steps of an argument. -/
def stepsOfArgument : Argument → List Step
  | .quoted value _ => [.arg (.word value)]
  | .bare value _ => [.arg (.word value)]
  | .trigger node =>
      match t.stepOfPlaceholder? node with
      | some step => [step]
      | none => steps node ++ [.text]

end

-----------------------------------------------------------------------------------------
-- Evaluation takes the steps
-----------------------------------------------------------------------------------------

variable {t context}

@[simp] theorem performAll_nil (values : Values)
    : t.performAll context [] values = pure values := rfl

@[simp] theorem performAll_cons (step : Step) (steps : List Step) (values : Values)
    : t.performAll context (step :: steps) values
      = t.perform context step values >>= t.performAll context steps := rfl

theorem performAll_append (first second : List Step) (values : Values)
    : t.performAll context (first ++ second) values
      = t.performAll context first values >>= t.performAll context second :=
  List.foldlM_append

theorem performAll_singleton (step : Step) (values : Values)
    : t.performAll context [step] values = t.perform context step values :=
  bind_pure _

theorem perform_stepIfNone (node : Node) (name : String) (args : List Argument) (step : Step)
    (values : Values)
    : t.perform context (stepIfNone node name args step) values
      = (do
          t.expectNone node name args
          t.perform context step values) := by
  cases args <;> rfl

theorem perform_stepOfLiteral (node : Node) (name : String) (args : List Argument)
    (step : String → Step) (values : Values)
    : t.perform context (t.stepOfLiteral node name args step) values
      = (do
          let literal ← t.expectLiteral node name args
          t.perform context (step literal) values) := by
  rcases args with _ | ⟨arg, _ | ⟨next, args⟩⟩ <;> rfl

theorem performAll_stepsOfWord (node : Node) (name : String) (arg : Argument)
    (steps : String → List Step) (values : Values)
    : t.performAll context (stepsOfWord node name arg steps) values
      = (do
          let word ← t.expectWord node name arg
          t.performAll context (steps word) values) := by
  unfold stepsOfWord expectWord
  cases arg.word? <;> rfl

theorem perform_check (node : Node) (callee : Callee) (arg : Argument) (dates : List Date)
    (before : List HelperArg) (value : HelperArg) (calls : List (List HelperArg))
    : t.perform context (.check node callee arg) ⟨dates, (before ++ [value]) :: calls⟩
      = (do
          t.expectNoPlace node callee arg value
          pure ⟨dates, (before ++ [value]) :: calls⟩) := by
  simp [perform, Values.args]

/-- An argument that makes sense only as such is found in one step. -/
theorem perform_stepOfPlaceholder? (t : Trigger) (context : Context σ) (node : Node)
    (dates : List Date) (args : List HelperArg) (calls : List (List HelperArg))
    : Option.Rel
        (fun step action =>
          t.perform context step ⟨dates, args :: calls⟩
            = (fun value => ⟨dates, (args ++ [value]) :: calls⟩) <$> action)
        (t.stepOfPlaceholder? node) (t.placeholder? context node) := by
  cases node with
  | call name given token suffix =>
      simp only [stepOfPlaceholder?, placeholder?]
      cases Callee.ofName name with
      | period | periodWords =>
          refine .some ?_
          rw [perform_stepIfNone]
          simp only [map_bind, map_pure]
          rfl
      | line =>
          refine .some ?_
          rw [perform_stepOfLiteral]
          simp only [map_eq_pure_bind, bind_assoc, pure_bind, perform]
          rfl
      | target | task =>
          refine .some ?_
          rw [perform_stepIfNone]
          simp only [map_eq_pure_bind, bind_assoc, pure_bind, perform]
          rfl
      | _ => exact .none
  | _ => exact .none

-- The statements follow the evaluators, as a call hands its arguments on to be evaluated.
mutual

/-- A node is evaluated by taking its steps, by induction over the syntax. -/
theorem performAll_steps (node : Node) (position : Position) (values : Values)
    : t.performAll context (t.steps node) values
      = (fun noted => values.addDate noted.value) <$> t.evaluateNode context node position := by
  cases node with
  | date value token suffix =>
      rw [steps, evaluateNode]
      rfl
  | call name args token suffix =>
      rw [steps, evaluateNode, performAll_append, performAll_stepsOfCall _ name token position args]
      simp only [performAll_singleton, perform, map_eq_pure_bind, bind_assoc, pure_bind]
      rfl
  | both left right | either left right =>
      rw [steps, evaluateNode, performAll_append, performAll_append,
        performAll_steps left position.ofOperands]
      simp only [performAll_steps right position.ofOperands, performAll_singleton, perform,
        map_eq_pure_bind, bind_assoc, pure_bind]
      rfl
  | group inner span => rw [steps, evaluateNode, performAll_steps inner position]
termination_by (sizeOf node, 0)

theorem performAll_stepsOfCall (node : Node) (name : String) (token : Span) (position : Position)
    (args : List Argument) (values : Values)
    : t.performAll context (t.stepsOfCall node name args) values
      = (fun call => values.addDate call.value)
          <$> t.evaluateCall context node name token position args := by
  unfold stepsOfCall evaluateCall
  cases Callee.ofName name with
  | now | waiting =>
      simp only [performAll_singleton, perform_stepIfNone, map_bind, map_pure]
      rfl
  | id =>
      simp only [performAll_singleton, perform_stepOfLiteral, map_bind, map_pure]
      rfl
  | reference =>
      rw [performAll_singleton, perform_stepOfLiteral]
      simp only [perform, map_eq_pure_bind, bind_assoc, pure_bind]
  | helper =>
      cases args with
      | nil => rfl
      | cons arg rest =>
          simp only [performAll_stepsOfWord, performAll_cons, performAll_append, perform,
            map_eq_pure_bind, bind_assoc, pure_bind, Values.openCall,
            performAll_stepsOfArguments node .helper rest]
          rfl
  | builtin =>
      cases args with
      | nil => rfl
      | cons arg rest =>
          simp only [performAll_stepsOfWord, performAll_cons, performAll_append, perform,
            map_eq_pure_bind, bind_assoc, pure_bind, Values.openCall,
            performAll_stepsOfArguments node .builtin rest]
          rfl
  | _ => rfl
termination_by (sizeOf args, 1)

theorem performAll_stepsOfArguments (node : Node) (callee : Callee) (args : List Argument)
    (dates : List Date) (before : List HelperArg) (calls : List (List HelperArg))
    : t.performAll context (t.stepsOfArguments node callee args) ⟨dates, before :: calls⟩
      = (fun values => ⟨dates, (before ++ values.value) :: calls⟩)
          <$> t.evaluateArguments context node callee args := by
  cases args with
  | nil =>
      rw [stepsOfArguments, evaluateArguments, map_pure]
      simp only [List.append_nil]
      rfl
  | cons arg args =>
      rw [stepsOfArguments, evaluateArguments, performAll_append, performAll_stepsOfArgument arg]
      simp only [performAll_cons, perform_check, performAll_stepsOfArguments node callee args,
        map_eq_pure_bind, bind_assoc, pure_bind, List.append_assoc, List.singleton_append]
termination_by (sizeOf args, 0)

theorem performAll_stepsOfArgument (arg : Argument) (dates : List Date) (before : List HelperArg)
    (calls : List (List HelperArg))
    : t.performAll context (t.stepsOfArgument arg) ⟨dates, before :: calls⟩
      = (fun value => ⟨dates, (before ++ [value.value]) :: calls⟩)
          <$> t.evaluateArgument context arg := by
  cases arg with
  | quoted value span | bare value span =>
      rw [stepsOfArgument, evaluateArgument]
      rfl
  | trigger node =>
      have placed := t.perform_stepOfPlaceholder? context node dates before calls
      rw [stepsOfArgument, evaluateArgument]
      generalize t.stepOfPlaceholder? node = step? at placed
      generalize t.placeholder? context node = action? at placed
      cases placed with
      | none =>
          simp only [performAll_append, performAll_steps node .argument, performAll_singleton,
            perform, map_eq_pure_bind, bind_assoc, pure_bind]
          rfl
      | some same =>
          simp only [performAll_singleton, same, map_eq_pure_bind, bind_assoc, pure_bind]
termination_by (sizeOf arg, 0)

end

end Trigger

end DueTasks
