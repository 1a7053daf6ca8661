import DueTasks.Proofs.Asking
import DueTasks.Proofs.Trigger.PlainTexts
import DueTasks.Task.Evaluation

/-! Errors of one line.
The evaluation of a trigger quotes its name, what its context answers and what the context complains
about. If all of that is one line, every error is.
-/

namespace DueTasks

open Asking Text

/-- An error quotes only texts of one line. -/
abbrev FileError.IsPlain (error : FileError) : Prop :=
  AllOneLine error.quoted

abbrev HelperError.IsPlain (error : HelperError) : Prop :=
  AllOneLine error.quoted

abbrev SemanticError.IsPlain (error : SemanticError) : Prop :=
  AllOneLine error.quoted

abbrev TaskError.IsPlain (error : TaskError) : Prop :=
  AllOneLine error.quoted

/-- The error of a reference, or of the task that it refers to, quotes only texts of one line. -/
def ReferenceError.IsPlain : ReferenceError → Prop
  | .reference error => error.IsPlain
  | .target error => error.IsPlain

variable {σ : Type} {kept : σ → Prop}

/-- To questions in texts of one line, a context answers and fails in such texts. -/
structure Context.TellsLines (kept : σ → Prop) (context : Context σ) : Prop where
  today : context.today.Stable kept
  resolve
    : ∀ id, IsOneLine id
      → (context.resolve id).Yields kept (Answers (fun _ => True) ReferenceError.IsPlain)
  findHelper
    : ∀ name, IsOneLine name
      → (context.findHelper name).Yields kept
          (Answers (fun path => IsOneLine path.text) FileError.IsPlain)
  runHelper
    : ∀ path words, IsOneLine path → AllOneLine words
      → (context.runHelper (path :: words)).Yields kept (Answers IsOneLine HelperError.IsPlain)
  callBuiltin
    : ∀ name words, IsOneLine name → AllOneLine words
      → (context.callBuiltin name words).Yields kept
          (Answers (fun _ => True) SemanticError.IsPlain)
  ownLines : context.ownLines.Yields kept (Answers AllOneLine FileError.IsPlain)
  ownTarget
    : context.ownTarget.Yields kept (Answers (fun path => IsOneLine path.text) FileError.IsPlain)
  ownPath
    : context.ownPath.Yields kept (Answers (fun path => IsOneLine path.text) FileError.IsPlain)

namespace Trigger

variable {t : Trigger} {context : Context σ} (plain : IsOneLine t.source)

-----------------------------------------------------------------------------------------
-- Errors of a node
-----------------------------------------------------------------------------------------

section

include plain

theorem isPlain_semanticError (node : Node) {error : SemanticError} (h : error.IsPlain)
    : (t.semanticError node error).IsPlain :=
  allOneLine_cons.mpr ⟨isOneLine_text plain node.span, h⟩

theorem isPlain_fileError (node : Node) {error : FileError} (h : error.IsPlain)
    : (t.fileError node error).IsPlain :=
  isPlain_semanticError plain node h

theorem isPlain_helperError (node : Node) {error : HelperError} (h : error.IsPlain)
    : (t.helperError node error).IsPlain :=
  allOneLine_cons.mpr ⟨isOneLine_text plain node.span, h⟩

theorem isPlain_referenceError (node : Node) {error : ReferenceError} (h : error.IsPlain)
    : (t.referenceError node error).IsPlain := by
  cases error with
  | reference error => exact isPlain_semanticError plain node h
  | target error => exact h

/-- The wrong number of arguments is told in one line if the name of the call is one. -/
theorem isPlain_argumentCount (node : Node) {name : String} (oneLine : IsOneLine name)
    {expected : String} (number : IsOneLine expected) (found : Nat)
    : (t.semanticError node (.argumentCount name expected found)).IsPlain :=
  isPlain_semanticError plain node
    (allOneLine_cons.mpr ⟨oneLine, allOneLine_cons.mpr ⟨number, allOneLine_nil⟩⟩)

-----------------------------------------------------------------------------------------
-- Arguments
-----------------------------------------------------------------------------------------

theorem expectNone_yields (node : Node) {name : String} (oneLine : IsOneLine name)
    (args : List Argument)
    : Yields kept (Answers (fun _ => True) TaskError.IsPlain)
        (t.expectNone node name args : Asking σ TaskError Unit) := by
  unfold expectNone
  split
  · exact .pure True.intro
  · exact .throw (isPlain_argumentCount plain node oneLine (by decide) _)

theorem expectLiteral_yields (node : Node) {name : String} (oneLine : IsOneLine name)
    {args : List Argument} (argsOneLine : Argument.AreOneLine args)
    : Yields kept (Answers IsOneLine TaskError.IsPlain)
        (t.expectLiteral node name args : Asking σ TaskError String) := by
  unfold expectLiteral
  split
  · exact .pure (isOneLine_literal plain argsOneLine.1)
  · exact .throw (isPlain_argumentCount plain node oneLine (by decide) _)

theorem expectWord_yields (node : Node) {name : String} (oneLine : IsOneLine name)
    {arg : Argument} (argOneLine : arg.IsOneLine)
    : Yields kept (Answers IsOneLine TaskError.IsPlain)
        (t.expectWord node name arg : Asking σ TaskError String) := by
  cases arg with
  | quoted value span | bare value span => exact .pure argOneLine
  | trigger inner =>
      exact .throw
        (isPlain_semanticError plain node (allOneLine_cons.mpr ⟨oneLine, allOneLine_nil⟩))

theorem expectNoPlace_yields (node : Node) (callee : Callee) (arg : Argument) (value : HelperArg)
    : Yields kept (Answers (fun _ => True) TaskError.IsPlain)
        (t.expectNoPlace node callee arg value : Asking σ TaskError Unit) := by
  have misplaced : (expectNoPlace.misplaced t node arg).IsPlain :=
    isPlain_semanticError plain node
      (allOneLine_cons.mpr ⟨isOneLine_text plain arg.span, allOneLine_nil⟩)
  unfold expectNoPlace
  split
  · exact .throw misplaced
  · exact .throw misplaced
  · exact .pure True.intro

variable (tells : context.TellsLines kept)

include tells

theorem ownLine_yields (node : Node) {requested : String} (oneLine : IsOneLine requested)
    : (t.ownLine context node requested).Yields kept (Answers IsOneLine TaskError.IsPlain) := by
  have lines
      : (context.ownLines.mapError (t.fileError node)).Yields kept
          (Answers AllOneLine TaskError.IsPlain) :=
    tells.ownLines.mapError fun _ => isPlain_fileError plain node
  refine lines.bind_alike fun lines all => ?_
  dsimp only
  split
  · rename_i line found
    obtain ⟨number, _, found⟩ := Option.bind_eq_some_iff.mp found
    split at found
    · cases found
    · exact .pure (all line (List.mem_of_getElem? found))
  · exact .throw
      (isPlain_semanticError plain node (allOneLine_cons.mpr ⟨oneLine, allOneLine_nil⟩))

/-- What stands for something outside of the name is told in one line. -/
theorem placeholder_yields {node : Node} (oneLine : node.IsOneLine)
    {action : Asking σ TaskError HelperArg} (stands : t.placeholder? context node = some action)
    : action.Yields kept
        (Answers (fun value => AllOneLine (value.expand none)) TaskError.IsPlain) := by
  cases node with
  | date | both | either | group => cases stands
  | call name args token suffix =>
      obtain ⟨nameOneLine, argsOneLine⟩ := oneLine
      have empty
          : Yields kept (Answers (fun _ => True) TaskError.IsPlain)
              (t.expectNone (.call name args token suffix) name args : Asking σ TaskError Unit) :=
        expectNone_yields plain _ nameOneLine args
      have word {value : String} (h : IsOneLine value)
          : AllOneLine ((HelperArg.word value).expand none) :=
        allOneLine_cons.mpr ⟨h, allOneLine_nil⟩
      have place {answer : Asking σ FileError Path}
          (h : answer.Yields kept (Answers (fun path => IsOneLine path.text) FileError.IsPlain))
          : Yields kept (Answers (fun value => AllOneLine (value.expand none)) TaskError.IsPlain)
              (do
                t.expectNone (.call name args token suffix) name args
                let path ← answer.mapError (t.fileError (.call name args token suffix))
                return HelperArg.word path.text) := by
        refine empty.bind_alike fun _ _ => ?_
        exact (h.mapError fun _ => isPlain_fileError plain _).bind_alike fun path h =>
          .pure (word h)
      dsimp only [placeholder?] at stands
      split at stands
      · cases stands
        exact empty.bind_alike fun _ _ => .pure allOneLine_nil
      · cases stands
        exact empty.bind_alike fun _ _ => .pure allOneLine_nil
      · cases stands
        refine (expectLiteral_yields plain _ nameOneLine argsOneLine).bind_alike
          fun requested requestedOneLine => ?_
        exact (ownLine_yields plain tells _ requestedOneLine).bind_alike fun line h =>
          .pure (word h)
      · cases stands
        exact place tells.ownTarget
      · cases stands
        exact place tells.ownPath
      · cases stands

-----------------------------------------------------------------------------------------
-- Nodes
-----------------------------------------------------------------------------------------

theorem helperDate_yields (node : Node) {program path : String} (programOneLine : IsOneLine program)
    (pathOneLine : IsOneLine path) {args : List HelperArg}
    (words : AllOneLine (HelperArg.expandAll args none))
    : (t.helperDate context node program (.word path :: args)).Yields kept
        (Answers (fun _ => True) TaskError.IsPlain) := by
  have ran
      : ((context.runHelper (path :: HelperArg.expandAll args none)).mapError
            (t.helperError node)).Yields kept
          (Answers IsOneLine TaskError.IsPlain) :=
    (tells.runHelper path _ pathOneLine words).mapError fun _ => isPlain_helperError plain node
  refine ran.bind_alike fun line lineOneLine => ?_
  split
  · exact .pure True.intro
  · exact .throw (isPlain_helperError plain node
      (allOneLine_cons.mpr ⟨programOneLine, allOneLine_cons.mpr ⟨lineOneLine, allOneLine_nil⟩⟩))

end

-- The statements follow the evaluators, as a call hands its arguments on to be evaluated.
mutual

/-- Nodes of one line fail in one line, by induction over the syntax. -/
theorem evaluateNode_yields (plain : IsOneLine t.source) (tells : context.TellsLines kept)
    (node : Node) (position : Position)
    : node.IsOneLine
      → (t.evaluateNode context node position).Yields kept
          (Answers (fun _ => True) TaskError.IsPlain) := by
  intro oneLine
  cases node with
  | date value token suffix =>
      rw [evaluateNode]
      exact .pure True.intro
  | call name args token suffix =>
      rw [evaluateNode]
      refine (evaluateCall_yields plain tells _ name token position args oneLine.1
        oneLine.2).bind_alike fun _ _ => ?_
      exact .pure True.intro
  | both left right | either left right =>
      rw [evaluateNode]
      refine (evaluateNode_yields plain tells left _ oneLine.1).bind_alike fun _ _ => ?_
      refine (evaluateNode_yields plain tells right _ oneLine.2).bind_alike fun _ _ => ?_
      exact .pure True.intro
  | group inner span =>
      rw [evaluateNode]
      exact evaluateNode_yields plain tells inner position oneLine
termination_by (sizeOf node, 0)

theorem evaluateCall_yields (plain : IsOneLine t.source) (tells : context.TellsLines kept)
    (node : Node) (name : String) (token : Span) (position : Position) (args : List Argument)
    : IsOneLine name
      → Argument.AreOneLine args
      → (t.evaluateCall context node name token position args).Yields kept
          (Answers (fun _ => True) TaskError.IsPlain) := by
  intro nameOneLine argsOneLine
  have empty
      : Yields kept (Answers (fun _ => True) TaskError.IsPlain)
          (t.expectNone node name args : Asking σ TaskError Unit) :=
    expectNone_yields plain node nameOneLine args
  have literal
      : Yields kept (Answers IsOneLine TaskError.IsPlain)
          (t.expectLiteral node name args : Asking σ TaskError String) :=
    expectLiteral_yields plain node nameOneLine argsOneLine
  have missing : (t.semanticError node (.argumentCount name "at least 1" 0)).IsPlain :=
    isPlain_argumentCount plain node nameOneLine (by decide) 0
  unfold evaluateCall
  generalize Callee.ofName name = callee
  cases callee with
  | now =>
      have told
          : context.today.Yields kept (Answers (fun _ => True) fun error : Empty => error.elim) :=
        (Yields.of_stable tells.today).mono fun answer _ => by
          cases answer with
          | ok date => trivial
          | error error => exact error.elim
      refine empty.bind_alike fun _ _ => ?_
      exact (told.mapError fun error => error.elim).bind_alike fun _ _ => .pure True.intro
  | id => exact literal.bind_alike fun _ _ => .pure True.intro
  | reference =>
      refine literal.bind_alike fun id idOneLine => ?_
      refine ((tells.resolve id idOneLine).mapError ?_).bind_alike fun _ _ => .pure True.intro
      exact fun _ => isPlain_referenceError plain node
  | waiting => exact empty.bind_alike fun _ _ => .pure True.intro
  | helper =>
      cases args with
      | nil => exact .throw missing
      | cons arg args =>
          refine (expectWord_yields plain node nameOneLine argsOneLine.1).bind_alike
            fun program programOneLine => ?_
          refine ((tells.findHelper program programOneLine).mapError fun _ =>
            isPlain_fileError plain node).bind_alike fun path pathOneLine => ?_
          refine (evaluateArguments_yields plain tells node .helper args argsOneLine.2).bind_alike
            fun rest words => ?_
          exact (helperDate_yields plain tells node programOneLine pathOneLine words).bind_alike
            fun _ _ => .pure True.intro
  | builtin =>
      cases args with
      | nil => exact .throw missing
      | cons arg args =>
          refine (expectWord_yields plain node nameOneLine argsOneLine.1).bind_alike
            fun builtin builtinOneLine => ?_
          refine (evaluateArguments_yields plain tells node .builtin args argsOneLine.2).bind_alike
            fun rest words => ?_
          exact ((tells.callBuiltin builtin _ builtinOneLine words).mapError fun _ =>
            isPlain_semanticError plain node).bind_alike fun _ _ => .pure True.intro
  | _ =>
      exact .throw
        (isPlain_semanticError plain node (allOneLine_cons.mpr ⟨nameOneLine, allOneLine_nil⟩))
termination_by (sizeOf args, 1)

theorem evaluateArguments_yields (plain : IsOneLine t.source) (tells : context.TellsLines kept)
    (node : Node) (callee : Callee) (args : List Argument)
    : Argument.AreOneLine args
      → (t.evaluateArguments context node callee args).Yields kept
          (Answers (fun noted => AllOneLine (HelperArg.expandAll noted.value none))
            TaskError.IsPlain) := by
  intro argsOneLine
  cases args with
  | nil =>
      rw [evaluateArguments]
      exact .pure allOneLine_nil
  | cons arg args =>
      rw [evaluateArguments]
      refine (evaluateArgument_yields plain tells arg argsOneLine.1).bind_alike
        fun first words => ?_
      refine (expectNoPlace_yields plain node callee arg _).bind_alike fun _ _ => ?_
      refine (evaluateArguments_yields plain tells node callee args argsOneLine.2).bind_alike
        fun rest more => ?_
      exact .pure (List.forall_mem_append.mpr ⟨words, more⟩)
termination_by (sizeOf args, 0)

theorem evaluateArgument_yields (plain : IsOneLine t.source) (tells : context.TellsLines kept)
    (arg : Argument)
    : arg.IsOneLine
      → (t.evaluateArgument context arg).Yields kept
          (Answers (fun noted => AllOneLine (noted.value.expand none)) TaskError.IsPlain) := by
  intro oneLine
  cases arg with
  | quoted value span | bare value span =>
      rw [evaluateArgument]
      exact .pure (allOneLine_cons.mpr ⟨oneLine, allOneLine_nil⟩)
  | trigger node =>
      rw [evaluateArgument]
      split
      · rename_i action stands
        exact (placeholder_yields plain tells oneLine stands).bind_alike fun _ h => .pure h
      · refine (evaluateNode_yields plain tells node .argument oneLine).bind_alike fun date _ => ?_
        exact .pure (allOneLine_cons.mpr ⟨date.value.isOneLine_text, allOneLine_nil⟩)
termination_by (sizeOf arg, 0)

end

/-- A trigger of texts of one line fails in one line. -/
theorem evaluate_yields (plain : IsOneLine t.source) (tells : context.TellsLines kept)
    (oneLine : t.root.IsOneLine)
    : (t.evaluate context).Yields kept (Answers (fun _ => True) TaskError.IsPlain) :=
  (evaluateNode_yields plain tells t.root .root oneLine).bind_alike fun _ _ => .pure True.intro

end Trigger

end DueTasks
