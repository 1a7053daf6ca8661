import DueTasks.Proofs.Asking
import DueTasks.Task.DoneName

/-! Evaluation and done names in two contexts.
A trigger asks its context the same questions in the same order for as long as it gets the same
answers, so that contexts that answer alike give alike evaluations and alike done names.
-/

namespace DueTasks

variable {σ τ : Type}

/-- One context answers as another does. References may differ in their errors, compared as errors
of the trigger `t`; everything else agrees.
-/
structure Context.Follows (t : Trigger) (keep : σ → τ → Prop) (same : TaskError → TaskError → Prop)
    (lost : TaskError → Prop) (left : Context σ) (right : Context τ)
    : Prop where
  today : left.today.Agrees keep right.today
  resolve
    : ∀ node id,
        ((left.resolve id).mapError (t.referenceError node)).Follows keep same lost
          ((right.resolve id).mapError (t.referenceError node))
  findHelper : ∀ name, (left.findHelper name).Agrees keep (right.findHelper name)
  runHelper : ∀ words, (left.runHelper words).Agrees keep (right.runHelper words)
  callBuiltin
    : ∀ name words, (left.callBuiltin name words).Agrees keep (right.callBuiltin name words)
  ownLines : left.ownLines.Agrees keep right.ownLines
  ownTarget : left.ownTarget.Agrees keep right.ownTarget
  ownPath : left.ownPath.Agrees keep right.ownPath

namespace Trigger

open Asking

variable {t : Trigger} {keep : σ → τ → Prop} {same : TaskError → TaskError → Prop}
  {lost : TaskError → Prop} {left : Context σ} {right : Context τ}

section

variable (refl : ∀ error, same error error)

include refl

/-- Whether a call has no arguments does not depend on the context. -/
theorem expectNone_follows (node : Node) (name : String) (args : List Argument)
    : Follows keep same lost (t.expectNone node name args : Asking σ TaskError Unit)
        (t.expectNone node name args) := by
  cases args with
  | nil => exact .pure ()
  | cons => exact .throw (refl _)

/-- The literal argument of a call does not depend on the context. -/
theorem expectLiteral_follows (node : Node) (name : String) (args : List Argument)
    : Follows keep same lost (t.expectLiteral node name args : Asking σ TaskError String)
        (t.expectLiteral node name args) := by
  rcases args with _ | ⟨arg, _ | _⟩
  · exact .throw (refl _)
  · exact .pure _
  · exact .throw (refl _)

/-- The name of what is called does not depend on the context. -/
theorem expectWord_follows (node : Node) (name : String) (arg : Argument)
    : Follows keep same lost (t.expectWord node name arg : Asking σ TaskError String)
        (t.expectWord node name arg) := by
  unfold expectWord
  cases arg.word? with
  | none => exact .throw (refl _)
  | some word => exact .pure word

theorem expectNoPlace_follows (node : Node) (callee : Callee) (arg : Argument) (value : HelperArg)
    : Follows keep same lost (t.expectNoPlace node callee arg value : Asking σ TaskError Unit)
        (t.expectNoPlace node callee arg value) := by
  unfold expectNoPlace
  split
  · exact .throw (refl _)
  · exact .throw (refl _)
  · exact .pure ()

variable (contexts : left.Follows t keep same lost right)

include contexts

/-- Lines of the task's own file follow each other, from the lines that the contexts give. -/
theorem ownLine_follows (node : Node) (requested : String)
    : Follows keep same lost (t.ownLine left node requested) (t.ownLine right node requested) := by
  refine (contexts.ownLines.mapError _ refl).bind fun lines => ?_
  extract_lets found
  cases found with
  | none => exact .throw (refl _)
  | some line => exact .pure line

/-- A node is a placeholder in both contexts or in neither, and its values follow each other. -/
theorem placeholder_follows (node : Node)
    : (t.placeholder? left node = none ∧ t.placeholder? right node = none)
      ∨ ∃ first second,
          t.placeholder? left node = some first
          ∧ t.placeholder? right node = some second
          ∧ Follows keep same lost first second := by
  unfold placeholder?
  split
  · split
    · exact .inr ⟨_, _, rfl, rfl, (expectNone_follows refl _ _ _).bind fun _ => .pure _⟩
    · exact .inr ⟨_, _, rfl, rfl, (expectNone_follows refl _ _ _).bind fun _ => .pure _⟩
    · refine .inr ⟨_, _, rfl, rfl, (expectLiteral_follows refl _ _ _).bind fun requested => ?_⟩
      exact (ownLine_follows refl contexts _ _).bind fun _ => .pure _
    · refine .inr ⟨_, _, rfl, rfl, (expectNone_follows refl _ _ _).bind fun _ => ?_⟩
      exact (contexts.ownTarget.mapError _ refl).bind fun _ => .pure _
    · refine .inr ⟨_, _, rfl, rfl, (expectNone_follows refl _ _ _).bind fun _ => ?_⟩
      exact (contexts.ownPath.mapError _ refl).bind fun _ => .pure _
    · exact .inl ⟨rfl, rfl⟩
  · exact .inl ⟨rfl, rfl⟩

/-- The dates that helpers print follow each other. -/
theorem helperDate_follows (node : Node) (program : String) (args : List HelperArg)
    : Follows keep same lost (t.helperDate left node program args)
        (t.helperDate right node program args) := by
  refine ((contexts.runHelper _).mapError _ refl).bind fun line => ?_
  split
  · exact .pure _
  · exact .throw (refl _)

end

-----------------------------------------------------------------------------------------
-- Evaluation
-----------------------------------------------------------------------------------------

-- The four statements follow the four evaluators; a call hands its arguments on, so that the
-- recursion is on the syntax.
mutual

/-- Nodes are evaluated alike in contexts that answer alike, by induction over the syntax. -/
theorem evaluateNode_follows (refl : ∀ error, same error error)
    (contexts : left.Follows t keep same lost right) (node : Node) (position : Position)
    : Follows keep same lost (t.evaluateNode left node position)
        (t.evaluateNode right node position) := by
  cases node with
  | date value token suffix =>
      rw [evaluateNode, evaluateNode]
      exact .pure _
  | call name args token suffix =>
      rw [evaluateNode, evaluateNode]
      exact (evaluateCall_follows refl contexts _ name token position args).bind fun _ => .pure _
  | both first second | either first second =>
      rw [evaluateNode, evaluateNode]
      refine (evaluateNode_follows refl contexts first _).bind fun _ => ?_
      exact (evaluateNode_follows refl contexts second _).bind fun _ => .pure _
  | group inner span =>
      rw [evaluateNode, evaluateNode]
      exact evaluateNode_follows refl contexts inner position
termination_by (sizeOf node, 0)

/-- Calls are evaluated alike in contexts that answer alike. -/
theorem evaluateCall_follows (refl : ∀ error, same error error)
    (contexts : left.Follows t keep same lost right) (node : Node) (name : String) (token : Span)
    (position : Position) (args : List Argument)
    : Follows keep same lost (t.evaluateCall left node name token position args)
        (t.evaluateCall right node name token position args) := by
  unfold evaluateCall
  generalize Callee.ofName name = callee
  cases callee with
  | now =>
      refine (expectNone_follows refl _ _ _).bind fun _ => ?_
      exact (contexts.today.mapError _ refl).bind fun _ => .pure _
  | id => exact (expectLiteral_follows refl _ _ _).bind fun _ => .pure _
  | reference =>
      refine (expectLiteral_follows refl _ _ _).bind fun id => ?_
      exact (contexts.resolve node id).bind fun _ => .pure _
  | waiting => exact (expectNone_follows refl _ _ _).bind fun _ => .pure _
  | helper =>
      cases args with
      | nil => exact .throw (refl _)
      | cons arg rest =>
          refine (expectWord_follows refl _ _ _).bind fun program => ?_
          refine ((contexts.findHelper program).mapError _ refl).bind fun path => ?_
          refine (evaluateArguments_follows refl contexts node .helper rest).bind fun values => ?_
          exact (helperDate_follows refl contexts node program _).bind fun _ => .pure _
  | builtin =>
      cases args with
      | nil => exact .throw (refl _)
      | cons arg rest =>
          refine (expectWord_follows refl _ _ _).bind fun builtin => ?_
          refine (evaluateArguments_follows refl contexts node .builtin rest).bind fun values => ?_
          exact ((contexts.callBuiltin builtin _).mapError _ refl).bind fun _ => .pure _
  | _ => exact .throw (refl _)
termination_by (sizeOf args, 1)

/-- Arguments are evaluated alike in contexts that answer alike. -/
theorem evaluateArguments_follows (refl : ∀ error, same error error)
    (contexts : left.Follows t keep same lost right) (node : Node) (callee : Callee)
    (args : List Argument)
    : Follows keep same lost (t.evaluateArguments left node callee args)
        (t.evaluateArguments right node callee args) := by
  cases args with
  | nil =>
      rw [evaluateArguments, evaluateArguments]
      exact .pure _
  | cons arg args =>
      rw [evaluateArguments, evaluateArguments]
      refine (evaluateArgument_follows refl contexts arg).bind fun first => ?_
      refine (expectNoPlace_follows refl node callee arg first.value).bind fun _ => ?_
      exact (evaluateArguments_follows refl contexts node callee args).bind fun _ => .pure _
termination_by (sizeOf args, 0)

/-- An argument is evaluated alike in contexts that answer alike. -/
theorem evaluateArgument_follows (refl : ∀ error, same error error)
    (contexts : left.Follows t keep same lost right) (arg : Argument)
    : Follows keep same lost (t.evaluateArgument left arg) (t.evaluateArgument right arg) := by
  cases arg with
  | quoted value span | bare value span =>
      rw [evaluateArgument, evaluateArgument]
      exact .pure _
  | trigger node =>
      rw [evaluateArgument, evaluateArgument]
      rcases placeholder_follows refl contexts node with
        ⟨first, second⟩ | ⟨first, second, isFirst, isSecond, follows⟩
      · rw [first, second]
        exact (evaluateNode_follows refl contexts node .argument).bind fun _ => .pure _
      · rw [isFirst, isSecond]
        exact follows.bind fun _ => .pure _
termination_by (sizeOf arg, 0)

end

/-- A trigger is evaluated alike in contexts that answer alike. -/
theorem evaluate_follows (refl : ∀ error, same error error)
    (contexts : left.Follows t keep same lost right)
    : Follows keep same lost (t.evaluate left) (t.evaluate right) :=
  (evaluateNode_follows refl contexts t.root .root).bind fun _ => .pure _

-----------------------------------------------------------------------------------------
-- Done names
-----------------------------------------------------------------------------------------

/-- A node is written anew alike where the date is the same and helpers answer alike, by induction
over the syntax outside of arguments. Nothing else is asked.
-/
theorem doneNode_follows (refl : ∀ error, same error error) (now : left.now = right.now)
    (helpers : ∀ words, (left.runHelper words).Agrees keep (right.runHelper words))
    (evaluation : Evaluation) (node : Node)
    : Follows keep same lost (t.doneNode left evaluation node)
        (t.doneNode right evaluation node) := by
  cases node with
  | date value token suffix =>
      simp only [doneNode, doneDate, now]
      exact .pure _
  | call name args token suffix =>
      rw [doneNode, doneNode]
      split
      · unfold doneCall
        split
        · exact ((helpers _).mapError _ refl).bind fun _ => .pure _
        · exact .pure _
      · exact .pure _
  | both first second | either first second =>
      rw [doneNode, doneNode]
      refine (doneNode_follows refl now helpers evaluation first).bind fun _ => ?_
      exact (doneNode_follows refl now helpers evaluation second).bind fun _ => .pure _
  | group inner span =>
      rw [doneNode, doneNode]
      exact (doneNode_follows refl now helpers evaluation inner).bind fun _ => .pure _
termination_by sizeOf node

theorem doneName_follows (refl : ∀ error, same error error) (now : left.now = right.now)
    (helpers : ∀ words, (left.runHelper words).Agrees keep (right.runHelper words))
    (evaluation : Evaluation)
    : Follows keep same lost (t.doneName left evaluation) (t.doneName right evaluation) := by
  unfold doneName
  split
  · exact .pure _
  · split
    · exact .throw (refl _)
    · exact (doneNode_follows refl now helpers evaluation t.root).bind fun _ => .pure _

end Trigger

-----------------------------------------------------------------------------------------
-- What evaluation keeps of the state
-----------------------------------------------------------------------------------------

/-- A property of the state is kept whatever the context is asked. -/
structure Context.Stable (kept : σ → Prop) (context : Context σ) : Prop where
  today : context.today.Stable kept
  resolve : ∀ id, (context.resolve id).Stable kept
  findHelper : ∀ name, (context.findHelper name).Stable kept
  runHelper : ∀ words, (context.runHelper words).Stable kept
  callBuiltin : ∀ name words, (context.callBuiltin name words).Stable kept
  ownLines : context.ownLines.Stable kept
  ownTarget : context.ownTarget.Stable kept
  ownPath : context.ownPath.Stable kept

namespace Trigger

open Asking

variable {t : Trigger} {context : Context σ} {kept : σ → Prop}

/-- Evaluation keeps what the context keeps, since it follows itself. -/
theorem evaluate_stable (stable : context.Stable kept) : (t.evaluate context).Stable kept := by
  have itself : context.Follows t (fun s s' => s = s' ∧ kept s) Eq (fun _ => False) context := {
    today := stable_iff_agrees.mp stable.today
    resolve := fun node id =>
      (stable_iff_agrees.mp (stable.resolve id)).mapError _ fun _ => rfl
    findHelper := fun name => stable_iff_agrees.mp (stable.findHelper name)
    runHelper := fun words => stable_iff_agrees.mp (stable.runHelper words)
    callBuiltin := fun name words => stable_iff_agrees.mp (stable.callBuiltin name words)
    ownLines := stable_iff_agrees.mp stable.ownLines
    ownTarget := stable_iff_agrees.mp stable.ownTarget
    ownPath := stable_iff_agrees.mp stable.ownPath
  }
  exact stable_iff_agrees.mpr (evaluate_follows (fun _ => rfl) itself)

/-- Writing a name anew keeps what running helpers keeps. -/
theorem doneName_stable (helpers : ∀ words, (context.runHelper words).Stable kept)
    (evaluation : Evaluation)
    : (t.doneName context evaluation).Stable kept :=
  stable_iff_agrees.mpr (doneName_follows (fun _ => rfl) rfl
    (fun words => stable_iff_agrees.mp (helpers words)) evaluation)

end Trigger

end DueTasks
