import DueTasks.Proofs.Asking
import DueTasks.Proofs.Evaluation.SameText

/-! Evaluation of what was moved.
A call may stand at another place of another name. If its text is the same there, it is evaluated to
the same date, with the same questions asked on the way, or fails with the same error.
-/

namespace DueTasks

open Asking

/-- Two values are the same, whatever was noted on the way to them. -/
def Noted.SameValue {α : Type} (left right : Noted α) : Prop :=
  left.value = right.value

/-- From the same state an action matches itself. -/
theorem Asking.Matches.refl {σ ε α : Type} (action : Asking σ ε α)
    : Matches Eq Eq action action := by
  rintro s _ rfl
  refine ⟨?_, rfl⟩
  cases (action.outcome s).1 with
  | ok value => exact .ok rfl
  | error error => exact .error error

/-- The same steps go on alike if what follows them does. -/
theorem Asking.Matches.step {σ ε α γ δ : Type} {goal : γ → δ → Prop} (action : Asking σ ε α)
    {next : α → Asking σ ε γ} {next' : α → Asking σ ε δ}
    (later : ∀ value, Matches Eq goal (next value) (next' value))
    : Matches Eq goal (action >>= next) (action >>= next') :=
  (Matches.refl action).bind fun value _ same => same ▸ later value

namespace Trigger

/-- Spans of one name have the same text where they are moved to in another name. -/
def MovesTo (base base' : Nat) (t t' : Trigger) (spans : List Span) : Prop :=
  ∀ span ∈ spans, t'.text (span.move base base') = t.text span

variable {σ : Type} {base base' : Nat} {t t' : Trigger} {context : Context σ}

theorem MovesTo.literal {arg : Argument} (moves : MovesTo base base' t t' arg.spans)
    : t'.literal (arg.mapSpans (Span.move base base')) = t.literal arg := by
  have text := moves _ arg.span_mem_spans
  rw [← Argument.span_move] at text
  cases arg with
  | quoted value span | bare value span => rfl
  | trigger node => exact text

/-- Arguments are literally the same where they are moved to, by induction over them. -/
theorem MovesTo.literals {args : List Argument}
    (moves : MovesTo base base' t t' (Argument.spansOfList args))
    : (Argument.mapSpansOfList (Span.move base base') args).map t'.literal
      = args.map t.literal := by
  induction args with
  | nil => rfl
  | cons arg args ih =>
      obtain ⟨first, others⟩ := List.forall_mem_append.mp moves
      rw [Argument.mapSpansOfList, List.map_cons, List.map_cons, MovesTo.literal first, ih others]

theorem MovesTo.quote {node : Node} (moves : MovesTo base base' t t' node.spans)
    : t'.text (node.mapSpans (Span.move base base')).span = t.text node.span := by
  rw [Node.span_move]
  exact moves _ node.span_mem_spans

theorem word?_mapSpans (change : Span → Span) (arg : Argument)
    : (arg.mapSpans change).word? = arg.word? := by
  cases arg <;> rfl

theorem length_mapSpansOfList (change : Span → Span) (args : List Argument)
    : (Argument.mapSpansOfList change args).length = args.length := by
  induction args with
  | nil => rfl
  | cons arg args ih => exact congrArg (· + 1) ih

theorem placeholder?_moved {node : Node} (moves : MovesTo base base' t t' node.spans)
    : t'.placeholder? context (node.mapSpans (Span.move base base'))
      = t.placeholder? context node := by
  have quote := moves.quote
  cases node with
  | call name args token suffix =>
      simp only [MovesTo, Node.spans, List.forall_mem_cons] at moves
      exact placeholder?_call_text quote name rfl rfl (MovesTo.literals moves.2.2.2)
  | _ => rfl

-----------------------------------------------------------------------------------------
-- Evaluation
-----------------------------------------------------------------------------------------

-- The statements follow the evaluators, as a call hands its arguments on to be evaluated. Notes are
-- left out of the comparison, as they tell calls by where these start.
mutual

/-- A node that was moved has the same date, by induction over the syntax. -/
theorem evaluateNode_moved (node : Node) (position : Position)
    (moves : MovesTo base base' t t' node.spans)
    : Matches Eq Noted.SameValue (t.evaluateNode context node position)
        (t'.evaluateNode context (node.mapSpans (Span.move base base')) position) := by
  cases node with
  | date value token suffix =>
      rw [Node.mapSpans, evaluateNode, evaluateNode]
      exact .pure rfl
  | call name args token suffix =>
      have quote := moves.quote
      simp only [MovesTo, Node.spans, List.forall_mem_cons] at moves
      rw [Node.mapSpans] at quote ⊢
      rw [evaluateNode, evaluateNode]
      refine (evaluateCall_moved name token _ position args quote moves.2.2.2).bind ?_
      intro call call' same
      exact .pure (congrArg suffix.applyTo same)
  | both left right =>
      simp only [MovesTo, Node.spans, List.forall_mem_cons, List.forall_mem_append] at moves
      rw [Node.mapSpans, evaluateNode, evaluateNode]
      refine (evaluateNode_moved left _ moves.2.1).bind fun first first' same => ?_
      refine (evaluateNode_moved right _ moves.2.2).bind fun second second' same' => ?_
      exact .pure (congrArg₂ max same same')
  | either left right =>
      simp only [MovesTo, Node.spans, List.forall_mem_cons, List.forall_mem_append] at moves
      rw [Node.mapSpans, evaluateNode, evaluateNode]
      refine (evaluateNode_moved left _ moves.2.1).bind fun first first' same => ?_
      refine (evaluateNode_moved right _ moves.2.2).bind fun second second' same' => ?_
      exact .pure (congrArg₂ min same same')
  | group inner span =>
      simp only [MovesTo, Node.spans, List.forall_mem_cons] at moves
      rw [Node.mapSpans, evaluateNode, evaluateNode]
      exact evaluateNode_moved inner position moves.2
termination_by (sizeOf node, 0)

/-- A call has the same date where its arguments are moved to. -/
theorem evaluateCall_moved {node node' : Node} (name : String) (token token' : Span)
    (position : Position) (args : List Argument)
    (quote : t'.text node'.span = t.text node.span)
    (moves : MovesTo base base' t t' (Argument.spansOfList args))
    : Matches Eq Noted.SameValue (t.evaluateCall context node name token position args)
        (t'.evaluateCall context node' name token' position
          (Argument.mapSpansOfList (Span.move base base') args)) := by
  have count := length_mapSpansOfList (Span.move base base') args
  unfold evaluateCall
  cases callee : Callee.ofName name with
  | now =>
      simp only [expectNone_text quote name count]
      exact .step _ fun _ => .step _ fun _ => .pure rfl
  | waiting =>
      simp only [expectNone_text quote name count]
      exact .step _ fun _ => .pure rfl
  | id =>
      simp only [expectLiteral_text quote name moves.literals]
      exact .step _ fun _ => .pure rfl
  | reference =>
      simp only [expectLiteral_text quote name moves.literals, referenceError_text quote]
      exact .step _ fun _ => .step _ fun _ => .pure rfl
  | helper =>
      cases args with
      | nil =>
          simp only [Argument.mapSpansOfList, semanticError_text quote]
          exact .throw _
      | cons arg rest =>
          obtain ⟨-, moves⟩ := List.forall_mem_append.mp moves
          have word := word?_mapSpans (Span.move base base') arg
          simp only [Argument.mapSpansOfList, expectWord_text quote name word,
            fileError_text quote, helperDate_text quote]
          refine .step _ fun program => .step _ fun path => ?_
          refine (evaluateArguments_moved .helper rest quote moves).bind ?_
          intro values values' same
          rw [show values'.value = values.value from same.symm]
          exact .step _ fun date => .pure rfl
  | builtin =>
      cases args with
      | nil =>
          simp only [Argument.mapSpansOfList, semanticError_text quote]
          exact .throw _
      | cons arg rest =>
          obtain ⟨-, moves⟩ := List.forall_mem_append.mp moves
          have word := word?_mapSpans (Span.move base base') arg
          simp only [Argument.mapSpansOfList, expectWord_text quote name word,
            semanticError_text quote]
          refine .step _ fun builtin => ?_
          refine (evaluateArguments_moved .builtin rest quote moves).bind ?_
          intro values values' same
          rw [show values'.value = values.value from same.symm]
          exact .step _ fun date => .pure rfl
  | _ =>
      simp only [semanticError_text quote]
      exact .throw _
termination_by (sizeOf args, 1)

theorem evaluateArguments_moved {node node' : Node} (callee : Callee) (args : List Argument)
    (quote : t'.text node'.span = t.text node.span)
    (moves : MovesTo base base' t t' (Argument.spansOfList args))
    : Matches Eq Noted.SameValue (t.evaluateArguments context node callee args)
        (t'.evaluateArguments context node' callee
          (Argument.mapSpansOfList (Span.move base base') args)) := by
  cases args with
  | nil =>
      rw [Argument.mapSpansOfList, evaluateArguments, evaluateArguments]
      exact .pure rfl
  | cons arg args =>
      obtain ⟨first, others⟩ := List.forall_mem_append.mp moves
      have literal : t'.text (arg.mapSpans (Span.move base base')).span = t.text arg.span := by
        rw [Argument.span_move]
        exact first _ arg.span_mem_spans
      rw [Argument.mapSpansOfList, evaluateArguments, evaluateArguments]
      refine (evaluateArgument_moved arg first).bind fun value value' same => ?_
      rw [show value'.value = value.value from same.symm, expectNoPlace_text quote callee literal]
      refine .step _ fun _ => ?_
      refine (evaluateArguments_moved callee args quote others).bind fun rest rest' same' => ?_
      exact .pure (congrArg (value.value :: ·) same')
termination_by (sizeOf args, 0)

theorem evaluateArgument_moved (arg : Argument) (moves : MovesTo base base' t t' arg.spans)
    : Matches Eq Noted.SameValue (t.evaluateArgument context arg)
        (t'.evaluateArgument context (arg.mapSpans (Span.move base base'))) := by
  cases arg with
  | quoted value span | bare value span =>
      rw [Argument.mapSpans, evaluateArgument, evaluateArgument]
      exact .pure rfl
  | trigger node =>
      rw [Argument.mapSpans, evaluateArgument, evaluateArgument, placeholder?_moved moves]
      cases t.placeholder? context node with
      | some action => exact .step _ fun _ => .pure rfl
      | none =>
          refine (evaluateNode_moved node .argument moves).bind fun date date' same => ?_
          exact .pure (congrArg (HelperArg.word ∘ Date.text) same)
termination_by (sizeOf arg, 0)

end

end Trigger

end DueTasks
