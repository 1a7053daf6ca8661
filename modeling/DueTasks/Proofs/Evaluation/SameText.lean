import DueTasks.Proofs.Trigger.Coverage
import DueTasks.Task.DoneName

/-! Names with the same text.
What a trigger does depends on its name only through the text between the ends of its spans: the
text that errors quote, the text of literal arguments and the text that a done name copies. The same
tree in two names with the same text there does the same.
-/

namespace DueTasks

/-- The span of a node is one of its spans. -/
theorem Node.span_mem_spans (node : Node) : node.span ∈ node.spans := by
  cases node <;> exact List.mem_cons_self

theorem Argument.span_mem_spans (arg : Argument) : arg.span ∈ arg.spans := by
  cases arg with
  | quoted value span | bare value span => exact List.mem_cons_self
  | trigger node => exact node.span_mem_spans

/-- The span ends at two of the given places. -/
def Span.EndsAt (places : Nat → Prop) (span : Span) : Prop :=
  places span.start ∧ places span.stop

namespace Trigger

/-- The names of two triggers have the same text between any two of the given places. -/
def SameText (places : Nat → Prop) (t t' : Trigger) : Prop :=
  ∀ start stop, places start → places stop → t'.copy ⟨start, stop⟩ = t.copy ⟨start, stop⟩

variable {σ : Type} {places : Nat → Prop} {t t' : Trigger} {context : Context σ}

theorem SameText.text (same : SameText places t t') {span : Span} (ends : span.EndsAt places)
    : t'.text span = t.text span :=
  congrArg String.ofList (same _ _ ends.1 ends.2)

theorem SameText.literal (same : SameText places t t') {arg : Argument}
    (inside : ∀ span ∈ arg.spans, span.EndsAt places)
    : t'.literal arg = t.literal arg := by
  unfold Trigger.literal
  rw [same.text (inside _ arg.span_mem_spans)]

-----------------------------------------------------------------------------------------
-- The steps of evaluation
-----------------------------------------------------------------------------------------

section

variable {node node' : Node} (quote : t'.text node'.span = t.text node.span)

include quote

theorem referenceError_text : t'.referenceError node' = t.referenceError node := by
  funext error
  cases error with
  | reference error => simp only [referenceError, semanticError, quote]
  | target error => rfl

theorem fileError_text : t'.fileError node' = t.fileError node := by
  funext error
  simp only [fileError, semanticError, quote]

theorem semanticError_text : t'.semanticError node' = t.semanticError node := by
  funext error
  simp only [semanticError, quote]

theorem expectNone_text (name : String) {args args' : List Argument}
    (count : args'.length = args.length)
    : (t'.expectNone node' name args' : Asking σ TaskError Unit) = t.expectNone node name args := by
  cases args with
  | nil => rw [List.eq_nil_of_length_eq_zero count]; rfl
  | cons arg args =>
      cases args' with
      | nil => cases count
      | cons arg' args' => simp only [expectNone, semanticError, quote, count]

theorem expectLiteral_text (name : String) {args args' : List Argument}
    (literals : args'.map t'.literal = args.map t.literal)
    : (t'.expectLiteral node' name args' : Asking σ TaskError String)
      = t.expectLiteral node name args := by
  have count : args'.length = args.length := by simpa using congrArg List.length literals
  unfold expectLiteral
  split
  · rename_i arg'
    obtain ⟨arg, rfl⟩ := List.length_eq_one_iff.mp count.symm
    rw [List.singleton_inj.mp literals]
  · rename_i several
    split
    · obtain ⟨arg', one⟩ := List.length_eq_one_iff.mp count
      exact absurd one (several arg')
    · rw [semanticError, semanticError, quote, count]

theorem expectWord_text (name : String) {arg arg' : Argument} (word : arg'.word? = arg.word?)
    : (t'.expectWord node' name arg' : Asking σ TaskError String) = t.expectWord node name arg := by
  simp only [expectWord, semanticError, quote, word]

theorem ownLine_text (requested : String)
    : t'.ownLine context node' requested = t.ownLine context node requested := by
  simp only [ownLine, fileError_text quote, semanticError, quote]

theorem helperDate_text (program : String) (args : List HelperArg)
    : t'.helperDate context node' program args = t.helperDate context node program args := by
  have errors : t'.helperError node' = t.helperError node := by
    funext error
    simp only [helperError, quote]
  simp only [helperDate, errors]

theorem expectNoPlace_text (callee : Callee) {arg arg' : Argument}
    (literal : t'.text arg'.span = t.text arg.span) (value : HelperArg)
    : (t'.expectNoPlace node' callee arg' value : Asking σ TaskError Unit)
      = t.expectNoPlace node callee arg value := by
  simp only [expectNoPlace, expectNoPlace.misplaced, semanticError, quote, literal]

/-- A call is alike as an argument if its own arguments are literally alike. -/
theorem placeholder?_call_text (name : String) {args args' : List Argument} {token token' : Span}
    {suffix suffix' : Suffix} (here : node = .call name args token suffix)
    (there : node' = .call name args' token' suffix')
    (literals : args'.map t'.literal = args.map t.literal)
    : t'.placeholder? context node' = t.placeholder? context node := by
  have count : args'.length = args.length := by simpa using congrArg List.length literals
  subst here there
  simp only [placeholder?, expectNone_text quote name count, ownLine_text quote,
    fileError_text quote, expectLiteral_text quote name literals]

end

/-- Literal arguments are the same in names with the same text. -/
theorem SameText.literals (same : SameText places t t') {args : List Argument}
    (inside : ∀ span ∈ Argument.spansOfList args, span.EndsAt places)
    : args.map t'.literal = args.map t.literal := by
  induction args with
  | nil => rfl
  | cons arg args ih =>
      simp only [Argument.spansOfList, List.forall_mem_append] at inside
      rw [List.map_cons, List.map_cons, same.literal inside.1, ih inside.2]

theorem placeholder?_text (same : SameText places t t') {node : Node}
    (inside : ∀ span ∈ node.spans, span.EndsAt places)
    : t'.placeholder? context node = t.placeholder? context node := by
  have quote := same.text (inside _ node.span_mem_spans)
  cases node with
  | call name args token suffix =>
      simp only [Node.spans, List.forall_mem_cons] at inside
      exact placeholder?_call_text quote name rfl rfl (same.literals inside.2.2.2)
  | _ => rfl

-----------------------------------------------------------------------------------------
-- Evaluation
-----------------------------------------------------------------------------------------

-- The statements follow the evaluators, as a call hands its arguments on to be evaluated.
mutual

/-- A node is evaluated alike in names with the same text, by induction over the syntax. -/
theorem evaluateNode_text (same : SameText places t t') (node : Node) (position : Position)
    (inside : ∀ span ∈ node.spans, span.EndsAt places)
    : t'.evaluateNode context node position = t.evaluateNode context node position := by
  cases node with
  | date value token suffix => rw [evaluateNode, evaluateNode]
  | call name args token suffix =>
      have quote := same.text (inside _ (Node.span_mem_spans _))
      simp only [Node.spans, List.forall_mem_cons] at inside
      rw [evaluateNode, evaluateNode,
        evaluateCall_text same _ name token position args quote inside.2.2.2]
  | both left right | either left right =>
      simp only [Node.spans, List.forall_mem_cons, List.forall_mem_append] at inside
      rw [evaluateNode, evaluateNode, evaluateNode_text same left _ inside.2.1,
        evaluateNode_text same right _ inside.2.2]
  | group inner span =>
      simp only [Node.spans, List.forall_mem_cons] at inside
      rw [evaluateNode, evaluateNode, evaluateNode_text same inner _ inside.2]
termination_by (sizeOf node, 0)

theorem evaluateCall_text (same : SameText places t t') (node : Node) (name : String)
    (token : Span) (position : Position) (args : List Argument)
    (quote : t'.text node.span = t.text node.span)
    (inside : ∀ span ∈ Argument.spansOfList args, span.EndsAt places)
    : t'.evaluateCall context node name token position args
      = t.evaluateCall context node name token position args := by
  unfold evaluateCall
  cases callee : Callee.ofName name with
  | now | waiting => simp only [expectNone_text quote name rfl]
  | id => simp only [expectLiteral_text quote name (same.literals inside)]
  | reference =>
      simp only [expectLiteral_text quote name (same.literals inside), referenceError_text quote]
  | helper =>
      cases args with
      | nil => simp only [semanticError_text quote]
      | cons arg rest =>
          simp only [Argument.spansOfList, List.forall_mem_append] at inside
          simp only [expectWord_text quote name rfl, fileError_text quote, helperDate_text quote,
            evaluateArguments_text same node .helper rest quote inside.2]
  | builtin =>
      cases args with
      | nil => simp only [semanticError_text quote]
      | cons arg rest =>
          simp only [Argument.spansOfList, List.forall_mem_append] at inside
          simp only [expectWord_text quote name rfl, semanticError_text quote,
            evaluateArguments_text same node .builtin rest quote inside.2]
  | _ => simp only [semanticError_text quote]
termination_by (sizeOf args, 1)

theorem evaluateArguments_text (same : SameText places t t') (node : Node) (callee : Callee)
    (args : List Argument) (quote : t'.text node.span = t.text node.span)
    (inside : ∀ span ∈ Argument.spansOfList args, span.EndsAt places)
    : t'.evaluateArguments context node callee args
      = t.evaluateArguments context node callee args := by
  cases args with
  | nil => rw [evaluateArguments, evaluateArguments]
  | cons arg args =>
      simp only [Argument.spansOfList, List.forall_mem_append] at inside
      have literal := same.text (inside.1 _ arg.span_mem_spans)
      rw [evaluateArguments, evaluateArguments, evaluateArgument_text same arg inside.1,
        evaluateArguments_text same node callee args quote inside.2]
      simp only [expectNoPlace_text quote callee literal]
termination_by (sizeOf args, 0)

theorem evaluateArgument_text (same : SameText places t t') (arg : Argument)
    (inside : ∀ span ∈ arg.spans, span.EndsAt places)
    : t'.evaluateArgument context arg = t.evaluateArgument context arg := by
  cases arg with
  | quoted value span | bare value span => rw [evaluateArgument, evaluateArgument]
  | trigger node =>
      rw [evaluateArgument, evaluateArgument, placeholder?_text same inside,
        evaluateNode_text same node _ inside]
termination_by (sizeOf arg, 0)

end

/-- Whether a name declares ids is told by its tree alone. -/
theorem declaredIds_isEmpty (root : t'.root = t.root)
    : t'.declaredIds.isEmpty = t.declaredIds.isEmpty := by
  have each (node : Node) : t'.declaredId? node = none ↔ t.declaredId? node = none := by
    unfold declaredId?
    split
    · exact ⟨nofun, nofun⟩
    · rfl
  rw [Bool.eq_iff_iff, List.isEmpty_iff, List.isEmpty_iff]
  simp only [declaredIds, root, List.filterMap_eq_nil_iff, each]

/-- A tree is evaluated alike in names with the same text, apart from their endings. -/
theorem evaluate_text (same : SameText places t t') (root : t'.root = t.root)
    (inside : ∀ span ∈ t.root.spans, span.EndsAt places)
    : t'.evaluate context
      = (fun evaluation => { evaluation with ending := t'.endingText }) <$> t.evaluate context := by
  rw [evaluate, evaluate, root, evaluateNode_text same t.root .root inside,
    declaredIds_isEmpty root]
  simp only [map_bind, map_pure]

-----------------------------------------------------------------------------------------
-- Done names
-----------------------------------------------------------------------------------------

/-- A node is written anew alike in names with the same text, whatever the ending of the evaluated
name, by induction over the syntax outside of arguments.
-/
theorem doneNode_text (same : SameText places t t') (evaluation : Evaluation) (ending : String)
    (node : Node) (inside : ∀ span ∈ node.spans, span.EndsAt places)
    : t'.doneNode context { evaluation with ending } node
      = t.doneNode context evaluation node := by
  cases node with
  | date value token suffix =>
      simp only [Node.spans, List.forall_mem_cons] at inside
      obtain ⟨-, tokens, marks, -⟩ := inside
      rw [doneNode, doneNode]
      simp only [doneDate, same _ _ tokens.1 marks.2, same _ _ tokens.2 marks.2]
      rfl
  | call name args token suffix =>
      simp only [Node.spans, List.forall_mem_cons] at inside
      obtain ⟨-, tokens, marks, -⟩ := inside
      have whole : t'.text ⟨token.start, suffix.span.stop⟩
          = t.text ⟨token.start, suffix.span.stop⟩ :=
        same.text ⟨tokens.1, marks.2⟩
      rw [doneNode, doneNode]
      simp only [doneCall, whole, same _ _ tokens.1 marks.2, same _ _ tokens.2 marks.2]
  | both left right | either left right =>
      simp only [Node.spans, List.forall_mem_cons, List.forall_mem_append] at inside
      obtain ⟨-, lefts, rights⟩ := inside
      have between := same _ _ (lefts _ left.span_mem_spans).2 (rights _ right.span_mem_spans).1
      rw [doneNode, doneNode, doneNode_text same evaluation ending left lefts,
        doneNode_text same evaluation ending right rights, between]
  | group inner span =>
      simp only [Node.spans, List.forall_mem_cons] at inside
      obtain ⟨whole, inside⟩ := inside
      have part := inside _ inner.span_mem_spans
      rw [doneNode, doneNode, doneNode_text same evaluation ending inner inside,
        same _ _ whole.1 part.1, same _ _ part.2 whole.2]
termination_by sizeOf node

end Trigger

end DueTasks
