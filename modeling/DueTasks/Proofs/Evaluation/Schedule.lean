import DueTasks.Proofs.Evaluation.Questions
import DueTasks.Proofs.Trigger.Coverage

/-! The schedule of an evaluation.
A step that asks the context or may fail belongs to one call of the tree. Calls that stand at
different places of a name are different, so that no step that asks is scheduled twice.
-/

namespace DueTasks

-----------------------------------------------------------------------------------------
-- The calls that steps belong to
-----------------------------------------------------------------------------------------

namespace Step

/-- Whether a step asks the context. -/
def asks : Step → Bool
  | now .. | resolve .. | find .. | run .. | call .. | line .. | target .. | path .. => true
  | _ => false

/-- The call that a step asks for or may fail in. -/
def caller? : Step → Option Node
  | now node | resolve node _ | find node _ | run node _ | call node _ => some node
  | line node _ | target node | path node => some node
  | check node _ _ | fail node _ => some node
  | _ => none

/-- A step asks for no call but a given one, and may fail in no other one. -/
def BelongsTo (node : Node) (step : Step) : Prop :=
  ∀ caller, step.caller? = some caller → caller = node

/-- The node whose date a step finds, apart from its annotations. -/
def dated? : Step → Option Node
  | date node _ | now node | resolve node _ | run node _ | call node _ => some node
  | _ => none

/-- Steps that ask are those with a question, whatever has been found before. -/
theorem isSome_question? (step : Step) (values : Values)
    : (step.question? values).isSome = step.asks := by
  cases step <;> rfl

theorem BelongsTo.of_caller? {node : Node} {step : Step} (own : step.caller? = some node)
    : step.BelongsTo node :=
  fun _ found => Option.some.inj (found.symm.trans own)

theorem BelongsTo.of_none {node : Node} {step : Step} (free : step.caller? = none)
    : step.BelongsTo node := by
  intro caller found
  rw [free] at found
  cases found

theorem caller?_of_asks {step : Step} (h : step.asks = true)
    : ∃ caller, step.caller? = some caller := by
  cases step <;> first | exact ⟨_, rfl⟩ | cases h

end Step

/-- Each step that asks asks one question. -/
theorem Taken.length_questions (taken : List Taken)
    : (Taken.questions taken).length = (taken.map Taken.step).countP Step.asks := by
  induction taken with
  | nil => rfl
  | cons one taken ih =>
      have asks := one.step.isSome_question? one.before
      rw [Taken.questions, List.flatMap_cons, List.length_append, List.map_cons, List.countP_cons,
        ← asks, Nat.add_comm]
      rw [Taken.questions] at ih
      rw [ih]
      cases one.step.question? one.before <;> rfl

namespace Trigger

variable {t : Trigger} {callers : List Node} {starts starts' : List Nat}
  {first second inner : List Step} {node : Node} {start : Nat}

/-- Steps belong to the given calls, and ask only for calls with the given starts. If these differ,
no step that asks is there twice.
-/
structure Scheduled (callers : List Node) (starts : List Nat) (steps : List Step) : Prop where
  called : ∀ step ∈ steps, ∀ caller, step.caller? = some caller →
    caller ∈ callers ∧ caller.callStart?.isSome = true
  asking : ∀ step ∈ steps, step.asks = true → ∀ caller, step.caller? = some caller →
    ∃ start ∈ starts, caller.callStart? = some start
  once : starts.Nodup → (steps.filter Step.asks).Nodup

namespace Scheduled

theorem mono {callers' : List Node} (h : Scheduled callers starts first)
    (calls : callers ⊆ callers') (more : starts.Sublist starts')
    : Scheduled callers' starts' first where
  called step member caller own :=
    let ⟨among, isCall⟩ := h.called step member caller own
    ⟨calls among, isCall⟩
  asking step member asks caller own :=
    let ⟨start, among, found⟩ := h.asking step member asks caller own
    ⟨start, more.subset among, found⟩
  once distinct := h.once (distinct.sublist more)

/-- Steps that belong to no call ask nothing. -/
theorem quiet (h : ∀ step ∈ first, step.caller? = none) : Scheduled callers [] first where
  called step member caller own := by
    rw [h step member] at own
    cases own
  asking step member asks caller own := by
    rw [h step member] at own
    cases own
  once _ := by
    have none : first.filter Step.asks = [] := by
      refine List.filter_eq_nil_iff.mpr fun step member asks => ?_
      obtain ⟨caller, own⟩ := Step.caller?_of_asks asks
      rw [h step member] at own
      cases own
    rw [none]
    exact .nil

/-- A step of a call. -/
theorem single {step : Step} (own : step.BelongsTo node)
    (among : node ∈ callers) (isCall : node.callStart? = some start)
    : Scheduled callers [start] [step] where
  called := by
    refine List.forall_mem_singleton.mpr fun caller found => ?_
    rw [own caller found, isCall]
    exact ⟨among, rfl⟩
  asking := by
    refine List.forall_mem_singleton.mpr fun asks caller found => ?_
    rw [own caller found]
    exact ⟨start, List.mem_singleton_self start, isCall⟩
  once _ := List.Pairwise.sublist List.filter_sublist (List.pairwise_singleton _ step)

/-- A step that asks belongs to no call of steps with other starts. -/
theorem apart (h : Scheduled callers starts first) (isCall : node.callStart? = some start)
    (other : start ∉ starts) {step : Step} (member : step ∈ first.filter Step.asks)
    : step.caller? ≠ some node := by
  intro own
  obtain ⟨member, asks⟩ := List.mem_filter.mp member
  obtain ⟨found, among, same⟩ := h.asking step member asks node own
  rw [isCall] at same
  cases same
  exact other among

/-- Steps that ask for other calls go one behind the other. -/
theorem append (h : Scheduled callers starts first) (h' : Scheduled callers starts' second)
    : Scheduled callers (starts ++ starts') (first ++ second) where
  called := List.forall_mem_append.mpr ⟨h.called, h'.called⟩
  asking := by
    refine List.forall_mem_append.mpr ⟨?_, ?_⟩
    · exact (h.mono (List.Subset.refl _) (List.sublist_append_left ..)).asking
    · exact (h'.mono (List.Subset.refl _) (List.sublist_append_right ..)).asking
  once distinct := by
    obtain ⟨left, right, disjoint⟩ := List.nodup_append.mp distinct
    rw [List.filter_append]
    refine List.nodup_append.mpr ⟨h.once left, h'.once right, ?_⟩
    rintro step member _ member' rfl
    obtain ⟨inside, asks⟩ := List.mem_filter.mp member
    obtain ⟨caller, own⟩ := Step.caller?_of_asks asks
    obtain ⟨start, among, isCall⟩ := h.asking step inside asks caller own
    have other : start ∉ starts' := fun among' => disjoint start among start among' rfl
    exact h'.apart isCall other member' own

/-- The steps of a call enclose those of its arguments. -/
theorem enclose {opening closing : Step} (h : Scheduled callers starts inner)
    (among : node ∈ callers) (isCall : node.callStart? = some start)
    (opens : opening.BelongsTo node) (closes : closing.caller? = some node)
    (differ : opening ≠ closing)
    : Scheduled callers (start :: starts) (opening :: (inner ++ [closing])) := by
  have begun : Scheduled callers [start] [opening] := .single opens among isCall
  have ended : Scheduled callers [start] [closing] :=
    .single (.of_caller? closes) among isCall
  have before := begun.append h
  refine ⟨?_, ?_, fun distinct => ?_⟩
  · exact List.forall_mem_append.mpr ⟨before.called, ended.called⟩
  · refine List.forall_mem_append.mpr ⟨before.asking, ?_⟩
    exact (ended.mono (List.Subset.refl _) (List.sublist_append_left [start] starts)).asking
  · have other := (List.nodup_cons.mp distinct).1
    show (([opening] ++ inner ++ [closing]).filter Step.asks).Nodup
    rw [List.filter_append]
    refine List.nodup_append.mpr ⟨before.once distinct, ?_, ?_⟩
    · exact ended.once (List.pairwise_singleton _ start)
    rintro step member _ member' rfl
    obtain rfl := List.mem_singleton.mp (List.mem_filter.mp member').1
    rw [List.filter_append] at member
    rcases List.mem_append.mp member with member | member
    · exact differ (List.mem_singleton.mp (List.mem_filter.mp member).1).symm
    · exact h.apart isCall other member closes

/-- The steps of operands go in front of the one that joins them. -/
theorem operands {left right : List Node} {join : Step}
    (h : Scheduled left (left.filterMap Node.callStart?) first)
    (h' : Scheduled right (right.filterMap Node.callStart?) second) (joins : join.caller? = none)
    : Scheduled (node :: (left ++ right)) ((left ++ right).filterMap Node.callStart?)
        (first ++ second ++ [join]) := by
  have before : Scheduled (node :: (left ++ right)) _ first :=
    h.mono (List.subset_cons_of_subset node (List.subset_append_left left right)) (.refl _)
  have behind : Scheduled (node :: (left ++ right)) _ second :=
    h'.mono (List.subset_cons_of_subset node (List.subset_append_right left right)) (.refl _)
  have last : Scheduled (node :: (left ++ right)) [] [join] :=
    .quiet (List.forall_mem_singleton.mpr joins)
  rw [List.filterMap_append]
  simpa only [List.append_nil] using (before.append behind).append last

/-- An argument is checked without a question. -/
theorem check (callee : Callee) (arg : Argument) (among : node ∈ callers)
    (isCall : node.callStart?.isSome = true)
    : Scheduled callers [] [.check node callee arg] where
  called := by
    refine List.forall_mem_singleton.mpr fun caller found => ?_
    obtain rfl : node = caller := Option.some.inj found
    exact ⟨among, isCall⟩
  asking := List.forall_mem_singleton.mpr nofun
  once _ := .nil

end Scheduled

/-- The steps of a call are a single one, or those of arguments between two of its own. The last one
finds its date or fails.
-/
inductive CallSteps (t : Trigger) (node : Node) : List Argument → List Step → Prop where
  | single {step : Step} (args : List Argument) (own : step.BelongsTo node)
      (ends : step.dated? = some node ∨ ∃ error, step = .fail node error)
    : CallSteps t node args [step]
  | enclosed {opening closing : Step} (callee : Callee) (arg : Argument) (args : List Argument)
      (opens : opening.BelongsTo node) (closes : closing.caller? = some node)
      (differ : opening ≠ closing) (ends : closing.dated? = some node)
    : CallSteps t node (arg :: args)
        (opening :: (t.stepsOfArguments node callee args ++ [closing]))

theorem callSteps_fail (args : List Argument) (error : SemanticError)
    : t.CallSteps node args [.fail node error] :=
  .single args (.of_caller? rfl) (.inr ⟨error, rfl⟩)

theorem callSteps_stepsOfCall (node : Node) (name : String) (args : List Argument)
    : t.CallSteps node args (t.stepsOfCall node name args) := by
  unfold stepsOfCall
  cases Callee.ofName name with
  | now =>
      cases args with
      | nil => exact .single _ (.of_caller? rfl) (.inl rfl)
      | cons arg args => exact callSteps_fail _ _
  | waiting =>
      cases args with
      | nil => exact .single _ (.of_none rfl) (.inl rfl)
      | cons arg args => exact callSteps_fail _ _
  | id =>
      rcases args with _ | ⟨arg, _ | ⟨next, args⟩⟩
      · exact callSteps_fail _ _
      · exact .single _ (.of_none rfl) (.inl rfl)
      · exact callSteps_fail _ _
  | reference =>
      rcases args with _ | ⟨arg, _ | ⟨next, args⟩⟩
      · exact callSteps_fail _ _
      · exact .single _ (.of_caller? rfl) (.inl rfl)
      · exact callSteps_fail _ _
  | helper | builtin =>
      cases args with
      | nil => exact callSteps_fail _ _
      | cons arg args =>
          simp only [stepsOfWord]
          cases arg.word? with
          | none => exact callSteps_fail _ _
          | some word =>
              refine .enclosed _ arg args (fun _ found => ?_) rfl nofun rfl
              cases found <;> rfl
  | _ => exact callSteps_fail _ _

-----------------------------------------------------------------------------------------
-- Every call is asked for once
-----------------------------------------------------------------------------------------

theorem scheduled_suffix (suffix : Suffix) : Scheduled callers [] [.suffix suffix] :=
  .quiet (List.forall_mem_singleton.mpr rfl)

theorem belongsTo_stepIfNone (name : String) (args : List Argument) {step : Step}
    (own : step.BelongsTo node)
    : (stepIfNone node name args step).BelongsTo node := by
  cases args with
  | nil => exact own
  | cons arg args => exact .of_caller? rfl

theorem belongsTo_stepOfLiteral (name : String) (args : List Argument) {step : String → Step}
    (own : ∀ literal, (step literal).BelongsTo node)
    : (t.stepOfLiteral node name args step).BelongsTo node := by
  rcases args with _ | ⟨arg, _ | ⟨next, args⟩⟩
  · exact .of_caller? rfl
  · exact own _
  · exact .of_caller? rfl

theorem scheduled_stepOfPlaceholder? {step : Step} (found : t.stepOfPlaceholder? node = some step)
    : Scheduled node.nodes (node.nodes.filterMap Node.callStart?) [step] := by
  cases node with
  | call name args token suffix =>
      have own : step.BelongsTo (.call name args token suffix) := by
        simp only [stepOfPlaceholder?] at found
        cases callee : Callee.ofName name with
        | period | periodWords =>
            simp only [callee, Option.some.injEq] at found
            subst found
            exact belongsTo_stepIfNone _ _ (.of_none rfl)
        | line =>
            simp only [callee, Option.some.injEq] at found
            subst found
            exact belongsTo_stepOfLiteral _ _ fun _ => .of_caller? rfl
        | target | task =>
            simp only [callee, Option.some.injEq] at found
            subst found
            exact belongsTo_stepIfNone _ _ (.of_caller? rfl)
        | _ =>
            rw [callee] at found
            cases found
      refine (Scheduled.single own List.mem_cons_self rfl).mono (List.Subset.refl _) ?_
      exact List.sublist_append_left [token.start] _
  | _ => cases found

-- The statements follow the steps, as a call hands its arguments on.
mutual

/-- The steps of a node ask for each of its calls once, by induction over the syntax. -/
theorem scheduled_steps (t : Trigger) (node : Node)
    : Scheduled node.nodes (node.nodes.filterMap Node.callStart?) (t.steps node) := by
  cases node with
  | date value token suffix =>
      rw [steps]
      exact .quiet (by simp [Step.caller?])
  | call name args token suffix =>
      rw [steps]
      have shape := callSteps_stepsOfCall (t := t) (.call name args token suffix) name args
      generalize t.stepsOfCall (.call name args token suffix) name args = own at shape
      have whole : Scheduled (Node.call name args token suffix).nodes
          ((Node.call name args token suffix).nodes.filterMap Node.callStart?) own := by
        cases shape with
        | single _ own ends =>
            refine (Scheduled.single own List.mem_cons_self rfl).mono (List.Subset.refl _) ?_
            exact List.sublist_append_left [token.start] _
        | enclosed callee arg args opens closes differ ends =>
            have inner : Scheduled (Node.call name (arg :: args) token suffix).nodes
                ((Argument.nodesOfList (arg :: args)).filterMap Node.callStart?)
                (t.stepsOfArguments (.call name (arg :: args) token suffix) callee args) := by
              refine (scheduled_stepsOfArguments t callee args rfl).mono ?_ ?_
              · exact List.cons_subset_cons _ (List.subset_append_right ..)
              · exact (List.sublist_append_right ..).filterMap _
            exact inner.enclose List.mem_cons_self rfl opens closes differ
      simpa using whole.append (scheduled_suffix suffix)
  | both left right | either left right =>
      rw [steps]
      exact (scheduled_steps t left).operands (scheduled_steps t right) rfl
  | group inner span =>
      rw [steps, Node.nodes]
      exact (scheduled_steps t inner).mono (List.subset_cons_self ..) (List.Sublist.refl _)
termination_by (sizeOf node, 0)

theorem scheduled_stepsOfArguments (t : Trigger) (callee : Callee) (args : List Argument)
    {caller : Node} (isCall : caller.callStart?.isSome = true)
    : Scheduled (caller :: Argument.nodesOfList args)
        ((Argument.nodesOfList args).filterMap Node.callStart?)
        (t.stepsOfArguments caller callee args) := by
  cases args with
  | nil =>
      rw [stepsOfArguments]
      exact .quiet (List.forall_mem_nil _)
  | cons arg args =>
      rw [stepsOfArguments, Argument.nodesOfList, List.filterMap_append]
      have first := (scheduled_stepsOfArgument t arg).mono
        (List.subset_cons_of_subset caller
          (List.subset_append_left arg.nodes (Argument.nodesOfList args))) (.refl _)
      have rest := (scheduled_stepsOfArguments t callee args isCall).mono
        (List.cons_subset_cons caller (List.subset_append_right arg.nodes _)) (.refl _)
      exact first.append ((Scheduled.check callee arg List.mem_cons_self isCall).append rest)
termination_by (sizeOf args, 0)

theorem scheduled_stepsOfArgument (t : Trigger) (arg : Argument)
    : Scheduled arg.nodes (arg.nodes.filterMap Node.callStart?) (t.stepsOfArgument arg) := by
  cases arg with
  | quoted value span | bare value span =>
      rw [stepsOfArgument]
      exact .quiet (List.forall_mem_singleton.mpr rfl)
  | trigger node =>
      rw [stepsOfArgument, Argument.nodes]
      cases found : t.stepOfPlaceholder? node with
      | some step => exact scheduled_stepOfPlaceholder? found
      | none =>
          have text : Scheduled node.nodes [] [Step.text] :=
            .quiet (List.forall_mem_singleton.mpr rfl)
          simpa using (scheduled_steps t node).append text
termination_by (sizeOf arg, 0)

end

end Trigger

end DueTasks
