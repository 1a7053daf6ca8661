import DueTasks.Proofs.Evaluation.Records

/-! What is noted about a trigger.
Annotations, operators and calls are noted wherever they stand outside of arguments, and references
wherever they are visited. The arguments of every helper call and every builtin call that is visited
are recorded under the place where the call starts, once each and in the order of the text.
-/

namespace DueTasks

-----------------------------------------------------------------------------------------
-- Nodes outside of arguments
-----------------------------------------------------------------------------------------

namespace Node

/-- The nodes outside of arguments, in the order of the text. -/
def outer : Node → List Node
  | .date value token suffix => [.date value token suffix]
  | .call name args token suffix => [.call name args token suffix]
  | .both left right => .both left right :: (left.outer ++ right.outer)
  | .either left right => .either left right :: (left.outer ++ right.outer)
  | .group inner span => .group inner span :: inner.outer

/-- Nodes outside of arguments are visited, by induction over the syntax. -/
theorem outer_subset_visited (node : Node) : node.outer ⊆ node.visited := by
  induction node using Node.outer.induct with
  | case1 value token suffix => exact List.Subset.refl _
  | case2 name args token suffix =>
      rw [outer, visited]
      exact List.cons_subset_cons _ (List.nil_subset _)
  | case3 left right ih ih' | case4 left right ih ih' =>
      rw [outer, visited]
      refine List.cons_subset_cons _ (List.append_subset.mpr ⟨?_, ?_⟩)
      · exact List.subset_append_of_subset_left _ ih
      · exact List.subset_append_of_subset_right _ ih'
  | case5 inner span ih =>
      rw [outer, visited]
      exact List.cons_subset_cons _ ih

/-- A node without the parentheses around it. -/
def ungrouped : Node → Node
  | .group inner _ => inner.ungrouped
  | node => node

def isOperator : Node → Bool
  | .both .. => true
  | .either .. => true
  | _ => false

def isCall : Node → Bool
  | .call .. => true
  | _ => false

/-- The time annotation of a date or a call. -/
def time? (node : Node) : Option ClockTime :=
  node.suffix? >>= Suffix.time

/-- The priority annotation of a date or a call. -/
def priority? (node : Node) : Option UInt32 :=
  node.suffix? >>= Suffix.priority

end Node

/-- Whether operators stand in a node outside of arguments. -/
def Node.joins : Node → Bool
  | .date .. => false
  | .call .. => false
  | .both .. => true
  | .either .. => true
  | .group inner _ => inner.joins

/-- Where the helper calls of a node start, those in arguments apart, in the order of the text. -/
def Node.helperStarts : Node → List Nat
  | .date .. => []
  | .call name _ token _ => if Callee.ofName name = .helper then [token.start] else []
  | .both left right => left.helperStarts ++ right.helperStarts
  | .either left right => left.helperStarts ++ right.helperStarts
  | .group inner _ => inner.helperStarts

namespace Node

theorem joins_eq_any (node : Node) : node.joins = node.outer.any isOperator := by
  induction node using Node.outer.induct with
  | case1 | case2 | case3 | case4 => rfl
  | case5 inner span ih => simpa [joins, outer, isOperator] using ih

/-- Helper calls outside of arguments are visited, by induction over the syntax. -/
theorem helperStarts_subset (node : Node) : node.helperStarts ⊆ recordedStarts node.visited := by
  induction node using Node.outer.induct with
  | case1 value token suffix => exact List.nil_subset _
  | case2 name args token suffix =>
      rw [helperStarts]
      split
      · rename_i helper
        obtain rfl := Callee.ofName_eq_helper.mp helper
        rw [visited, recordedStarts_cons_of_callsOut rfl]
        exact List.cons_subset_cons _ (List.nil_subset _)
      · exact List.nil_subset _
  | case3 left right ih ih' | case4 left right ih ih' =>
      rw [helperStarts, visited, recordedStarts_cons rfl, recordedStarts_append]
      refine List.append_subset.mpr ⟨?_, ?_⟩
      · exact List.subset_append_of_subset_left _ ih
      · exact List.subset_append_of_subset_right _ ih'
  | case5 inner span ih => exact ih

end Node

-----------------------------------------------------------------------------------------
-- Notes on a node
-----------------------------------------------------------------------------------------

namespace Notes

@[simp] theorem isRepeating_append (earlier later : Notes)
    : (earlier ++ later).isRepeating = (earlier.isRepeating || later.isRepeating) := rfl

@[simp] theorem isWaiting_append (earlier later : Notes)
    : (earlier ++ later).isWaiting = (earlier.isWaiting || later.isWaiting) := rfl

@[simp] theorem usesExpression_append (earlier later : Notes)
    : (earlier ++ later).usesExpression = (earlier.usesExpression || later.usesExpression) := rfl

@[simp] theorem usesOperators_append (earlier later : Notes)
    : (earlier ++ later).usesOperators = (earlier.usesOperators || later.usesOperators) := rfl

@[simp] theorem usesReference_append (earlier later : Notes)
    : (earlier ++ later).usesReference = (earlier.usesReference || later.usesReference) := rfl

@[simp] theorem priority_append (earlier later : Notes)
    : (earlier ++ later).priority = later.priority.or earlier.priority := rfl

@[simp] theorem time_append (earlier later : Notes)
    : (earlier ++ later).time = later.time.or earlier.time := rfl

/-- What the notes on a node say about it. For a whole argument nothing counts but whether calls are
used, which references are visited and which calls are recorded.
-/
structure OfNode (node : Node) (position : Position) (notes : Notes) : Prop where
  isRepeating
    : notes.isRepeating = (position != .argument && node.outer.any (·.repetition?.isSome))
  isWaiting : notes.isWaiting = (position == .root && node.ungrouped.isCallOf "waiting")
  usesExpression : notes.usesExpression = node.outer.any Node.isCall
  usesOperators : notes.usesOperators = (position != .argument && node.joins)
  usesReference : notes.usesReference = node.visited.any (Node.isCallOf "ref")
  priority
    : notes.priority
      = if position = .argument then none else (node.outer.filterMap Node.priority?).getLast?
  time
    : notes.time
      = if position = .argument then none else (node.outer.filterMap Node.time?).getLast?
  /-- Records are put in order by where calls start, so that they are told by the nodes only if these
  do too.
  -/
  starts
    : (node.nodes.filterMap Node.callStart?).Pairwise (· < ·)
      → notes.calls.starts = Node.recordedStarts node.visited

/-- What the notes on a call without its annotations say, or those on arguments. They have no
annotations of the task and no operators, and may be those of a task that waits.
-/
structure Inside (nodes visited : List Node) (waits : Bool) (notes : Notes) : Prop where
  isRepeating : notes.isRepeating = false
  isWaiting : notes.isWaiting = waits
  usesOperators : notes.usesOperators = false
  usesReference : notes.usesReference = visited.any (Node.isCallOf "ref")
  priority : notes.priority = none
  time : notes.time = none
  starts
    : (nodes.filterMap Node.callStart?).Pairwise (· < ·)
      → notes.calls.starts = Node.recordedStarts visited

variable {first second : Notes} {position : Position} {node left right : Node}

/-- Annotations count outside of arguments. -/
theorem ofSuffix_eq (suffix : Suffix) (position : Position)
    : ofSuffix suffix position
      = { isRepeating := position != .argument && suffix.repetition.isSome
          priority := if position = .argument then none else suffix.priority
          time := if position = .argument then none else suffix.time } := by
  unfold ofSuffix
  by_cases inside : position = .argument
  · subst inside
    rfl
  · simp only [if_neg inside, bne_iff_ne.mpr inside, Bool.true_and]

/-- The last annotation of a single node is its own. -/
theorem getLast?_filterMap_single {α : Type} (mark : Node → Option α) (node : Node)
    : ([node].filterMap mark).getLast? = mark node := by
  cases found : mark node with
  | none => simp [found]
  | some value => simp [found]

/-- The notes on a date and its annotations. -/
theorem ofNode_date (value : Date) (token : Span) (suffix : Suffix) (position : Position)
    : OfNode (.date value token suffix) position (.ofSuffix suffix position) := by
  rw [ofSuffix_eq]
  constructor
  case isRepeating => simp [Node.outer, Node.repetition?, Node.suffix?]
  case isWaiting => simp [Node.ungrouped, Node.isCallOf]
  case usesExpression => rfl
  case usesOperators => simp [Node.joins]
  case usesReference => rfl
  case priority =>
    rw [Node.outer, getLast?_filterMap_single]
    rfl
  case time =>
    rw [Node.outer, getLast?_filterMap_single]
    rfl
  case starts => exact fun _ => rfl

/-- The notes on a call, with those on its arguments and on its annotations. -/
theorem Inside.call {name : String} {args : List Argument} {token : Span} {suffix : Suffix}
    (h : Inside (Node.call name args token suffix).nodes (Node.call name args token suffix).visited
      (position == .root && name == "waiting") first)
    : OfNode (.call name args token suffix) position
        ({ usesExpression := true } ++ first ++ .ofSuffix suffix position) := by
  constructor
  case isRepeating =>
    simp [ofSuffix_eq, h.isRepeating, Node.outer, Node.repetition?, Node.suffix?]
  case isWaiting => simp [ofSuffix_eq, h.isWaiting, Node.ungrouped, Node.isCallOf]
  case usesExpression => simp [Node.outer, Node.isCall]
  case usesOperators => simp [ofSuffix_eq, h.usesOperators, Node.joins]
  case usesReference => simp [ofSuffix_eq, h.usesReference]
  case priority =>
    rw [ofSuffix_eq, Node.outer, getLast?_filterMap_single, priority_append, priority_append,
      h.priority]
    exact Option.or_none
  case time =>
    rw [ofSuffix_eq, Node.outer, getLast?_filterMap_single, time_append, time_append, h.time]
    exact Option.or_none
  case starts =>
    intro sorted
    have visited := sorted.sublist (Node.recordedStarts_sublist (Node.visited_sublist _))
    rw [Trigger.calls_of_call (h.starts sorted ▸ visited)]
    exact h.starts sorted

/-- The last annotation of two operands is that of the second one, if it has any. -/
theorem getLast?_filterMap_operands {α : Type} {mark : Node → Option α} {node : Node}
    (bare : mark node = none) (first second : List Node)
    : ((node :: (first ++ second)).filterMap mark).getLast?
      = (second.filterMap mark).getLast?.or (first.filterMap mark).getLast? := by
  rw [List.filterMap_cons_none bare, List.filterMap_append, List.getLast?_append]

/-- Operands are arguments exactly if their operator is one. -/
theorem ofOperands_ne_argument (position : Position)
    : (position.ofOperands != .argument) = (position != .argument) := by
  cases position <;> rfl

/-- The notes on an operator and its operands. -/
theorem OfNode.operator (joins : node = .both left right ∨ node = .either left right)
    (h : OfNode left position.ofOperands first) (h' : OfNode right position.ofOperands second)
    : OfNode node position (ofOperator position ++ first ++ second) := by
  have outer : node.outer = node :: (left.outer ++ right.outer) := by
    rcases joins with rfl | rfl <;> rfl
  have visited : node.visited = node :: (left.visited ++ right.visited) := by
    rcases joins with rfl | rfl <;> rfl
  have bare : node.suffix? = none := by rcases joins with rfl | rfl <;> rfl
  have ungrouped : node.ungrouped.isCallOf "waiting" = false := by
    rcases joins with rfl | rfl <;> rfl
  have uncalled
      : node.isCall = false ∧ node.isCallOf "ref" = false ∧ node.callsOut = false
        ∧ node.joins = true := by
    rcases joins with rfl | rfl <;> exact ⟨rfl, rfl, rfl, rfl⟩
  have below : (position.ofOperands == .root) = false := by cases position <;> rfl
  have inside : position.ofOperands = .argument ↔ position = .argument := by
    cases position <;> simp [Position.ofOperands]
  constructor
  case isRepeating =>
    simp [h.isRepeating, h'.isRepeating, ofOperands_ne_argument, outer, Node.repetition?, bare,
      ofOperator, Bool.and_or_distrib_left]
  case isWaiting =>
    simp [h.isWaiting, h'.isWaiting, below, ungrouped, ofOperator]
  case usesExpression =>
    simp [h.usesExpression, h'.usesExpression, outer, uncalled, ofOperator]
  case usesOperators =>
    simp only [usesOperators_append, h.usesOperators, h'.usesOperators, ofOperands_ne_argument,
      uncalled, ofOperator]
    cases position != .argument <;> simp
  case usesReference =>
    simp [h.usesReference, h'.usesReference, visited, uncalled, ofOperator]
  case priority =>
    rw [outer, getLast?_filterMap_operands (by rw [Node.priority?, bare]; rfl), priority_append,
      priority_append, h.priority, h'.priority]
    simp only [inside]
    split <;> simp [ofOperator]
  case time =>
    rw [outer, getLast?_filterMap_operands (by rw [Node.time?, bare]; rfl), time_append,
      time_append, h.time, h'.time]
    simp only [inside]
    split <;> simp [ofOperator]
  case starts =>
    intro sorted
    obtain ⟨sorted, sorted', recorded⟩ := Trigger.sorted_operands joins sorted
    rw [visited, Node.recordedStarts_cons uncalled.2.2.1, Node.recordedStarts_append]
    exact Trigger.starts_of_operator position (h.starts sorted) (h'.starts sorted') recorded

/-- The notes on a node in parentheses are those on the node itself. -/
theorem OfNode.group (h : OfNode node position first) (span : Span)
    : OfNode (.group node span) position first :=
  ⟨h.isRepeating, h.isWaiting, h.usesExpression, h.usesOperators, h.usesReference, h.priority,
    h.time, h.starts⟩

/-- The notes on arguments one behind the other. -/
theorem Inside.append {nodes nodes' visited visited' : List Node}
    (h : Inside nodes visited false first) (h' : Inside nodes' visited' false second)
    (part : visited.Sublist nodes) (part' : visited'.Sublist nodes')
    : Inside (nodes ++ nodes') (visited ++ visited') false (first ++ second) where
  isRepeating := by rw [isRepeating_append, h.isRepeating, h'.isRepeating]; rfl
  isWaiting := by rw [isWaiting_append, h.isWaiting, h'.isWaiting]; rfl
  usesOperators := by rw [usesOperators_append, h.usesOperators, h'.usesOperators]; rfl
  usesReference := by
    rw [usesReference_append, h.usesReference, h'.usesReference, List.any_append]
  priority := by rw [priority_append, h.priority, h'.priority]; rfl
  time := by rw [time_append, h.time, h'.time]; rfl
  starts := by
    intro sorted
    have recorded := sorted.sublist (Node.recordedStarts_sublist (part.append part'))
    rw [List.filterMap_append] at sorted
    obtain ⟨sorted, sorted', -⟩ := List.pairwise_append.mp sorted
    rw [Node.recordedStarts_append] at recorded ⊢
    exact Trigger.starts_append (h.starts sorted) (h'.starts sorted') recorded

/-- The notes on the arguments of a helper or a builtin, with the record of the call itself. -/
theorem Inside.record {name : String} {arg : Argument} {rest : List Argument} {token : Span}
    {suffix : Suffix}
    (h : Inside (Argument.nodesOfList rest) (Argument.visitedOfList rest) false first)
    (word : arg.visited = []) (outward : (name == "bin" || name == "builtin") = true)
    (args : List HelperArg)
    : Inside (Node.call name (arg :: rest) token suffix).nodes
        (Node.call name (arg :: rest) token suffix).visited
        (position == .root && name == "waiting") (first ++ { calls := [(token.start, args)] }) := by
  have named : name = "bin" ∨ name = "builtin" := by simpa using outward
  have other : (name == "waiting") = false ∧ (name == "ref") = false := by
    rcases named with rfl | rfl <;> exact ⟨rfl, rfl⟩
  constructor
  case isRepeating => simp [h.isRepeating]
  case isWaiting => simp [h.isWaiting, other]
  case usesOperators => simp [h.usesOperators]
  case usesReference =>
    simp [h.usesReference, Node.visited, outward, Argument.visitedOfList, word, Node.isCallOf,
      other]
  case priority => simp [h.priority]
  case time => simp [h.time]
  case starts =>
    intro sorted
    have recorded := h.starts (Trigger.sorted_rest sorted)
    rw [Trigger.calls_of_record args (recorded ▸ Trigger.sorted_record sorted), Node.visited,
      Node.recordedStarts_cons_of_callsOut outward, if_pos outward, Argument.visitedOfList, word]
    exact congrArg (token.start :: ·) recorded

/-- The notes on an argument that is a trigger. -/
theorem OfNode.inside (h : OfNode node .argument first)
    : Inside node.nodes node.visited false first :=
  ⟨h.isRepeating, h.isWaiting, h.usesOperators, h.usesReference, h.priority, h.time, h.starts⟩

end Notes

-----------------------------------------------------------------------------------------
-- Notes of an evaluation
-----------------------------------------------------------------------------------------

namespace Trigger

open Asking

variable {σ : Type} (t : Trigger) (context : Context σ)

-- The statements follow the evaluators, as a call hands its arguments on to be evaluated.
mutual

/-- The notes on a node tell what it says, by induction over the syntax. -/
theorem evaluateNode_notes (node : Node) (position : Position)
    : Ensures (fun noted => Notes.OfNode node position noted.notes)
        (t.evaluateNode context node position) := by
  cases node with
  | date value token suffix =>
      rw [evaluateNode]
      exact .pure (Notes.ofNode_date value token suffix position)
  | call name args token suffix =>
      rw [evaluateNode]
      refine (evaluateCall_notes name token position args suffix).bind fun call inside => ?_
      exact .pure inside.call
  | both left right | either left right =>
      rw [evaluateNode]
      refine (evaluateNode_notes left _).bind fun first told => ?_
      refine (evaluateNode_notes right _).bind fun second told' => ?_
      exact .pure (told.operator (by simp) told')
  | group inner span =>
      rw [evaluateNode]
      exact (evaluateNode_notes inner position).mono fun noted told => told.group span
termination_by (sizeOf node, 0)

/-- The notes on a call tell whether it waits, and which references are visited and which arguments
are recorded for it.
-/
theorem evaluateCall_notes (name : String) (token : Span) (position : Position)
    (args : List Argument) (suffix : Suffix)
    : Ensures
        (fun call =>
          Notes.Inside (Node.call name args token suffix).nodes
            (Node.call name args token suffix).visited (position == .root && name == "waiting")
            call.notes)
        (t.evaluateCall context (.call name args token suffix) name token position args) := by
  unfold evaluateCall
  cases callee : Callee.ofName name with
  | now =>
      obtain rfl := (Callee.ofName_eq .now nofun).mp callee
      refine (Ensures.trivial _).bind fun _ _ => ?_
      refine (Ensures.trivial _).bind fun _ _ => .pure ?_
      exact ⟨rfl, (Bool.and_false _).symm, rfl, rfl, rfl, rfl, fun _ => rfl⟩
  | id =>
      obtain rfl := (Callee.ofName_eq .id nofun).mp callee
      refine (Ensures.trivial _).bind fun _ _ => .pure ?_
      exact ⟨rfl, (Bool.and_false _).symm, rfl, rfl, rfl, rfl, fun _ => rfl⟩
  | reference =>
      obtain rfl := Callee.ofName_eq_reference.mp callee
      refine (Ensures.trivial _).bind fun id _ => ?_
      refine (Ensures.trivial _).bind fun _ _ => .pure ?_
      exact ⟨rfl, (Bool.and_false _).symm, rfl, rfl, rfl, rfl, fun _ => rfl⟩
  | waiting =>
      obtain rfl := Callee.ofName_eq_waiting.mp callee
      refine (Ensures.trivial _).bind fun _ _ => .pure ?_
      exact ⟨rfl, (Bool.and_true _).symm, rfl, rfl, rfl, rfl, fun _ => rfl⟩
  | helper =>
      obtain rfl := Callee.ofName_eq_helper.mp callee
      cases args with
      | nil => exact .throw _
      | cons arg rest =>
          refine (expectWord_ensures _ _ _).bind fun program word => ?_
          refine (Ensures.trivial _).bind fun path _ => ?_
          refine (evaluateArguments_notes _ .helper rest).bind fun values inside => ?_
          exact (Ensures.trivial _).bind fun date _ => .pure (inside.record word rfl _)
  | builtin =>
      obtain rfl := Callee.ofName_eq_builtin.mp callee
      cases args with
      | nil => exact .throw _
      | cons arg rest =>
          refine (expectWord_ensures _ _ _).bind fun builtin word => ?_
          refine (evaluateArguments_notes _ .builtin rest).bind fun values inside => ?_
          exact (Ensures.trivial _).bind fun date _ => .pure (inside.record word rfl _)
  | _ => exact .throw _
termination_by (sizeOf args, 1)

/-- The notes on arguments tell what is visited for them. -/
theorem evaluateArguments_notes (node : Node) (callee : Callee) (args : List Argument)
    : Ensures
        (fun values =>
          Notes.Inside (Argument.nodesOfList args) (Argument.visitedOfList args) false values.notes)
        (t.evaluateArguments context node callee args) := by
  cases args with
  | nil =>
      rw [evaluateArguments]
      exact .pure ⟨rfl, rfl, rfl, rfl, rfl, rfl, fun _ => rfl⟩
  | cons arg args =>
      rw [evaluateArguments]
      refine (evaluateArgument_notes arg).bind fun first inside => ?_
      refine (Ensures.trivial _).bind fun _ _ => ?_
      refine (evaluateArguments_notes node callee args).bind fun rest inside' => .pure ?_
      exact inside.append inside' arg.visited_sublist (Argument.visitedOfList_sublist args)
termination_by (sizeOf args, 0)

/-- The notes on an argument tell what is visited for it. -/
theorem evaluateArgument_notes (arg : Argument)
    : Ensures (fun value => Notes.Inside arg.nodes arg.visited false value.notes)
        (t.evaluateArgument context arg) := by
  cases arg with
  | quoted value span | bare value span =>
      rw [evaluateArgument]
      exact .pure ⟨rfl, rfl, rfl, rfl, rfl, rfl, fun _ => rfl⟩
  | trigger node =>
      have place : (t.placeholder? context node).isSome = node.isPlaceholder :=
        t.isSome_placeholder? node
      rw [evaluateArgument, Argument.visited, ← place]
      cases t.placeholder? context node with
      | some action =>
          refine (Ensures.trivial _).bind fun _ _ => .pure ?_
          exact ⟨rfl, rfl, rfl, rfl, rfl, rfl, fun _ => rfl⟩
      | none =>
          refine (evaluateNode_notes node .argument).bind fun date told => ?_
          exact .pure told.inside
termination_by (sizeOf arg, 0)

end

-----------------------------------------------------------------------------------------
-- Names
-----------------------------------------------------------------------------------------

variable {t context}

theorem evaluate_notes
    : Ensures (fun evaluation => Notes.OfNode t.root .root evaluation.notes)
        (t.evaluate context) :=
  (t.evaluateNode_notes context t.root .root).bind fun _ told => .pure told

/-- A task may be renamed to a repeat exactly if it declares no ids. -/
theorem evaluate_canRepeat
    : Ensures (fun evaluation => evaluation.canRepeat = t.declaredIds.isEmpty)
        (t.evaluate context) :=
  (Ensures.trivial _).bind fun _ _ => .pure rfl

/-- The evaluation of a name that was read records, in ascending order, where the helper calls and
builtin calls start that it visits.
-/
theorem evaluate_records {name : String} (parsed : parse name = .ok t)
    : Ensures
        (fun evaluation =>
          evaluation.notes.calls.starts = Node.recordedStarts t.root.visited
          ∧ evaluation.notes.calls.starts.Pairwise (· < ·))
        (t.evaluate context) := by
  have sorted := calls_ascending parsed
  have visited := sorted.sublist (Node.recordedStarts_sublist t.root.visited_sublist)
  refine evaluate_notes.mono fun evaluation told => ?_
  have recorded := told.starts sorted
  exact ⟨recorded, recorded ▸ visited⟩

/-- The evaluation of a name that was read knows the arguments of the helper calls outside of
arguments.
-/
theorem evaluate_knows {name : String} (parsed : parse name = .ok t)
    : Ensures
        (fun evaluation =>
          ∀ start ∈ t.root.helperStarts, (evaluation.notes.calls.lookup start).isSome = true)
        (t.evaluate context) := by
  refine (evaluate_records parsed).mono fun evaluation recorded start member => ?_
  have started : start ∈ evaluation.notes.calls.starts :=
    recorded.1 ▸ t.root.helperStarts_subset member
  obtain ⟨entry, found, rfl⟩ := List.mem_map.mp started
  exact List.lookup_isSome_iff.mpr ⟨entry, found, beq_self_eq_true _⟩

end Trigger

end DueTasks
