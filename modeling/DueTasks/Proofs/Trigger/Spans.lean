import DueTasks.Trigger.Syntax

/-! Triggers apart from where they were read.
Every span of a trigger can be changed at once. Two triggers that were read from different places
are compared by moving one of them, or by forgetting the spans of both.
-/

namespace DueTasks

/-- The span in a text that has its stretch from `base` on at `base'`. -/
def Span.move (base base' : Nat) (span : Span) : Span :=
  ⟨base' + (span.start - base), base' + (span.stop - base)⟩

/-- No span in particular. -/
def Span.none : Span :=
  ⟨0, 0⟩

@[simp] theorem Span.move_mk (base base' start stop : Nat)
    : Span.move base base' ⟨base + start, base + stop⟩ = ⟨base' + start, base' + stop⟩ := by
  simp only [move, Nat.add_sub_cancel_left]

/-- Moving nothing changes no span. -/
theorem Span.move_zero : Span.move 0 0 = id := by
  funext span
  simp [move]

/-- The annotations with another span. -/
def Suffix.mapSpan (change : Span → Span) (suffix : Suffix) : Suffix :=
  { suffix with span := change suffix.span }

mutual

/-- The node with every span changed. -/
def Node.mapSpans (change : Span → Span) : Node → Node
  | .date value token suffix => .date value (change token) (suffix.mapSpan change)
  | .call name args token suffix =>
      .call name (Argument.mapSpansOfList change args) (change token) (suffix.mapSpan change)
  | .both left right => .both (left.mapSpans change) (right.mapSpans change)
  | .either left right => .either (left.mapSpans change) (right.mapSpans change)
  | .group inner span => .group (inner.mapSpans change) (change span)

/-- The argument with every span changed. -/
def Argument.mapSpans (change : Span → Span) : Argument → Argument
  | .quoted value span => .quoted value (change span)
  | .bare value span => .bare value (change span)
  | .trigger node => .trigger (node.mapSpans change)

/-- The arguments with every span changed. -/
def Argument.mapSpansOfList (change : Span → Span) : List Argument → List Argument
  | [] => []
  | arg :: args => arg.mapSpans change :: Argument.mapSpansOfList change args

end

mutual

/-- Changing spans twice is changing them once, by induction over the syntax. -/
theorem Node.mapSpans_mapSpans (first second : Span → Span) (node : Node)
    : (node.mapSpans first).mapSpans second = node.mapSpans (second ∘ first) := by
  cases node with
  | date value token suffix => rfl
  | call name args token suffix =>
      simp only [Node.mapSpans, Argument.mapSpansOfList_mapSpansOfList first second args]
      rfl
  | both left right | either left right =>
      simp only [Node.mapSpans, Node.mapSpans_mapSpans first second left,
        Node.mapSpans_mapSpans first second right]
  | group inner span =>
      simp only [Node.mapSpans, Node.mapSpans_mapSpans first second inner]
      rfl
termination_by sizeOf node

theorem Argument.mapSpans_mapSpans (first second : Span → Span) (arg : Argument)
    : (arg.mapSpans first).mapSpans second = arg.mapSpans (second ∘ first) := by
  cases arg with
  | quoted value span | bare value span => rfl
  | trigger node => simp only [Argument.mapSpans, Node.mapSpans_mapSpans first second node]
termination_by sizeOf arg

theorem Argument.mapSpansOfList_mapSpansOfList (first second : Span → Span) (args : List Argument)
    : Argument.mapSpansOfList second (Argument.mapSpansOfList first args)
      = Argument.mapSpansOfList (second ∘ first) args := by
  cases args with
  | nil => rfl
  | cons arg args =>
      simp only [Argument.mapSpansOfList, Argument.mapSpans_mapSpans first second arg,
        Argument.mapSpansOfList_mapSpansOfList first second args]
termination_by sizeOf args

end

mutual

/-- Changing no span changes nothing, by induction over the syntax. -/
theorem Node.mapSpans_id (node : Node) : node.mapSpans id = node := by
  cases node with
  | date value token suffix => rfl
  | call name args token suffix =>
      simp only [Node.mapSpans, Argument.mapSpansOfList_id args]
      rfl
  | both left right | either left right =>
      simp only [Node.mapSpans, Node.mapSpans_id left, Node.mapSpans_id right]
  | group inner span =>
      simp only [Node.mapSpans, Node.mapSpans_id inner]
      rfl
termination_by sizeOf node

theorem Argument.mapSpans_id (arg : Argument) : arg.mapSpans id = arg := by
  cases arg with
  | quoted value span | bare value span => rfl
  | trigger node => simp only [Argument.mapSpans, Node.mapSpans_id node]
termination_by sizeOf arg

theorem Argument.mapSpansOfList_id (args : List Argument)
    : Argument.mapSpansOfList id args = args := by
  cases args with
  | nil => rfl
  | cons arg args =>
      simp only [Argument.mapSpansOfList, Argument.mapSpans_id arg,
        Argument.mapSpansOfList_id args]
termination_by sizeOf args

end

mutual

/-- Changed spans are changed in every node below, by induction over the syntax. -/
theorem Node.nodes_mapSpans (change : Span → Span) (node : Node)
    : (node.mapSpans change).nodes = node.nodes.map (Node.mapSpans change) := by
  cases node with
  | date value token suffix => rfl
  | call name args token suffix =>
      rw [Node.nodes, List.map_cons, ← Argument.nodesOfList_mapSpansOfList change args]
      rfl
  | both left right | either left right =>
      rw [Node.nodes, List.map_cons, List.map_append, ← Node.nodes_mapSpans change left,
        ← Node.nodes_mapSpans change right]
      rfl
  | group inner span =>
      rw [Node.nodes, List.map_cons, ← Node.nodes_mapSpans change inner]
      rfl
termination_by sizeOf node

theorem Argument.nodes_mapSpans (change : Span → Span) (arg : Argument)
    : (arg.mapSpans change).nodes = arg.nodes.map (Node.mapSpans change) := by
  cases arg with
  | quoted value span | bare value span => rfl
  | trigger node => exact Node.nodes_mapSpans change node
termination_by sizeOf arg

theorem Argument.nodesOfList_mapSpansOfList (change : Span → Span) (args : List Argument)
    : Argument.nodesOfList (Argument.mapSpansOfList change args)
      = (Argument.nodesOfList args).map (Node.mapSpans change) := by
  cases args with
  | nil => rfl
  | cons arg args =>
      rw [Argument.nodesOfList, List.map_append, ← Argument.nodes_mapSpans change arg,
        ← Argument.nodesOfList_mapSpansOfList change args]
      rfl
termination_by sizeOf args

end

/-- A node and its parts are moved together, by induction over the syntax. -/
theorem Node.span_move (base base' : Nat) (node : Node)
    : (node.mapSpans (Span.move base base')).span = node.span.move base base' := by
  induction node using Node.span.induct with
  | case1 value token suffix => rfl
  | case2 name args token suffix => rfl
  | case3 left right ih ih' | case4 left right ih ih' =>
      rw [Node.mapSpans, Node.span, ih, ih']
      rfl
  | case5 inner span => rfl

theorem Argument.span_move (base base' : Nat) (arg : Argument)
    : (arg.mapSpans (Span.move base base')).span = arg.span.move base base' := by
  cases arg with
  | quoted value span | bare value span => rfl
  | trigger node => exact node.span_move base base'

/-- The annotations without their span. -/
def Suffix.plain (suffix : Suffix) : Suffix :=
  suffix.mapSpan fun _ => Span.none

/-- The node without its spans. -/
def Node.plain (node : Node) : Node :=
  node.mapSpans fun _ => Span.none

/-- The argument without its spans. -/
def Argument.plain (arg : Argument) : Argument :=
  arg.mapSpans fun _ => Span.none

/-- The arguments without their spans. -/
def Argument.plainList (args : List Argument) : List Argument :=
  Argument.mapSpansOfList (fun _ => Span.none) args

/-- Annotations that are the same apart from their spans have the same repeat. -/
theorem Suffix.repetition_eq_of_plain {suffix suffix' : Suffix}
    (same : suffix'.plain = suffix.plain)
    : suffix'.repetition = suffix.repetition := by
  have plain : suffix'.plain.repetition = suffix.plain.repetition := by rw [same]
  exact plain

@[simp] theorem Suffix.plain_mapSpan (change : Span → Span) (suffix : Suffix)
    : (suffix.mapSpan change).plain = suffix.plain := rfl

@[simp] theorem Argument.plainList_mapSpansOfList (change : Span → Span) (args : List Argument)
    : Argument.plainList (Argument.mapSpansOfList change args) = Argument.plainList args :=
  Argument.mapSpansOfList_mapSpansOfList ..

@[simp] theorem Node.plain_date (value : Date) (token : Span) (suffix : Suffix)
    : (Node.date value token suffix).plain = .date value Span.none suffix.plain := rfl

@[simp] theorem Node.plain_call (name : String) (args : List Argument) (token : Span)
    (suffix : Suffix)
    : (Node.call name args token suffix).plain
      = .call name (Argument.plainList args) Span.none suffix.plain := rfl

@[simp] theorem Node.plain_both (left right : Node)
    : (Node.both left right).plain = .both left.plain right.plain := rfl

@[simp] theorem Node.plain_either (left right : Node)
    : (Node.either left right).plain = .either left.plain right.plain := rfl

@[simp] theorem Node.plain_group (inner : Node) (span : Span)
    : (Node.group inner span).plain = .group inner.plain Span.none := rfl

@[simp] theorem Argument.plainList_cons (arg : Argument) (args : List Argument)
    : Argument.plainList (arg :: args) = arg.plain :: Argument.plainList args := rfl

end DueTasks
