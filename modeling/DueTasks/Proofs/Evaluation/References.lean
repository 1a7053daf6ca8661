import DueTasks.Task.Evaluation

/-! References of a trigger.
The ids that a trigger refers to are told by its syntax, and evaluation resolves no others: what a
context says about other ids does not matter.
-/

namespace DueTasks

namespace Callee

/-- The name under which something can be called. -/
def text : Callee → String
  | now => "now"
  | id => "id"
  | reference => "ref"
  | waiting => "waiting"
  | helper => "bin"
  | builtin => "builtin"
  | period => "arg"
  | periodWords => "args"
  | line => "line"
  | target => "target"
  | task => "task"
  | unknown => ""

/-- What can be called at all is called by its own name alone. -/
theorem ofName_eq (callee : Callee) (known : callee ≠ .unknown) {name : String}
    : ofName name = callee ↔ name = callee.text := by
  constructor
  · rintro rfl
    unfold ofName at known ⊢
    split at known
    all_goals first | rfl | exact absurd rfl known
  · rintro rfl
    cases callee with
    | unknown => exact absurd rfl known
    | _ => rfl

theorem ofName_eq_reference {name : String} : ofName name = .reference ↔ name = "ref" :=
  ofName_eq .reference nofun

theorem ofName_eq_waiting {name : String} : ofName name = .waiting ↔ name = "waiting" :=
  ofName_eq .waiting nofun

theorem ofName_eq_helper {name : String} : ofName name = .helper ↔ name = "bin" :=
  ofName_eq .helper nofun

theorem ofName_eq_builtin {name : String} : ofName name = .builtin ↔ name = "builtin" :=
  ofName_eq .builtin nofun

end Callee

/-- Whether a node is a call by a name. -/
def Node.isCallOf (name : String) : Node → Bool
  | .call called _ _ _ => called == name
  | _ => false

/-- Whether a node is a call of a helper or of a builtin. -/
def Node.callsOut : Node → Bool
  | .call name _ _ _ => name == "bin" || name == "builtin"
  | _ => false

namespace Trigger

/-- The id that a node refers to: the argument of a call of `ref` with one argument. -/
def referencedId? (t : Trigger) : Node → Option String
  | .call "ref" [arg] _ _ => some (t.literal arg)
  | _ => none

/-- The ids that a node refers to anywhere in it, in the order of the text. -/
def referencesIn (t : Trigger) (node : Node) : List String :=
  node.nodes.filterMap t.referencedId?

/-- The ids that arguments refer to anywhere in them, in the order of the text. -/
def referencesInArgs (t : Trigger) (args : List Argument) : List String :=
  (Argument.nodesOfList args).filterMap t.referencedId?

/-- The ids that a name refers to anywhere in it, in the order of the text. -/
def referencedIds (t : Trigger) : List String :=
  t.referencesIn t.root

variable {σ : Type} {t : Trigger} {id : String}

/-- A node declares an id exactly if it is a call of `id` with one argument, which is that id. -/
theorem declaredId?_eq_some {node : Node}
    : t.declaredId? node = some id
      ↔ ∃ arg token suffix, node = .call "id" [arg] token suffix ∧ t.literal arg = id := by
  constructor
  · intro declares
    unfold declaredId? at declares
    split at declares
    · rename_i arg token suffix
      exact ⟨arg, token, suffix, rfl, Option.some.inj declares⟩
    · cases declares
  · rintro ⟨arg, token, suffix, rfl, rfl⟩
    rfl

theorem mem_referencesIn_call {name : String} {args : List Argument} {token : Span}
    {suffix : Suffix}
    : id ∈ t.referencesIn (.call name args token suffix)
      ↔ (∃ arg, name = "ref" ∧ args = [arg] ∧ id = t.literal arg)
        ∨ id ∈ t.referencesInArgs args := by
  rw [referencesIn, Node.nodes, List.filterMap_cons]
  split
  · rename_i other
    refine ⟨.inr, ?_⟩
    rintro (⟨arg, rfl, rfl, rfl⟩ | inside)
    · cases other
    · exact inside
  · rename_i found call
    rw [List.mem_cons]
    unfold referencedId? at call
    split at call
    · rename_i arg token suffix same
      cases same
      cases call
      simp [referencesInArgs]
    · cases call

@[simp] theorem referencesIn_both (left right : Node)
    : t.referencesIn (.both left right) = t.referencesIn left ++ t.referencesIn right := by
  rw [referencesIn, Node.nodes, List.filterMap_cons_none rfl, List.filterMap_append]
  rfl

@[simp] theorem referencesIn_either (left right : Node)
    : t.referencesIn (.either left right) = t.referencesIn left ++ t.referencesIn right := by
  rw [referencesIn, Node.nodes, List.filterMap_cons_none rfl, List.filterMap_append]
  rfl

@[simp] theorem referencesIn_group (inner : Node) (span : Span)
    : t.referencesIn (.group inner span) = t.referencesIn inner := by
  rw [referencesIn, Node.nodes, List.filterMap_cons_none rfl]
  rfl

@[simp] theorem referencesIn_date (value : Date) (token : Span) (suffix : Suffix)
    : t.referencesIn (.date value token suffix) = [] := rfl

@[simp] theorem referencesInArgs_nil : t.referencesInArgs [] = [] := rfl

@[simp] theorem referencesInArgs_cons (arg : Argument) (args : List Argument)
    : t.referencesInArgs (arg :: args)
      = arg.nodes.filterMap t.referencedId? ++ t.referencesInArgs args := by
  simp [referencesInArgs, Argument.nodesOfList]

section

variable (context : Context σ) (resolve : String → Asking σ ReferenceError Date)

/-- What arguments stand for as such does not depend on references. -/
theorem placeholder?_resolve (node : Node)
    : t.placeholder? { context with resolve } node = t.placeholder? context node := rfl

-- The statements follow the evaluators, as a call hands its arguments on to be evaluated.
mutual

/-- The value of a node depends only on the ids that it refers to, by induction over the syntax. -/
theorem evaluateNode_resolve (node : Node) (position : Position)
    (agree : ∀ id ∈ t.referencesIn node, resolve id = context.resolve id)
    : t.evaluateNode { context with resolve } node position
      = t.evaluateNode context node position := by
  cases node with
  | date value token suffix => rw [evaluateNode, evaluateNode]
  | call name args token suffix =>
      rw [evaluateNode, evaluateNode, evaluateCall_resolve _ name token suffix position args agree]
  | both left right | either left right =>
      simp only [referencesIn_both, referencesIn_either, List.forall_mem_append] at agree
      rw [evaluateNode, evaluateNode, evaluateNode_resolve left _ agree.1,
        evaluateNode_resolve right _ agree.2]
  | group inner span =>
      rw [referencesIn_group] at agree
      rw [evaluateNode, evaluateNode, evaluateNode_resolve inner _ agree]
termination_by (sizeOf node, 0)

/-- The date of a call depends only on the ids that it refers to. -/
theorem evaluateCall_resolve (node : Node) (name : String) (token : Span) (suffix : Suffix)
    (position : Position) (args : List Argument)
    (agree
      : ∀ id ∈ t.referencesIn (.call name args token suffix), resolve id = context.resolve id)
    : t.evaluateCall { context with resolve } node name token position args
      = t.evaluateCall context node name token position args := by
  have inside (id : String) (member : id ∈ t.referencesInArgs args)
      : resolve id = context.resolve id :=
    agree id (mem_referencesIn_call.mpr (.inr member))
  unfold evaluateCall
  cases callee : Callee.ofName name with
  | reference =>
      rcases args with _ | ⟨arg, _ | ⟨next, args⟩⟩
      · rfl
      · have named := Callee.ofName_eq_reference.mp callee
        have same := agree (t.literal arg) (mem_referencesIn_call.mpr (.inl ⟨arg, named, rfl, rfl⟩))
        simp only [expectLiteral, pure_bind, same]
      · rfl
  | helper =>
      cases args with
      | nil => rfl
      | cons arg rest =>
          rw [referencesInArgs_cons, List.forall_mem_append] at inside
          simp only [evaluateArguments_resolve node .helper rest inside.2]
          rfl
  | builtin =>
      cases args with
      | nil => rfl
      | cons arg rest =>
          rw [referencesInArgs_cons, List.forall_mem_append] at inside
          simp only [evaluateArguments_resolve node .builtin rest inside.2]
  | _ => rfl
termination_by (sizeOf args, 1)

theorem evaluateArguments_resolve (node : Node) (callee : Callee) (args : List Argument)
    (agree : ∀ id ∈ t.referencesInArgs args, resolve id = context.resolve id)
    : t.evaluateArguments { context with resolve } node callee args
      = t.evaluateArguments context node callee args := by
  cases args with
  | nil => rw [evaluateArguments, evaluateArguments]
  | cons arg args =>
      rw [referencesInArgs_cons, List.forall_mem_append] at agree
      rw [evaluateArguments, evaluateArguments, evaluateArgument_resolve arg agree.1,
        evaluateArguments_resolve node callee args agree.2]
termination_by (sizeOf args, 0)

theorem evaluateArgument_resolve (arg : Argument)
    (agree : ∀ id ∈ arg.nodes.filterMap t.referencedId?, resolve id = context.resolve id)
    : t.evaluateArgument { context with resolve } arg = t.evaluateArgument context arg := by
  cases arg with
  | quoted value span | bare value span => rw [evaluateArgument, evaluateArgument]
  | trigger node =>
      rw [evaluateArgument, evaluateArgument, placeholder?_resolve,
        evaluateNode_resolve node _ agree]
termination_by (sizeOf arg, 0)

end

/-- What a context says about ids that a name does not refer to does not matter. -/
theorem evaluate_resolve (agree : ∀ id ∈ t.referencedIds, resolve id = context.resolve id)
    : t.evaluate { context with resolve } = t.evaluate context := by
  rw [evaluate, evaluate, evaluateNode_resolve context resolve t.root .root agree]

end

end Trigger

end DueTasks
