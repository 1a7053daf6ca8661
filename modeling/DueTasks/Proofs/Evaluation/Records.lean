import DueTasks.Proofs.Asking
import DueTasks.Proofs.Evaluation.References
import DueTasks.Proofs.Trigger.Coverage

/-! Calls whose arguments are recorded.
An evaluation visits the nodes outside of arguments, and among the arguments of helpers and builtins
those triggers that stand for a date. Calls start in the order of the text, so that what is recorded
for one part of a trigger stands in front of what is recorded for a later part.
-/

namespace DueTasks

-----------------------------------------------------------------------------------------
-- Nodes that an evaluation visits
-----------------------------------------------------------------------------------------

/-- Whether a node makes sense only as an argument of a helper or builtin: it is a place for a
period or something about the task's own file.
-/
def Node.isPlaceholder : Node → Bool
  | .call name _ _ _ =>
      match Callee.ofName name with
      | .period | .periodWords | .line | .target | .task => true
      | _ => false
  | _ => false

mutual

/-- A node and the nodes below it that are evaluated with it, in the order of the text. Arguments
are evaluated only for a helper or a builtin; those of all other calls are taken literally.
-/
def Node.visited : Node → List Node
  | .date value token suffix => [.date value token suffix]
  | .call name args token suffix =>
      .call name args token suffix
        :: if name == "bin" || name == "builtin" then Argument.visitedOfList args else []
  | .both left right => .both left right :: (left.visited ++ right.visited)
  | .either left right => .either left right :: (left.visited ++ right.visited)
  | .group inner span => .group inner span :: inner.visited

/-- The nodes that are evaluated for an argument of a helper or a builtin. -/
def Argument.visited : Argument → List Node
  | .quoted .. => []
  | .bare .. => []
  | .trigger node => if node.isPlaceholder then [] else node.visited

def Argument.visitedOfList : List Argument → List Node
  | [] => []
  | arg :: args => arg.visited ++ Argument.visitedOfList args

end

-- The statements follow the nodes that are visited, as a call goes on with its arguments.
mutual

/-- The nodes that are visited are some of all nodes, in their order, by induction over the syntax.
-/
theorem Node.visited_sublist (node : Node) : node.visited.Sublist node.nodes := by
  cases node with
  | date value token suffix => exact .refl _
  | call name args token suffix =>
      rw [Node.visited, Node.nodes]
      refine .cons_cons _ ?_
      split
      · exact Argument.visitedOfList_sublist args
      · exact List.nil_sublist _
  | both left right | either left right =>
      rw [Node.visited, Node.nodes]
      exact (left.visited_sublist.append right.visited_sublist).cons_cons _
  | group inner span =>
      rw [Node.visited, Node.nodes]
      exact inner.visited_sublist.cons_cons _

theorem Argument.visited_sublist (arg : Argument) : arg.visited.Sublist arg.nodes := by
  cases arg with
  | quoted value span | bare value span => exact .refl _
  | trigger node =>
      rw [Argument.visited, Argument.nodes]
      split
      · exact List.nil_sublist _
      · exact node.visited_sublist

theorem Argument.visitedOfList_sublist (args : List Argument)
    : (Argument.visitedOfList args).Sublist (Argument.nodesOfList args) := by
  cases args with
  | nil => exact .refl _
  | cons arg args =>
      rw [Argument.visitedOfList, Argument.nodesOfList]
      exact arg.visited_sublist.append (Argument.visitedOfList_sublist args)

end

/-- Where the calls of helpers and builtins among some nodes start. -/
def Node.recordedStarts (nodes : List Node) : List Nat :=
  (nodes.filter callsOut).filterMap callStart?

namespace Node

@[simp] theorem recordedStarts_append (first second : List Node)
    : recordedStarts (first ++ second) = recordedStarts first ++ recordedStarts second := by
  simp [recordedStarts]

theorem recordedStarts_cons_of_callsOut {name : String} {args : List Argument} {token : Span}
    {suffix : Suffix} (outward : (call name args token suffix).callsOut = true) (nodes : List Node)
    : recordedStarts (call name args token suffix :: nodes)
      = token.start :: recordedStarts nodes := by
  simp [recordedStarts, outward, callStart?]

theorem recordedStarts_cons {node : Node} (inward : node.callsOut = false) (nodes : List Node)
    : recordedStarts (node :: nodes) = recordedStarts nodes := by
  simp [recordedStarts, inward]

/-- Some of the nodes record under some of the offsets at which calls start. -/
theorem recordedStarts_sublist {some all : List Node} (h : some.Sublist all)
    : (recordedStarts some).Sublist (all.filterMap callStart?) :=
  (List.filter_sublist.trans h).filterMap _

end Node

-----------------------------------------------------------------------------------------
-- Records in ascending order
-----------------------------------------------------------------------------------------

namespace CallArgs

variable {offset : Nat} {args : List HelperArg} {calls earlier later : CallArgs}

/-- The offsets of records. -/
abbrev starts (calls : CallArgs) : List Nat :=
  calls.map Prod.fst

/-- A record in front of all others comes first. -/
theorem insert_of_before (before : ∀ start ∈ calls.starts, offset < start)
    : calls.insert offset args = (offset, args) :: calls := by
  cases calls with
  | nil => rfl
  | cons entry rest => rw [insert, if_pos (before entry.1 List.mem_cons_self)]

/-- A record behind all others comes last, by induction over the others. -/
theorem insert_of_behind (behind : ∀ start ∈ calls.starts, start < offset)
    : calls.insert offset args = calls ++ [(offset, args)] := by
  induction calls with
  | nil => rfl
  | cons entry rest ih =>
      obtain ⟨first, others⟩ := List.forall_mem_cons.mp behind
      rw [insert, if_neg (Nat.lt_asymm first), if_neg (Nat.ne_of_gt first), ih others]
      rfl

/-- Records in ascending order are put together by writing them one behind the other, by induction
over the later ones.
-/
theorem merge_eq_append (sorted : (earlier.starts ++ later.starts).Pairwise (· < ·))
    : earlier.merge later = earlier ++ later := by
  induction later generalizing earlier with
  | nil => exact (List.append_nil _).symm
  | cons entry rest ih =>
      have behind : ∀ start ∈ earlier.starts, start < entry.1 := fun start member =>
        (List.pairwise_append.mp sorted).2.2 start member entry.1 List.mem_cons_self
      have step : earlier.merge (entry :: rest) = (earlier.insert entry.1 entry.2).merge rest := rfl
      rw [step, insert_of_behind behind, ih (by simpa [starts] using sorted), List.append_assoc]
      rfl

theorem nil_merge (sorted : calls.starts.Pairwise (· < ·)) : merge [] calls = calls :=
  merge_eq_append sorted

/-- A record is found under its offset, by induction over records in ascending order. -/
theorem lookup_of_mem (sorted : calls.starts.Pairwise (· < ·)) (member : (offset, args) ∈ calls)
    : calls.lookup offset = some args := by
  induction calls with
  | nil => cases member
  | cons entry rest ih =>
      obtain ⟨before, sorted⟩ := List.pairwise_cons.mp sorted
      rcases List.mem_cons.mp member with rfl | member
      · exact List.lookup_cons_self
      · have apart : (offset == entry.1) = false :=
          beq_eq_false_iff_ne.mpr (Nat.ne_of_gt (before offset (List.mem_map_of_mem member)))
        rw [List.lookup_cons, apart]
        exact ih sorted member

end CallArgs

/-- The records of two parts together. -/
@[simp] theorem Notes.calls_append (earlier later : Notes)
    : (earlier ++ later).calls = earlier.calls.merge later.calls := rfl

-----------------------------------------------------------------------------------------
-- Records of parts
-----------------------------------------------------------------------------------------

namespace Trigger

open Asking

variable {σ : Type} {t : Trigger} {context : Context σ}

/-- An argument has a value of its own exactly if it makes sense only as an argument. -/
theorem isSome_placeholder? (node : Node)
    : (t.placeholder? context node).isSome = node.isPlaceholder := by
  cases node with
  | call name args token suffix =>
      unfold placeholder? Node.isPlaceholder
      dsimp only
      cases Callee.ofName name <;> rfl
  | _ => rfl

/-- Nothing is visited for a word. -/
theorem expectWord_ensures (node : Node) (name : String) (arg : Argument)
    : Ensures (fun _ => arg.visited = []) (t.expectWord node name arg : Asking σ _ _) := by
  unfold expectWord
  cases arg with
  | trigger inner => exact .throw _
  | _ => exact .pure rfl

/-- Neither that a call is used nor its annotations are recorded. -/
theorem calls_of_call {notes : Notes} (sorted : notes.calls.starts.Pairwise (· < ·))
    (suffix : Suffix) (position : Position)
    : ({ usesExpression := true } ++ notes ++ .ofSuffix suffix position : Notes).calls
      = notes.calls := by
  have none : (Notes.ofSuffix suffix position).calls = [] := by
    unfold Notes.ofSuffix
    split <;> rfl
  simp only [Notes.calls_append, none]
  exact CallArgs.nil_merge sorted

/-- What one part records stands in front of what a later part records. -/
theorem starts_append {first second : Notes} {starts starts' : List Nat}
    (recorded : first.calls.starts = starts) (recorded' : second.calls.starts = starts')
    (sorted : (starts ++ starts').Pairwise (· < ·))
    : (first ++ second).calls.starts = starts ++ starts' := by
  subst recorded recorded'
  rw [Notes.calls_append, CallArgs.merge_eq_append sorted]
  exact List.map_append

/-- What the first operand records stands in front of what the second one records. -/
theorem starts_of_operator {first second : Notes} {starts starts' : List Nat} (position : Position)
    (recorded : first.calls.starts = starts) (recorded' : second.calls.starts = starts')
    (sorted : (starts ++ starts').Pairwise (· < ·))
    : (.ofOperator position ++ first ++ second : Notes).calls.starts = starts ++ starts' := by
  have first' : (Notes.ofOperator position ++ first).calls.starts = starts :=
    starts_append rfl recorded (List.pairwise_append.mp sorted).1
  exact starts_append first' recorded' sorted

/-- Where the calls of a node start in ascending order, those of its operands do, and so do those
that are recorded for both.
-/
theorem sorted_operands {node left right : Node}
    (joins : node = .both left right ∨ node = .either left right)
    (sorted : (node.nodes.filterMap Node.callStart?).Pairwise (· < ·))
    : (left.nodes.filterMap Node.callStart?).Pairwise (· < ·)
      ∧ (right.nodes.filterMap Node.callStart?).Pairwise (· < ·)
      ∧ (Node.recordedStarts left.visited ++ Node.recordedStarts right.visited).Pairwise
          (· < ·) := by
  have nodes : node.nodes = node :: (left.nodes ++ right.nodes) := by
    rcases joins with rfl | rfl <;> rfl
  have start : node.callStart? = none := by rcases joins with rfl | rfl <;> rfl
  rw [nodes, List.filterMap_cons_none start, List.filterMap_append] at sorted
  obtain ⟨first, second, -⟩ := List.pairwise_append.mp sorted
  have recorded := (Node.recordedStarts_sublist left.visited_sublist).append
    (Node.recordedStarts_sublist right.visited_sublist)
  exact ⟨first, second, sorted.sublist recorded⟩

/-- A call records its arguments in front of what they record themselves. -/
theorem calls_of_record {notes : Notes} {start : Nat} (args : List HelperArg)
    (sorted : (start :: notes.calls.starts).Pairwise (· < ·))
    : (notes ++ { calls := [(start, args)] }).calls = (start, args) :: notes.calls :=
  CallArgs.insert_of_before (List.pairwise_cons.mp sorted).1

section

variable {name : String} {arg : Argument} {rest : List Argument} {token : Span} {suffix : Suffix}
  (sorted
    : ((Node.call name (arg :: rest) token suffix).nodes.filterMap Node.callStart?).Pairwise
        (· < ·))

include sorted

/-- Behind the first argument of a call the others still start in ascending order. -/
theorem sorted_rest : ((Argument.nodesOfList rest).filterMap Node.callStart?).Pairwise (· < ·) := by
  rw [Node.nodes, Argument.nodesOfList] at sorted
  exact sorted.sublist (((List.sublist_append_right _ _).cons _).filterMap _)

/-- A call starts in front of what is recorded for its arguments. -/
theorem sorted_record
    : (token.start :: Node.recordedStarts (Argument.visitedOfList rest)).Pairwise (· < ·) := by
  rw [Node.nodes, Argument.nodesOfList] at sorted
  have sorted
      : (token.start
          :: (arg.nodes ++ Argument.nodesOfList rest).filterMap Node.callStart?).Pairwise (· < ·) :=
    sorted
  have inside := Node.recordedStarts_sublist (Argument.visitedOfList_sublist rest)
  have behind := (List.sublist_append_right arg.nodes (Argument.nodesOfList rest)).filterMap
    Node.callStart?
  exact sorted.sublist ((inside.trans behind).cons_cons _)

end

-----------------------------------------------------------------------------------------
-- Names
-----------------------------------------------------------------------------------------

/-- The calls of a name that was read start in ascending order. -/
theorem calls_ascending {name : String} (parsed : parse name = .ok t)
    : (t.root.nodes.filterMap Node.callStart?).Pairwise (· < ·) := by
  obtain ⟨d, h⟩ := parse_eq_ok.mp parsed
  exact h.reads.ascending.sorted

end Trigger

end DueTasks
