import DueTasks.Proofs.Evaluation.Noting
import DueTasks.Proofs.Evaluation.Order

/-! What the notes of an evaluation say about a name.
Repeats, operators, calls, times and priorities count wherever they stand outside of arguments, and
waiting counts where it is all of the trigger. A reference counts wherever it is visited, and an id
that is declared anywhere keeps the task from repeating.
-/

namespace DueTasks

/-- What an evaluation says about a trigger. What stands in an argument that is taken literally, as
that of `id` is, is not visited and so does not count as a reference.
-/
structure Trigger.DescribedBy (t : Trigger) (evaluation : Evaluation) : Prop where
  isRepeating
    : evaluation.notes.isRepeating = true ↔ ∃ node ∈ t.root.outer, node.repetition?.isSome = true
  usesOperators
    : evaluation.notes.usesOperators = true ↔ ∃ node ∈ t.root.outer, node.isOperator = true
  usesExpression
    : evaluation.notes.usesExpression = true ↔ ∃ node ∈ t.root.outer, node.isCall = true
  isWaiting : evaluation.notes.isWaiting = true ↔ t.root.ungrouped.isCallOf "waiting" = true
  priority : evaluation.notes.priority = (t.root.outer.filterMap Node.priority?).getLast?
  time : evaluation.notes.time = (t.root.outer.filterMap Node.time?).getLast?
  canRepeat
    : evaluation.canRepeat = false
      ↔ ∃ arg token suffix, .call "id" [arg] token suffix ∈ t.root.nodes
  usesReference
    : evaluation.notes.usesReference = true ↔ ∃ node ∈ t.root.visited, node.isCallOf "ref" = true
  /-- The calls with recorded arguments are the helper calls and builtin calls that are visited. -/
  calls : evaluation.notes.calls.map Prod.fst = Node.recordedStarts t.root.visited
  /-- No call is recorded twice. -/
  apart : (evaluation.notes.calls.map Prod.fst).Nodup

namespace Trigger

open Asking

variable {σ : Type} (t : Trigger)

/-- A name declares no ids exactly if it has no call of `id` with one argument. -/
theorem declaredIds_isEmpty_eq_false
    : t.declaredIds.isEmpty = false
      ↔ ∃ arg token suffix, .call "id" [arg] token suffix ∈ t.root.nodes := by
  rw [List.isEmpty_eq_false_iff_exists_mem]
  constructor
  · rintro ⟨id, declared⟩
    obtain ⟨node, member, declares⟩ := List.mem_filterMap.mp declared
    obtain ⟨arg, token, suffix, rfl, -⟩ := declaredId?_eq_some.mp declares
    exact ⟨arg, token, suffix, member⟩
  · rintro ⟨arg, token, suffix, member⟩
    exact ⟨t.literal arg, List.mem_filterMap.mpr ⟨_, member, rfl⟩⟩

variable {t}

/-- The evaluation of a name that was read describes it. -/
theorem evaluate_describes {name : String} (parsed : parse name = .ok t) (context : Context σ)
    (state : σ) {evaluation : Evaluation}
    (evaluated : ((t.evaluate context).outcome state).1 = .ok evaluation)
    : t.DescribedBy evaluation := by
  have told : Notes.OfNode t.root .root evaluation.notes :=
    evaluate_notes state evaluation evaluated
  have repeatable : evaluation.canRepeat = t.declaredIds.isEmpty :=
    evaluate_canRepeat state evaluation evaluated
  obtain ⟨recorded, ascending⟩ := evaluate_records parsed state evaluation evaluated
  exact {
    isRepeating := by rw [told.isRepeating]; exact List.any_eq_true
    usesOperators := by rw [told.usesOperators, Node.joins_eq_any]; exact List.any_eq_true
    usesExpression := by rw [told.usesExpression]; exact List.any_eq_true
    isWaiting := by rw [told.isWaiting]; rfl
    priority := told.priority
    time := told.time
    canRepeat := by rw [repeatable]; exact t.declaredIds_isEmpty_eq_false
    usesReference := by rw [told.usesReference]; exact List.any_eq_true
    calls := recorded
    apart := ascending.imp Nat.ne_of_lt
  }

section

open Text Parsed Reply

/-- Annotations that say nothing. -/
def bareSuffix (offset : Nat) : Suffix :=
  ⟨none, none, none, none, ⟨offset, offset⟩⟩

/-- A call of `ref` that is the argument of a call of `id`. -/
def inertReference : Node :=
  .call "ref" [.quoted "a" ⟨16, 19⟩] ⟨12, 20⟩ (bareSuffix 20)

/-- A call of `id` with that argument, which is taken literally. -/
def literalId : Node :=
  .call "id" [.trigger inertReference] ⟨9, 21⟩ (bareSuffix 21)

/-- A helper with the call of `id` among its arguments. -/
def literalReference : Trigger where
  source := "bin('x', id(ref('a')))"
  root := .call "bin" [.quoted "x" ⟨4, 7⟩, .trigger literalId] ⟨0, 22⟩ (bareSuffix 22)
  ending := ⟨22, 22⟩

theorem parse_literalReference : parse "bin('x', id(ref('a')))" = .ok literalReference := by
  have reference : Reads (.unit inertReference) ⟨12, "ref('a')))".toList⟩ ⟨20, "))".toList⟩ :=
    .call_quoted "ref" "a" 12 (by decide) rfl
  have literal : Reads (.arg (.trigger inertReference)) ⟨12, "ref('a')))".toList⟩
      ⟨20, "))".toList⟩ :=
    .trigger (.part (.single reference) rfl) rfl rfl
  have id : Reads (.unit literalId) ⟨9, "id(ref('a')))".toList⟩ ⟨21, ")".toList⟩ :=
    .call_args "id" 9 (by decide) rfl literal.lastArg_append rfl
  have last : Reads (.arg (.trigger literalId)) ⟨9, "id(ref('a')))".toList⟩ ⟨21, ")".toList⟩ :=
    .trigger (.part (.single id) rfl) rfl rfl
  have named := Reads.quoted "x" 4 ", id(ref('a')))".toList
  have helper
      : Reads (.unit literalReference.root) ⟨0, "bin('x', id(ref('a')))".toList⟩ ⟨22, []⟩ :=
    .call_args "bin" 0 (by decide) rfl (named.moreArgs_append rfl last.lastArg_append) rfl
  exact parse_of_every (.single helper) rfl rfl

end

/-- A call of `ref` in a trigger that is an argument of a helper does not count as a reference where
it is taken literally.
-/
theorem usesReference_of_literalReference
    : parse "bin('x', id(ref('a')))" = .ok literalReference
      ∧ literalReference.root
        = .call "bin" [.quoted "x" ⟨4, 7⟩, .trigger literalId] ⟨0, 22⟩ (bareSuffix 22)
      ∧ literalId.isPlaceholder = false
      ∧ (∃ node ∈ literalId.nodes, node.isCallOf "ref" = true)
      ∧ ((literalReference.evaluate dictating).outcome ["2023"]).1.toOption.map
          (·.notes.usesReference)
        = some false :=
  ⟨parse_literalReference, rfl, rfl, ⟨inertReference, .tail _ (.head _), rfl⟩, by decide +kernel⟩

/-- The operators between the parts in parentheses count, and the first call has its arguments
recorded.
-/
theorem evaluate_describes_of_nestedCalls
    : parse "(bin('ä', now()) + 2020E1M & now()) - ü" = .ok nestedCalls
      ∧ ∃ evaluation,
          ((nestedCalls.evaluate dictating).outcome ["2021-05-06", "2020", "2019"]).1
            = .ok evaluation
          ∧ nestedCalls.DescribedBy evaluation
          ∧ evaluation.notes.usesOperators = true
          ∧ evaluation.notes.calls.map Prod.fst = [1] := by
  cases evaluated : ((nestedCalls.evaluate dictating).outcome ["2021-05-06", "2020", "2019"]).1 with
  | error error =>
      have answers
          : ((nestedCalls.evaluate dictating).outcome
              ["2021-05-06", "2020", "2019"]).1.toOption.isSome = true := by
        decide +kernel
      rw [evaluated] at answers
      cases answers
  | ok evaluation =>
      have described := evaluate_describes parse_nestedCalls dictating _ evaluated
      refine ⟨parse_nestedCalls, evaluation, rfl, described, ?_, described.calls⟩
      exact described.usesOperators.mpr ⟨_, .tail _ (.head _), rfl⟩

end Trigger

end DueTasks
