import DueTasks.Proofs.Asking
import DueTasks.Proofs.Evaluation.References

/-! Triggers that ask for nothing but references.
A trigger of dates, operators, `now`, `waiting`, `id` and `ref` has a value unless one of its
references has none, in which case it fails as that reference does.
-/

namespace DueTasks

/-- The argument is a word. A date is one too where its text is all that counts. -/
def Argument.isWord : Argument → Bool
  | .quoted .. => true
  | .bare .. => true
  | .trigger (.date ..) => true
  | .trigger _ => false

/-- Whether a call is `now()` or `waiting()`, or one of `id` or `ref` with a word. -/
def Callee.isElementary (callee : Callee) (args : List Argument) : Bool :=
  match callee, args with
  | .now, [] => true
  | .waiting, [] => true
  | .id, [arg] => arg.isWord
  | .reference, [arg] => arg.isWord
  | _, _ => false

/-- Whether all calls of a node are of `now`, `waiting`, `id` or `ref`, with the arguments that they
need.
-/
def Node.isElementary : Node → Bool
  | .date .. => true
  | .call name args _ _ => (Callee.ofName name).isElementary args
  | .both left right => left.isElementary && right.isElementary
  | .either left right => left.isElementary && right.isElementary
  | .group inner _ => inner.isElementary

namespace Trigger

open Asking

variable {σ : Type} {t : Trigger} {context : Context σ} {kept : σ → Prop}
  {kind : ReferenceError → Prop} {kind' : TaskError → Prop} {fails : String → Prop}

/-- A word refers to nothing. -/
theorem referencesInArgs_word {arg : Argument} (word : arg.isWord = true)
    : t.referencesInArgs [arg] = [] := by
  cases arg with
  | quoted value span | bare value span => rfl
  | trigger node =>
      cases node with
      | date value token suffix => rfl
      | _ => cases word

/-- The only reference of a call of `ref` with a word is that word. -/
theorem referencesIn_reference {name : String} (named : Callee.ofName name = .reference)
    {arg : Argument} (word : arg.isWord = true) (token : Span) (suffix : Suffix)
    : t.referencesIn (.call name [arg] token suffix) = [t.literal arg] := by
  obtain rfl := Callee.ofName_eq_reference.mp named
  show t.literal arg :: t.referencesInArgs [arg] = _
  rw [referencesInArgs_word word]

/-- Calls of anything but `ref` have no references of their own. -/
theorem referencesIn_other {name : String} (named : Callee.ofName name ≠ .reference)
    (args : List Argument) (token : Span) (suffix : Suffix)
    : t.referencesIn (.call name args token suffix) = t.referencesInArgs args := by
  have other : t.referencedId? (.call name args token suffix) = none := by
    unfold referencedId?
    split
    · rename_i same
      cases same
      exact absurd rfl named
    · rfl
  rw [referencesIn, Node.nodes, List.filterMap_cons_none other]
  rfl

/-- An elementary call fails exactly if its reference does. -/
theorem evaluateCall_failsIff {name : String} {args : List Argument} {suffix : Suffix}
    (node : Node) (token : Span) (position : Position)
    (elementary : (Callee.ofName name).isElementary args = true)
    (today : context.today.Stable kept)
    (shows : ∀ error, kind error → kind' (t.referenceError node error))
    (references
      : ∀ id ∈ t.referencesIn (.call name args token suffix),
          (context.resolve id).FailsIff kept kind (fails id))
    : (t.evaluateCall context node name token position args).FailsIff kept kind'
        (∃ id ∈ t.referencesIn (.call name args token suffix), fails id) := by
  unfold evaluateCall
  cases callee : Callee.ofName name with
  | now =>
      have other : Callee.ofName name ≠ .reference := by simp [callee]
      rw [callee] at elementary
      rcases args with _ | ⟨arg, args⟩
      · rw [referencesIn_other other]
        exact ((FailsIff.of_stable today).bind fun _ => .pure _).congr (by simp)
      · cases elementary
  | waiting =>
      have other : Callee.ofName name ≠ .reference := by simp [callee]
      rw [callee] at elementary
      rcases args with _ | ⟨arg, args⟩
      · rw [referencesIn_other other]
        exact (FailsIff.pure _).congr (by simp)
      · cases elementary
  | id =>
      have other : Callee.ofName name ≠ .reference := by simp [callee]
      rw [callee] at elementary
      rcases args with _ | ⟨arg, _ | ⟨next, args⟩⟩
      · cases elementary
      · rw [referencesIn_other other, referencesInArgs_word elementary]
        exact (FailsIff.pure _).congr (by simp)
      · cases elementary
  | reference =>
      rw [callee] at elementary
      rcases args with _ | ⟨arg, _ | ⟨next, args⟩⟩
      · cases elementary
      · rw [referencesIn_reference callee elementary] at references ⊢
        have asked := (references _ (List.mem_singleton_self _)).mapError shows
        exact (asked.bind fun _ => .pure _).congr (by simp)
      · cases elementary
  | _ =>
      rw [callee] at elementary
      cases elementary

/-- An elementary node fails exactly if one of its references does, by induction over the syntax. -/
theorem evaluateNode_failsIff {node : Node} (position : Position)
    (elementary : node.isElementary = true) (today : context.today.Stable kept)
    (shows : ∀ node error, kind error → kind' (t.referenceError node error))
    (references : ∀ id ∈ t.referencesIn node, (context.resolve id).FailsIff kept kind (fails id))
    : (t.evaluateNode context node position).FailsIff kept kind'
        (∃ id ∈ t.referencesIn node, fails id) := by
  cases node with
  | date value token suffix =>
      rw [evaluateNode]
      exact (FailsIff.pure _).congr (by simp)
  | call name args token suffix =>
      rw [evaluateNode]
      have call := evaluateCall_failsIff (.call name args token suffix) token position elementary
        today (shows _) references
      exact (call.bind fun _ => .pure _).congr (or_iff_left not_false)
  | both left right | either left right =>
      obtain ⟨first, second⟩ := Bool.and_eq_true_iff.mp elementary
      simp only [referencesIn_both, referencesIn_either, List.forall_mem_append] at references
      rw [evaluateNode]
      have lefts := evaluateNode_failsIff position.ofOperands first today shows references.1
      have rights := evaluateNode_failsIff position.ofOperands second today shows references.2
      refine (lefts.bind fun _ => rights.bind fun _ => .pure _).congr ?_
      simp [or_and_right, exists_or]
  | group inner span =>
      rw [referencesIn_group] at references ⊢
      rw [evaluateNode]
      exact evaluateNode_failsIff position elementary today shows references
termination_by sizeOf node

/-- A trigger with an elementary root fails exactly if one of its references does. -/
theorem evaluate_failsIff (elementary : t.root.isElementary = true)
    (today : context.today.Stable kept)
    (shows : ∀ node error, kind error → kind' (t.referenceError node error))
    (references : ∀ id ∈ t.referencedIds, (context.resolve id).FailsIff kept kind (fails id))
    : (t.evaluate context).FailsIff kept kind' (∃ id ∈ t.referencedIds, fails id) := by
  have root := evaluateNode_failsIff .root elementary today shows references
  exact (root.bind fun _ => .pure _).congr (or_iff_left not_false)

end Trigger

end DueTasks
