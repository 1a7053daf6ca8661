import DueTasks.Proofs.Asking
import DueTasks.Proofs.Calendar.DateOrder
import DueTasks.Proofs.Evaluation.References

/-! Later answers make later dates.
A trigger that calls no helper and no builtin has a date that is put together from the current
date, from the dates of its references and from fixed dates by keeping the order of dates. What is
noted on the way does not depend on any date.
-/

namespace DueTasks

/-- Adding an offset keeps the order of dates. -/
theorem Suffix.applyTo_mono (suffix : Suffix) {date later : Date} (le : date ≤ later)
    : suffix.applyTo date ≤ suffix.applyTo later := by
  unfold applyTo
  cases suffix.effective with
  | none => exact le
  | some period => exact period.addTo_mono le

/-- The same notes on a date that is the same or later. -/
def Noted.NotBefore (early late : Noted Date) : Prop :=
  early.value ≤ late.value ∧ early.notes = late.notes

variable {σ τ : Type}

/-- One context has dates that are the same as those of another one or later. -/
structure Context.NotBefore (keep : σ → τ → Prop) (early : Context σ) (late : Context τ)
    : Prop where
  today : early.today.Matches keep (· ≤ ·) late.today
  resolve : ∀ id, (early.resolve id).Matches keep (· ≤ ·) (late.resolve id)

namespace Trigger

open Asking

variable {t : Trigger} {keep : σ → τ → Prop} {early : Context σ} {late : Context τ}

/-- Whether a call has no arguments is the same in both contexts. -/
theorem expectNone_matches (node : Node) (name : String) (args : List Argument)
    : Matches keep (fun _ _ => True) (t.expectNone node name args : Asking σ TaskError Unit)
        (t.expectNone node name args : Asking τ TaskError Unit) := by
  cases args with
  | nil => exact .pure trivial
  | cons => exact .throw _

/-- The literal argument of a call is the same in both contexts. -/
theorem expectLiteral_matches (node : Node) (name : String) (args : List Argument)
    : Matches keep Eq (t.expectLiteral node name args : Asking σ TaskError String)
        (t.expectLiteral node name args : Asking τ TaskError String) := by
  rcases args with _ | ⟨arg, _ | _⟩
  · exact .throw _
  · exact .pure rfl
  · exact .throw _

/-- A call that is none of a helper or a builtin has a later date in a later context. -/
theorem evaluateCall_mono (contexts : early.NotBefore keep late) (node : Node) {name : String}
    (apart : name ≠ "bin" ∧ name ≠ "builtin") (token : Span) (position : Position)
    (args : List Argument)
    : Matches keep Noted.NotBefore (t.evaluateCall early node name token position args)
        (t.evaluateCall late node name token position args) := by
  unfold evaluateCall
  cases callee : Callee.ofName name with
  | now =>
      refine (expectNone_matches _ _ _).bind fun _ _ _ => ?_
      exact (contexts.today.mapError _).bind fun _ _ le => .pure ⟨le, rfl⟩
  | id =>
      refine (expectLiteral_matches _ _ _).bind fun _ _ _ => .pure ?_
      exact ⟨le_refl _, rfl⟩
  | reference =>
      refine (expectLiteral_matches _ _ _).bind fun id _ same => ?_
      subst same
      refine ((contexts.resolve id).mapError _).bind fun _ _ le => .pure ?_
      exact ⟨le, rfl⟩
  | waiting =>
      refine (expectNone_matches _ _ _).bind fun _ _ _ => .pure ?_
      exact ⟨le_refl _, rfl⟩
  | helper => exact absurd (Callee.ofName_eq_helper.mp callee) apart.1
  | builtin => exact absurd (Callee.ofName_eq_builtin.mp callee) apart.2
  | _ => exact .throw _

/-- A node without helpers and builtins has a later date in a later context, by induction over the
syntax outside of arguments.
-/
theorem evaluateNode_mono (contexts : early.NotBefore keep late) {node : Node}
    (inside : ∀ n ∈ node.nodes, n.callsOut = false) (position : Position)
    : Matches keep Noted.NotBefore (t.evaluateNode early node position)
        (t.evaluateNode late node position) := by
  cases node with
  | date value token suffix =>
      rw [evaluateNode, evaluateNode]
      exact .pure ⟨le_refl _, rfl⟩
  | call name args token suffix =>
      have apart : name ≠ "bin" ∧ name ≠ "builtin" := by
        simpa [Node.callsOut] using inside _ List.mem_cons_self
      rw [evaluateNode, evaluateNode]
      refine (evaluateCall_mono contexts _ apart token position args).bind ?_
      rintro first second ⟨le, same⟩
      exact .pure ⟨suffix.applyTo_mono le, by rw [same]⟩
  | both left right =>
      obtain ⟨-, inside⟩ := List.forall_mem_cons.mp inside
      obtain ⟨lefts, rights⟩ := List.forall_mem_append.mp inside
      rw [evaluateNode, evaluateNode]
      refine (evaluateNode_mono contexts lefts _).bind ?_
      rintro first first' ⟨le, same⟩
      refine (evaluateNode_mono contexts rights _).bind ?_
      rintro second second' ⟨le', same'⟩
      exact .pure ⟨max_le_max le le', by rw [same, same']⟩
  | either left right =>
      obtain ⟨-, inside⟩ := List.forall_mem_cons.mp inside
      obtain ⟨lefts, rights⟩ := List.forall_mem_append.mp inside
      rw [evaluateNode, evaluateNode]
      refine (evaluateNode_mono contexts lefts _).bind ?_
      rintro first first' ⟨le, same⟩
      refine (evaluateNode_mono contexts rights _).bind ?_
      rintro second second' ⟨le', same'⟩
      exact .pure ⟨min_le_min le le', by rw [same, same']⟩
  | group inner span =>
      obtain ⟨-, inside⟩ := List.forall_mem_cons.mp inside
      rw [evaluateNode, evaluateNode]
      exact evaluateNode_mono contexts inside position
termination_by sizeOf node

end Trigger

/-- The same evaluation but for a date that is the same or later. -/
def Evaluation.NotBefore (early late : Evaluation) : Prop :=
  early.date ≤ late.date ∧ late = { early with date := late.date }

/-- A trigger without helpers and builtins has a later date in a later context, and nothing else
about its evaluation depends on the context.
-/
theorem Trigger.evaluate_mono {t : Trigger} {keep : σ → τ → Prop} {early : Context σ}
    {late : Context τ} (contexts : early.NotBefore keep late)
    (inside : ∀ node ∈ t.root.nodes, node.callsOut = false)
    : (t.evaluate early).Matches keep Evaluation.NotBefore (t.evaluate late) := by
  refine (evaluateNode_mono contexts inside .root).bind ?_
  rintro first second ⟨le, same⟩
  exact .pure ⟨le, by rw [same]⟩

end DueTasks
