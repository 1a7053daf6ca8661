import DueTasks.Proofs.Registry.Isolation
import Mathlib.Data.List.Perm.Basic

/-! Batches in another order.
Which task declares an id, and what it is evaluated to, does not depend on the order in which the
tasks of a batch are given. The surroundings may answer anew with every question, since the order in
which they are asked is the same too.
-/

namespace DueTasks

open Asking

variable {σ ε α : Type}

namespace Registry

/-- The tasks of a registry are among those of another one, each in a place of its own, and both
declare every id as often.
-/
structure Rearranges (r r' : Registry σ) (place : Fin r.size → Fin r'.size) : Prop where
  environment : r'.environment = r.environment
  slots : ∀ index, r'.slots[place index] = r.slots[index]
  apart : Function.Injective place
  declared : ∀ id, r'.declaredIds.count id = r.declaredIds.count id

/-- Two sessions keep the same results for the same tasks, in surroundings that are in the same
state.
-/
structure SameResults {size size' : Nat} (place : Fin size → Fin size')
    (session session' : Session σ) : Prop where
  world : session'.world = session.world
  results
    : ∀ index,
        session'.results.lookup (place index).val = session.results.lookup index.val

-----------------------------------------------------------------------------------------
-- Sessions with the same results
-----------------------------------------------------------------------------------------

namespace SameResults

section

variable {size size' : Nat} {place : Fin size → Fin size'} {session session' : Session σ}

theorem start (place : Fin size → Fin size') (world : σ)
    : SameResults place (.start world) (.start world) :=
  ⟨rfl, fun _ => rfl⟩

/-- An action of the surroundings answers the same in both sessions. -/
theorem outside (place : Fin size → Fin size') (action : Asking σ ε α)
    : (Session.outside action).Agrees (SameResults place) (Session.outside action) := by
  rintro ⟨results, begun, world⟩ ⟨results', begun', world'⟩ ⟨same, kept⟩
  obtain rfl : world' = world := same
  exact .inr ⟨.refl (fun _ => rfl) _, rfl, kept⟩

/-- The result of a task is kept for the same task in both sessions. -/
theorem publish (apart : Function.Injective place) (h : SameResults place session session')
    (index : Fin size) (result : Except TaskError Evaluation)
    : SameResults place { session with results := (index.val, result) :: session.results }
        { session' with results := ((place index).val, result) :: session'.results } := by
  refine ⟨h.world, fun other => ?_⟩
  by_cases same : other = index
  · subst same
    simp only [List.lookup_cons_self]
  · have different : ((place other).val == (place index).val) = false :=
      beq_eq_false_iff_ne.mpr fun equal => same (apart (Fin.ext equal))
    have different' : (other.val == index.val) = false :=
      beq_eq_false_iff_ne.mpr fun equal => same (Fin.ext equal)
    simp only [List.lookup_cons, different, different']
    exact h.results other

end

end SameResults

-----------------------------------------------------------------------------------------
-- Evaluation in both orders
-----------------------------------------------------------------------------------------

namespace Rearranges

variable {r r' : Registry σ} {place : Fin r.size → Fin r'.size}

/-- A task is evaluated in the same way in both registries if references are. -/
theorem evaluateWith_agrees (h : r.Rearranges r' place)
    {resolve resolve' : String → Asking (Session σ) ReferenceError Date}
    (references : ∀ id, (resolve id).Agrees (SameResults place) (resolve' id))
    (index : Fin r.size)
    : (r.evaluateWith resolve index).Agrees (SameResults place)
        (r'.evaluateWith resolve' (place index)) := by
  have slot : r'.slots.get (place index) = r.slots.get index := h.slots index
  unfold evaluateWith
  rw [slot]
  cases (r.slots.get index).trigger with
  | error error => exact .throw rfl
  | ok trigger =>
      refine Trigger.evaluate_follows (fun _ => rfl) ?_
      simp only [contextWith, callBuiltin, h.environment]
      exact
        { today := .pure _
          resolve := fun node id => (references id).mapError _ fun _ => rfl
          findHelper := fun _ => SameResults.outside place _
          runHelper := fun _ => SameResults.outside place _
          callBuiltin := fun _ _ => SameResults.outside place _
          ownLines := SameResults.outside place _
          ownTarget := SameResults.outside place _
          ownPath := SameResults.outside place _ }

variable {callers callers' : List Nat}

/-- The same tasks wait in both registries when a further one begins to wait. -/
theorem waiting_cons (h : r.Rearranges r' place)
    (waiting : ∀ index, (place index).val ∈ callers' ↔ index.val ∈ callers) (last : Fin r.size)
    : ∀ index,
        (place index).val ∈ (place last).val :: callers' ↔ index.val ∈ last.val :: callers := by
  intro index
  have same : (place index).val = (place last).val ↔ index.val = last.val := by
    rw [← Fin.ext_iff, ← Fin.ext_iff]
    exact h.apart.eq_iff
  rw [List.mem_cons, List.mem_cons, same, waiting]

-- The statements follow the two evaluators, and so does the termination: a task that is not
-- waiting joins the callers.
mutual

/-- A task has the same result in both registries if the same tasks wait for it. -/
theorem resultOf_agrees (h : r.Rearranges r' place) {callers callers' : List Nat}
    (waiting : ∀ index, (place index).val ∈ callers' ↔ index.val ∈ callers) (index : Fin r.size)
    : (r.resultOf callers index).Agrees (SameResults place)
        (r'.resultOf callers' (place index)) := by
  intro session session' same
  have anew := h.evaluateWith_agrees
    (fun id => resolve_agrees h (h.waiting_cons waiting index) id) index
  rw [resultOf_outcome, resultOf_outcome, same.results, h.slots]
  cases session.results.lookup index.val with
  | some result => exact .inr ⟨.refl (fun _ => rfl) _, same⟩
  | none =>
      cases r.slots[index].trigger with
      | error error => exact .inr ⟨.error rfl, same⟩
      | ok trigger =>
          have begun
              : SameResults place { session with begun := index.val :: session.begun }
                  { session' with begun := (place index).val :: session'.begun } :=
            ⟨same.world, same.results⟩
          rcases anew _ _ begun with ⟨_, _, none⟩ | ⟨answers, states⟩
          · exact none.elim
          · refine .inr ⟨answers, ?_⟩
            dsimp only
            rw [answers.eq]
            exact states.publish h.apart index _
termination_by (r.outsideOf (index.val :: callers), 1)

/-- A reference has the same date in both registries if the same tasks wait for it. -/
theorem resolve_agrees (h : r.Rearranges r' place) {callers callers' : List Nat}
    (waiting : ∀ index, (place index).val ∈ callers' ↔ index.val ∈ callers) (id : String)
    : (r.resolve callers id).Agrees (SameResults place) (r'.resolve callers' id) := by
  have same : r'.owner id = (r.owner id).map place := owner_map h.slots (h.declared id)
  cases owns : r.owner id with
  | unknown =>
      rw [owns] at same
      rw [resolve_of_unknown owns, resolve_of_unknown same]
      exact .throw rfl
  | ambiguous =>
      rw [owns] at same
      rw [resolve_of_ambiguous owns, resolve_of_ambiguous same]
      exact .throw rfl
  | task index =>
      rw [owns] at same
      by_cases waits : index.val ∈ callers
      · rw [resolve_of_waiting owns waits, resolve_of_waiting same ((waiting index).mpr waits)]
        exact .throw rfl
      · have := r.outsideOf_cons_lt (by simpa using waits)
        rw [resolve_of_owner owns waits, resolve_of_owner same (mt (waiting index).mp waits)]
        exact ((resultOf_agrees h waiting index).mapError _ fun _ => rfl).map _
termination_by (r.outsideOf callers, 0)

end

/-- Looking up ids one after the other leaves sessions with the same results, by induction over the
ids.
-/
theorem performAll_resolve (h : r.Rearranges r' place) (ids : List String)
    {session session' : Session σ} (same : SameResults place session session')
    : SameResults place (r.performAll session (ids.map (.resolve [])))
        (r'.performAll session' (ids.map (.resolve []))) := by
  induction ids generalizing session session' with
  | nil => exact same
  | cons id ids ih =>
      have waiting (index : Fin r.size) : (place index).val ∈ [] ↔ index.val ∈ [] := by simp
      rcases h.resolve_agrees waiting id session session' same with ⟨_, _, none⟩ | ⟨_, states⟩
      · exact none.elim
      · exact ih states

end Rearranges

/-- A batch is rearranged to the same batch in any other order. -/
theorem exists_rearranges (environment : Environment σ) {entries entries' : List TaskEntry}
    (reordered : entries.Perm entries')
    : ∃ place,
        (ofEntries environment entries).Rearranges (ofEntries environment entries') place := by
  have slots : (entries.map Slot.ofEntry).Perm (entries'.map Slot.ofEntry) := reordered.map _
  classical
  refine ⟨slots.idxBij, rfl, fun index => slots.getElem_idxBij_eq_getElem index,
    slots.idxBij_injective, fun id => ?_⟩
  exact ((slots.flatMap_right _).count_eq id).symm

/-- Ids that are looked up one after the other have the same answers in any order of the tasks. -/
theorem resolve_reordered (environment : Environment σ) {entries entries' : List TaskEntry}
    (reordered : entries.Perm entries') (world : σ) (earlier : List String) (id : String)
    : let r := ofEntries environment entries
      let r' := ofEntries environment entries'
      ((r'.resolve [] id).outcome
          (r'.performAll (.start world) (earlier.map (.resolve [])))).1
        = ((r.resolve [] id).outcome
            (r.performAll (.start world) (earlier.map (.resolve [])))).1 := by
  intro r r'
  obtain ⟨place, rearranged⟩ := exists_rearranges environment reordered
  have same := rearranged.performAll_resolve earlier (.start place world)
  have waiting (index : Fin r.size) : (place index).val ∈ [] ↔ index.val ∈ [] := by simp
  rcases rearranged.resolve_agrees waiting id _ _ same with ⟨_, _, none⟩ | ⟨answers, _⟩
  · exact none.elim
  · exact answers.eq.symm

end Registry

end DueTasks
