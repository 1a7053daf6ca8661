import DueTasks.Proofs.Registry.Queries

/-! At most one evaluation per task.
An evaluation begins only for a task that is neither in progress nor done: all tasks in progress
wait for the one that is asked, so that a reference back to one of them is a cycle, and a task that
is done has a kept result. Kept results are never replaced, so that a result that was given once is
given for good, without any further question to the surroundings. Nothing is assumed about these:
they may answer differently each time.
-/

namespace DueTasks

open Asking

variable {σ : Type}

/-- The later session has all results of the earlier one. -/
def Session.Extends (earlier later : Session σ) : Prop :=
  ∀ index result,
    earlier.results.lookup index = some result → later.results.lookup index = some result

theorem Session.Extends.refl (session : Session σ) : session.Extends session :=
  fun _ _ found => found

namespace Registry

/-- Since an earlier session, tasks were evaluated in order: the tasks begun are those in progress
and those with a result, each was begun once, their names can be read, and no result was replaced.
-/
structure Orderly (r : Registry σ) (earlier : Session σ) (inProgress : List Nat)
    (session : Session σ)
    : Prop where
  once : session.begun.Nodup
  begun
    : ∀ index,
        index ∈ session.begun
        ↔ index ∈ inProgress ∨ (session.results.lookup index).isSome = true
  pending : ∀ index ∈ inProgress, session.results.lookup index = none
  readable
    : ∀ index : Fin r.size,
        index.val ∈ session.begun → ∃ trigger, r.slots[index].trigger = .ok trigger
  kept : earlier.Extends session

/-- The result of a task, once it is known: that of a name that cannot be read is known from the
start, and that of an evaluation when it ends.
-/
def result? (r : Registry σ) (session : Session σ) (index : Fin r.size)
    : Option (Except TaskError Evaluation) :=
  match (r.slots.get index).trigger with
  | .error error => some (.error error)
  | .ok _ => session.results.lookup index.val

variable {r : Registry σ} {earlier : Session σ}

theorem result?_of_error {session : Session σ} {index : Fin r.size} {error : TaskError}
    (failed : r.slots[index].trigger = .error error)
    : r.result? session index = some (.error error) := by
  have slot : (r.slots.get index).trigger = .error error := failed
  rw [result?, slot]

theorem result?_of_ok {session : Session σ} {index : Fin r.size} {trigger : Trigger}
    (read : r.slots[index].trigger = .ok trigger)
    : r.result? session index = session.results.lookup index.val := by
  have slot : (r.slots.get index).trigger = .ok trigger := read
  rw [result?, slot]

-----------------------------------------------------------------------------------------
-- What one evaluation changes
-----------------------------------------------------------------------------------------

namespace Orderly

variable {session : Session σ} {inProgress : List Nat} {index : Fin r.size}

theorem start (r : Registry σ) (world : σ)
    : r.Orderly (.start world) [] (.start world) where
  once := List.nodup_nil
  begun index := by simp [Session.start]
  pending index member := nomatch member
  readable index member := nomatch member
  kept := .refl _

/-- The state of the surroundings does not matter. -/
theorem withWorld (h : r.Orderly earlier inProgress session) (world : σ)
    : r.Orderly earlier inProgress { session with world } :=
  ⟨h.once, h.begun, h.pending, h.readable, h.kept⟩

/-- What was orderly up to a session is orderly from there on. -/
theorem fromHere (h : r.Orderly earlier inProgress session)
    : r.Orderly session inProgress session :=
  { h with kept := .refl session }

/-- A task without a result that is not in progress has not been begun, and can begin. -/
theorem begin (h : r.Orderly earlier inProgress session) {trigger : Trigger}
    (read : r.slots[index].trigger = .ok trigger) (out : index.val ∉ inProgress)
    (new : session.results.lookup index.val = none)
    : r.Orderly earlier (index.val :: inProgress)
        { session with begun := index.val :: session.begun } where
  once := by
    refine List.nodup_cons.mpr ⟨fun again => ?_, h.once⟩
    rcases (h.begun index.val).mp again with running | done
    · exact out running
    · rw [new] at done
      cases done
  begun other := by
    simp only [List.mem_cons, h.begun other, or_assoc]
  pending other member := by
    rcases List.mem_cons.mp member with rfl | running
    · exact new
    · exact h.pending other running
  readable other member := by
    rcases List.mem_cons.mp member with same | earlier
    · exact Fin.ext same ▸ ⟨trigger, read⟩
    · exact h.readable other earlier
  kept := h.kept

/-- A task in progress ends with a result, which is its first one. -/
theorem finish (h : r.Orderly earlier (index.val :: inProgress) session)
    (out : index.val ∉ inProgress) (result : Except TaskError Evaluation)
    : r.Orderly earlier inProgress
        { session with results := (index.val, result) :: session.results } where
  once := h.once
  begun other := by
    rw [h.begun other, List.mem_cons, List.lookup_cons]
    by_cases same : other = index.val
    · simp [same]
    · simp [same, beq_eq_false_iff_ne.mpr same]
  pending other member := by
    have apart : other ≠ index.val := fun same => out (same ▸ member)
    rw [List.lookup_cons, beq_eq_false_iff_ne.mpr apart]
    exact h.pending other (List.mem_cons_of_mem _ member)
  readable := h.readable
  kept other value found := by
    have before := h.kept other value found
    have apart : other ≠ index.val := by
      rintro rfl
      rw [h.pending _ List.mem_cons_self] at before
      cases before
    rw [List.lookup_cons, beq_eq_false_iff_ne.mpr apart]
    exact before

/-- A task whose name cannot be read has no kept result. -/
theorem lookup_eq_none (h : r.Orderly earlier inProgress session) {error : TaskError}
    (failed : r.slots[index].trigger = .error error)
    : session.results.lookup index.val = none := by
  by_contra some
  have done := Option.isSome_iff_ne_none.mpr some
  obtain ⟨trigger, read⟩ := h.readable index ((h.begun index.val).mpr (.inr done))
  rw [failed] at read
  cases read

end Orderly

mutual

/-- A task that is not in progress is evaluated in order if all tasks in progress wait for it, by
induction on the tasks that do not wait for it.
-/
theorem resultOf_orderly {inProgress callers : List Nat} {index : Fin r.size}
    (waiting : inProgress ⊆ callers) (out : index.val ∉ inProgress)
    : (r.resultOf callers index).Stable (r.Orderly earlier inProgress) := by
  intro session orderly
  rw [resultOf_outcome]
  cases found : session.results.lookup index.val with
  | some result => exact orderly
  | none =>
      cases read : r.slots[index].trigger with
      | error error => exact orderly
      | ok trigger =>
          have references (id : String)
              : (r.resolve (index.val :: callers) id).Stable
                  (r.Orderly earlier (index.val :: inProgress)) :=
            resolve_orderly (List.cons_subset_cons _ waiting)
          have anew := evaluateWith_stable (fun _ world orderly => orderly.withWorld world) index
            references
          exact (anew _ (orderly.begin read out found)).finish out _
termination_by (r.outsideOf (index.val :: callers), 1)

/-- The task that declares an id is evaluated in order if all tasks in progress wait for it. If it
is in progress itself, the reference is a cycle.
-/
theorem resolve_orderly {inProgress callers : List Nat} {id : String}
    (waiting : inProgress ⊆ callers)
    : (r.resolve callers id).Stable (r.Orderly earlier inProgress) := by
  intro session orderly
  rw [resolve]
  split
  · exact orderly
  · exact orderly
  · rename_i index owns
    split
    · exact orderly
    · rename_i outside
      have := r.outsideOf_cons_lt (Bool.not_eq_true _ ▸ outside)
      have out : index.val ∉ inProgress := fun running =>
        outside (List.contains_iff_mem.mpr (waiting running))
      rw [outcome_map, outcome_mapError]
      exact resultOf_orderly waiting out session orderly
termination_by (r.outsideOf callers, 0)

end

-----------------------------------------------------------------------------------------
-- Known results
-----------------------------------------------------------------------------------------

namespace Orderly

variable {session : Session σ} {inProgress : List Nat} {index : Fin r.size}

/-- A result that is known stays known. -/
theorem result?_eq (h : r.Orderly earlier inProgress session) {result : Except TaskError Evaluation}
    (known : r.result? earlier index = some result)
    : r.result? session index = some result := by
  cases read : r.slots[index].trigger with
  | error error => rwa [result?_of_error read] at known ⊢
  | ok trigger =>
      rw [result?_of_ok read] at known ⊢
      exact h.kept _ _ known

/-- A known result is given as it stands, whoever waits for it, and nothing is asked for it. -/
theorem resultOf_outcome_eq (h : r.Orderly earlier inProgress session)
    {result : Except TaskError Evaluation} (known : r.result? session index = some result)
    (callers : List Nat)
    : (r.resultOf callers index).outcome session = (result, session) := by
  rw [resultOf_outcome]
  cases read : r.slots[index].trigger with
  | error error =>
      rw [result?_of_error read] at known
      rw [h.lookup_eq_none read, ← Option.some.inj known]
  | ok trigger =>
      rw [result?_of_ok read] at known
      rw [known]

/-- What a task answers is its result from then on. -/
theorem result?_resultOf (h : r.Orderly earlier inProgress session) (callers : List Nat)
    : r.result? ((r.resultOf callers index).outcome session).2 index
      = some ((r.resultOf callers index).outcome session).1 := by
  rw [resultOf_outcome]
  cases read : r.slots[index].trigger with
  | error error => rw [result?_of_error read, h.lookup_eq_none read]
  | ok trigger =>
      rw [result?_of_ok read]
      cases found : session.results.lookup index.val with
      | some result => exact found
      | none => exact List.lookup_cons_self

/-- Whether tasks were evaluated in order does not depend on the surroundings. -/
theorem elsewhere {environment other : Environment σ} {entries : List TaskEntry}
    (h : (ofEntries environment entries).Orderly earlier inProgress session)
    : (ofEntries other entries).Orderly earlier inProgress session :=
  ⟨h.once, h.begun, h.pending, h.readable, h.kept⟩

end Orderly

-----------------------------------------------------------------------------------------
-- Queries
-----------------------------------------------------------------------------------------

namespace Orderly

variable {session : Session σ}

/-- A task for which nothing is in progress is evaluated in order, whoever waits for it. -/
theorem resultOf (callers : List Nat) (index : Fin r.size)
    : (r.resultOf callers index).Stable (r.Orderly earlier []) :=
  resultOf_orderly (List.nil_subset _) List.not_mem_nil

/-- Every query goes on in order, whoever waits for its answer. -/
theorem performAll (h : r.Orderly earlier [] session) (queries : List (Query r.size))
    : r.Orderly earlier [] (r.performAll session queries) :=
  performAll_stable (resultOf []) (fun _ world orderly => orderly.withWorld world)
    (fun query _ => resultOf query.callers) h

/-- Tasks that are evaluated one after the other answer with what are their results in the end, by
induction over the tasks.
-/
theorem evaluateEach_answers (h : r.Orderly earlier [] session) (indices : List (Fin r.size))
    : let ran := (r.evaluateEach indices).run session
      ran.1.map (fun answer => (answer.1, some answer.2))
      = indices.map fun index => (r.slots[index].entry, r.result? ran.2 index) := by
  induction indices generalizing session with
  | nil => rfl
  | cons index indices ih =>
      rw [evaluateEach_cons]
      have first := resultOf [] index session h
      have later := evaluateEach_stable (resultOf []) first.fromHere indices
      have answers := ih first
      show (_, some _) :: List.map _ _ = (_, _) :: List.map _ _
      rw [answers, later.result?_eq (h.result?_resultOf [])]

end Orderly

/-- What a query answers about tasks are their results as they are known from then on. A reference
is resolved by the result of the task that declares its id, unless that task waits for the answer.
-/
def Answered (r : Registry σ) (session : Session σ) (query : Query r.size) : Prop :=
  let later := r.perform session query
  match query with
  | .evaluate path =>
      ∀ index,
        r.indexOf? path = some index
        → r.result? later index = some ((r.evaluate path).outcome session).1
  | .date path =>
      ∀ index,
        r.indexOf? path = some index
        → (r.result? later index).map (Except.map (·.date))
            = some ((r.date path).outcome session).1
  | .doneName path =>
      ∀ index, r.indexOf? path = some index → (r.result? later index).isSome = true
  | .evaluateAll =>
      (r.evaluateAll.run session).1.map (fun answer => (answer.1, some answer.2))
        = (List.finRange r.size).map fun index => ((r.slots.get index).entry, r.result? later index)
  | .resolve callers id =>
      ∀ index,
        r.owner id = .task index
        → index.val ∉ callers
        → (r.result? later index).map
              (fun result => (result.mapError ReferenceError.target).map (·.date))
            = some ((r.resolve callers id).outcome session).1
  | .resultOf callers index =>
      r.result? later index = some ((r.resultOf callers index).outcome session).1

/-- Whatever was asked before, a query answers with the results that are known from then on. -/
theorem answered {session : Session σ} (h : r.Orderly earlier [] session) (query : Query r.size)
    : r.Answered session query := by
  cases query with
  | evaluate path =>
      intro index found
      rw [perform, evaluate_of_found found]
      exact h.result?_resultOf []
  | date path =>
      intro index found
      rw [perform, date, outcome_map, evaluate_of_found found, h.result?_resultOf []]
      rfl
  | doneName path =>
      intro index found
      have evaluated := (Orderly.resultOf [] index session h).fromHere
      have named := doneName_after_evaluation (fun _ world orderly => orderly.withWorld world) found
        evaluated
      rw [perform, named.result?_eq (h.result?_resultOf [])]
      rfl
  | evaluateAll => exact h.evaluateEach_answers (List.finRange r.size)
  | resolve callers id =>
      intro index owns out
      rw [perform, resolve_of_owner owns out, outcome_map, outcome_mapError,
        h.result?_resultOf callers]
      rfl
  | resultOf callers index => exact h.result?_resultOf callers

/-- Every task is evaluated at most once, however its queries come and whoever waits for their
answers: an evaluation that began, and so also one that is still in progress, never begins again.
What the queries answer are the results of the tasks, and the result of a task, once it is known, is
what every later query for the task answers. To answer it the surroundings are not asked, since any
others would do as well, and stay as they are.
-/
theorem evaluated_once (environment : Environment σ) {entries : List TaskEntry}
    (distinct : entries.Pairwise fun a b => a.path.same b.path = false) (world : σ)
    (queries : List (Query (ofEntries environment entries).size))
    : let r := ofEntries environment entries
      let session := r.performAll (Session.start world) queries
      session.begun.Nodup
      ∧ (∀ query, r.Answered session query)
      ∧ ∀ index result,
          r.result? session index = some result
          → ∀ (more : List (Query r.size)) (other : Environment σ),
              let later := r.performAll session more
              let path := r.slots[index].entry.path
              ((ofEntries other entries).evaluate path).outcome later = (result, later)
              ∧ ((ofEntries other entries).date path).outcome later
                = (result.map (·.date), later) := by
  intro r session
  have orderly : r.Orderly (.start world) [] session := (Orderly.start r world).performAll queries
  refine ⟨orderly.once, answered orderly, ?_⟩
  intro index result known more other later path
  have since : r.Orderly session [] later := orderly.fromHere.performAll more
  have elsewhere : (ofEntries other entries).Orderly session [] later := since.elsewhere
  have apart : (ofEntries other entries).slots.Pairwise fun a b =>
      a.entry.path.same b.entry.path = false :=
    List.pairwise_map.mpr distinct
  have evaluated : ((ofEntries other entries).evaluate path).outcome later = (result, later) := by
    have found : (ofEntries other entries).indexOf? path = some index :=
      indexOf?_path apart index
    rw [evaluate_of_found found]
    exact elsewhere.resultOf_outcome_eq (since.result?_eq known) []
  refine ⟨evaluated, ?_⟩
  rw [date, outcome_map, evaluated]

/-- Surroundings in which every run of a helper prints the first day of another year. -/
def driftingHelpers : Environment Nat where
  now := .first
  files := Environment.counting.files
  run _ := do
    let runs ← get
    set (runs + 1)
    return ⟨some 0, toString (2000 + runs) ++ "-01-01", ""⟩
  filters := .none
  builtins := Builtin.standard

/-- The second of two tasks that refer to each other is evaluated on behalf of a third one, and
keeps its result although its helper would print another date.
-/
theorem evaluated_once_of_mutual_references
    : mutualEntries.Pairwise (fun a b => a.path.same b.path = false)
      ∧ let r := ofEntries driftingHelpers mutualEntries
        let session := r.performAll (Session.start 0) [.date ⟨"c"⟩, .resultOf [2] ⟨1, by decide⟩]
        let later := r.performAll session [.resolve [0] "b", .evaluateAll, .doneName ⟨"b"⟩]
        session.begun.Nodup
        ∧ ∃ result,
            r.result? session ⟨1, by decide⟩ = some result
            ∧ (r.evaluate ⟨"b"⟩).outcome later = (result, later) := by
  refine ⟨by decide, ?_⟩
  intro r session later
  have distinct : mutualEntries.Pairwise fun a b => a.path.same b.path = false := by decide
  obtain ⟨-, answered, -⟩ := evaluated_once driftingHelpers distinct 0 [.date ⟨"c"⟩]
  obtain ⟨once, -, kept⟩ := evaluated_once driftingHelpers distinct 0
    [.date ⟨"c"⟩, .resultOf [2] ⟨1, by decide⟩]
  have known := answered (.resultOf [2] ⟨1, by decide⟩)
  exact ⟨once, _, known, (kept _ _ known _ driftingHelpers).1⟩

end Registry

end DueTasks
