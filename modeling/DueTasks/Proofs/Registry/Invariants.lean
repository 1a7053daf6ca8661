import DueTasks.Proofs.Registry.Memoization
import DueTasks.Proofs.Registry.Queries

/-! What every batch keeps to.
If the evaluation of a single task keeps a property of the surroundings and answers in a given way,
as long as references do, then so does every batch, whatever results it has kept.
-/

namespace DueTasks

open Asking

variable {σ : Type}

/-- The surroundings are in a state with a property, and all kept results are good. -/
structure Session.Sound (held : σ → Prop) (good : Except TaskError Evaluation → Prop)
    (session : Session σ)
    : Prop where
  world : held session.world
  results : ∀ index result, session.results.lookup index = some result → good result

namespace Session.Sound

variable {held : σ → Prop} {good : Except TaskError Evaluation → Prop} {session later : Session σ}

theorem start {world : σ} (h : held world) : (Session.start world).Sound held good where
  world := h
  results := by
    rintro index result ⟨⟩

theorem of_results (h : session.Sound held good) (world : held later.world)
    (same : later.results = session.results)
    : later.Sound held good :=
  ⟨world, fun index result found => h.results index result (same ▸ found)⟩

/-- One more result can be kept if it is good itself. -/
theorem publish (h : session.Sound held good) {result : Except TaskError Evaluation}
    (new : good result) (index : Nat)
    : Session.Sound held good { session with results := (index, result) :: session.results } where
  world := h.world
  results other found member := by
    rw [List.lookup_cons] at member
    split at member
    · exact Option.some.inj member ▸ new
    · exact h.results other found member

/-- What an action of the surroundings keeps of them, it keeps of the session. -/
theorem outside {ε α : Type} {answers : Except ε α → Prop} {action : Asking σ ε α}
    (h : action.Yields held answers)
    : (Session.outside action).Yields (Session.Sound held good) answers := by
  intro session sound
  obtain ⟨answered, world⟩ := h session.world sound.world
  exact ⟨answered, sound.of_results world rfl⟩

end Session.Sound

/-- A reference is answered with a date, with a fault of its own, or with the error of a good
result.
-/
def GoodReference (good : Except TaskError Evaluation → Prop) (faulty : SemanticError → Prop)
    : Except ReferenceError Date → Prop
  | .ok _ => True
  | .error (.reference error) => faulty error
  | .error (.target error) => good (.error error)

namespace Registry

/-- The evaluation of a task answers well if the references do that it asks for. -/
structure EvaluatesWell (r : Registry σ) (held : σ → Prop)
    (good : Except TaskError Evaluation → Prop) (asked : String → Prop)
    (faulty : SemanticError → Prop)
    : Prop where
  evaluates
    : ∀ index resolve,
        (∀ id, asked id → Yields (Session.Sound held good) (GoodReference good faulty) (resolve id))
        → (r.evaluateWith resolve index).Yields (Session.Sound held good) good
  unknown : ∀ id, asked id → faulty (.idNotFound id)
  ambiguous : ∀ id, asked id → faulty (.duplicateId id)
  cycle : ∀ id, asked id → faulty (.cycle id)

variable {r : Registry σ} {held : σ → Prop} {good : Except TaskError Evaluation → Prop}
  {asked : String → Prop} {faulty : SemanticError → Prop}

mutual

/-- Every task is answered well, by induction on the tasks that do not wait for it. -/
theorem resultOf_yields (well : r.EvaluatesWell held good asked faulty) (callers : List Nat)
    (index : Fin r.size)
    : (r.resultOf callers index).Yields (Session.Sound held good) good := by
  intro session sound
  have anew := well.evaluates index (fun id => r.resolve (index.val :: callers) id) fun id isAsked =>
    resolve_yields well (index.val :: callers) isAsked
  rw [resultOf_outcome]
  cases found : session.results.lookup index.val with
  | some result => exact ⟨sound.results _ _ found, sound⟩
  | none =>
      cases read : r.slots[index].trigger with
      | error error =>
          have unread : (r.slots.get index).trigger = .error error := read
          have answered := anew session sound
          rw [evaluateWith, unread] at answered
          exact answered
      | ok trigger =>
          obtain ⟨answered, later⟩ := anew { session with begun := index.val :: session.begun }
            (sound.of_results sound.world rfl)
          exact ⟨answered, later.publish answered index.val⟩
termination_by (r.outsideOf (index.val :: callers), 1)

/-- A reference is answered well. -/
theorem resolve_yields (well : r.EvaluatesWell held good asked faulty) (callers : List Nat)
    {id : String} (isAsked : asked id)
    : (r.resolve callers id).Yields (Session.Sound held good) (GoodReference good faulty) := by
  intro session sound
  rw [resolve]
  split
  · exact ⟨well.unknown id isAsked, sound⟩
  · exact ⟨well.ambiguous id isAsked, sound⟩
  · rename_i index owns
    split
    · exact ⟨well.cycle id isAsked, sound⟩
    · rename_i outside
      have := r.outsideOf_cons_lt (Bool.not_eq_true _ ▸ outside)
      obtain ⟨answered, later⟩ := resultOf_yields well callers index session sound
      rw [outcome_map, outcome_mapError]
      refine ⟨?_, later⟩
      generalize ((r.resultOf callers index).outcome session).1 = answer at answered ⊢
      cases answer with
      | ok evaluation => trivial
      | error error => exact answered
termination_by (r.outsideOf callers, 0)

end

/-- Tasks that are evaluated one after the other are all answered well, by induction over them. -/
theorem evaluateEach_yields (well : r.EvaluatesWell held good asked faulty)
    (indices : List (Fin r.size)) {session : Session σ} (sound : session.Sound held good)
    : (∀ outcome ∈ ((r.evaluateEach indices).run session).1, good outcome.2)
      ∧ ((r.evaluateEach indices).run session).2.Sound held good := by
  induction indices generalizing session with
  | nil => exact ⟨fun _ member => absurd member List.not_mem_nil, sound⟩
  | cons index indices ih =>
      obtain ⟨answered, later⟩ := resultOf_yields well [] index session sound
      obtain ⟨more, final⟩ := ih later
      rw [evaluateEach_cons]
      exact ⟨List.forall_mem_cons.mpr ⟨answered, more⟩, final⟩

theorem evaluateAll_yields (well : r.EvaluatesWell held good asked faulty) {session : Session σ}
    (sound : session.Sound held good)
    : (∀ outcome ∈ (r.evaluateAll.run session).1, good outcome.2)
      ∧ (r.evaluateAll.run session).2.Sound held good :=
  evaluateEach_yields well (List.finRange r.size) sound

end Registry

end DueTasks
