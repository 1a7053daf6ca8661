import DueTasks.Proofs.Registry.Steady
import Mathlib.Data.Fintype.Lattice

/-! Evaluation of tasks without kept results.
`Registry.recompute` evaluates a task anew, with everything it refers to, and keeps from the session
only the state of the surroundings. What it answers is approximated by stages: at stage 0 every task
fails with a cycle, and at each further stage the tasks are evaluated with the answers of the stage
before. An answer that is no cycle stays the same from the stage on at which it first appears.
-/

namespace DueTasks

open Asking

variable {σ : Type}

-----------------------------------------------------------------------------------------
-- Errors up to the wording of cycles
-----------------------------------------------------------------------------------------

/-- The error is that of a cycle, whichever id it names and whichever text it quotes. -/
def TaskError.isCycle : TaskError → Bool
  | .semantic _ (.cycle _) => true
  | _ => false

theorem TaskError.isCycle_iff {error : TaskError}
    : error.isCycle = true ↔ ∃ text id, error = .semantic text (.cycle id) := by
  constructor
  · intro cycle
    unfold isCycle at cycle
    split at cycle
    · exact ⟨_, _, rfl⟩
    · cases cycle
  · rintro ⟨text, id, rfl⟩
    rfl

/-- The errors are equal, or both are cycles. -/
def TaskError.Alike (a b : TaskError) : Prop :=
  a = b ∨ (a.isCycle = true ∧ b.isCycle = true)

/-- The reference failed because it leads back, at once or further on. -/
def ReferenceError.isCycle : ReferenceError → Bool
  | .reference (.cycle _) => true
  | .target error => error.isCycle
  | _ => false

/-- The reference errors are equal, or both are cycles. -/
def ReferenceError.Alike (a b : ReferenceError) : Prop :=
  a = b ∨ (a.isCycle = true ∧ b.isCycle = true)

theorem TaskError.Alike.refl (error : TaskError) : error.Alike error :=
  .inl rfl

theorem ReferenceError.Alike.refl (error : ReferenceError) : error.Alike error :=
  .inl rfl

theorem TaskError.Alike.symm {a b : TaskError} (h : a.Alike b) : b.Alike a :=
  h.imp Eq.symm And.symm

theorem TaskError.Alike.trans {a b c : TaskError} (h : a.Alike b) (h' : b.Alike c)
    : a.Alike c := by
  rcases h with rfl | ⟨first, second⟩
  · exact h'
  · rcases h' with rfl | ⟨_, third⟩
    · exact .inr ⟨first, second⟩
    · exact .inr ⟨first, third⟩

/-- References to tasks whose errors are alike fail with errors that are alike. -/
theorem TaskError.Alike.target {a b : TaskError} (h : a.Alike b)
    : (ReferenceError.target a).Alike (.target b) :=
  h.imp (congrArg _) id

/-- A reference error is a cycle exactly if the error that its task shows is one. -/
theorem Trigger.referenceError_isCycle (t : Trigger) (node : Node) (error : ReferenceError)
    : (t.referenceError node error).isCycle = error.isCycle := by
  cases error with
  | reference error => cases error <;> rfl
  | target error => rfl

/-- Reference errors that are alike show as task errors that are alike. -/
theorem Trigger.referenceError_alike (t : Trigger) (node : Node) {a b : ReferenceError}
    (h : a.Alike b)
    : (t.referenceError node a).Alike (t.referenceError node b) := by
  rcases h with rfl | ⟨first, second⟩
  · exact .refl _
  · exact .inr ⟨by rw [referenceError_isCycle, first], by rw [referenceError_isCycle, second]⟩

/-- Two evaluations of a task are equal, or both are cycles. -/
abbrev SameEvaluation (a b : Except TaskError Evaluation) : Prop :=
  SameAnswer TaskError.Alike a b

/-- An answer is known if it is no cycle. -/
def Known (answer : Except TaskError Evaluation) : Prop :=
  ∀ error, answer = .error error → error.isCycle = false

/-- An answer that is not known is the error of a cycle. -/
theorem exists_cycle_of_not_known {answer : Except TaskError Evaluation} (h : ¬ Known answer)
    : ∃ error, answer = .error error ∧ error.isCycle = true := by
  simp only [Known, not_forall, Bool.not_eq_false] at h
  obtain ⟨error, failed, cycle⟩ := h
  exact ⟨error, failed, cycle⟩

-----------------------------------------------------------------------------------------
-- Evaluation that keeps no results
-----------------------------------------------------------------------------------------

namespace Registry

variable (r : Registry σ)

/-- The evaluation of a task whose references are resolved in a given way. -/
def evaluateWith (resolve : String → Asking (Session σ) ReferenceError Date) (index : Fin r.size)
    : Asking (Session σ) TaskError Evaluation :=
  match (r.slots.get index).trigger with
  | .error error => throw error
  | .ok trigger => trigger.evaluate (r.contextWith (r.slots.get index).entry resolve)

mutual

/-- The evaluation of a task, made anew together with all it refers to. Results kept in the session
are neither used nor added. `callers` are the tasks that wait for it.
-/
def recompute (callers : List Nat) (index : Fin r.size)
    : Asking (Session σ) TaskError Evaluation :=
  r.evaluateWith (fun id => recomputeDate (index.val :: callers) id) index
termination_by (r.outsideOf (index.val :: callers), 1)

/-- The date of the task that declares an id, made anew. A task among the `callers` waits for this
answer.
-/
def recomputeDate (callers : List Nat) (id : String) : Asking (Session σ) ReferenceError Date :=
  match r.owner id with
  | .unknown => throw (.reference (.idNotFound id))
  | .ambiguous => throw (.reference (.duplicateId id))
  | .task index =>
      if h : callers.contains index.val then throw (.reference (.cycle id))
      else
        have := r.outsideOf_cons_lt (Bool.not_eq_true _ ▸ h)
        (·.date) <$> (recompute callers index).mapError .target
termination_by (r.outsideOf callers, 0)

end

/-- The date of the task that declares an id, if the tasks have the given answers. -/
def dateFrom (answers : Fin r.size → Except TaskError Evaluation) (id : String)
    : Except ReferenceError Date :=
  match r.owner id with
  | .unknown => .error (.reference (.idNotFound id))
  | .ambiguous => .error (.reference (.duplicateId id))
  | .task index => ((answers index).map (·.date)).mapError .target

/-- The answers of all tasks after a number of rounds, asked in a given session. In each round every
reference is resolved by the answers of the round before, and before the first one by a cycle.
-/
def stage (session : Session σ) : Nat → Fin r.size → Except TaskError Evaluation
  | 0, _ => .error (.semantic "" (.cycle ""))
  | rounds + 1, index =>
      ((r.evaluateWith (fun id => liftM (r.dateFrom (stage session rounds) id)) index).outcome
        session).1

variable {r}

/-- A task is evaluated alike when its references are resolved alike. -/
theorem evaluateWith_follows (steady : r.environment.Steady)
    (keep : Session σ → Session σ → Prop)
    (closed : ∀ s t world world', keep s t → keep { s with world } { t with world := world' })
    {same : TaskError → TaskError → Prop} {lost : TaskError → Prop}
    (refl : ∀ error, same error error) (index : Fin r.size)
    {left right : String → Asking (Session σ) ReferenceError Date}
    (resolve
      : ∀ (t : Trigger) node id,
          ((left id).mapError (t.referenceError node)).Follows keep same lost
            ((right id).mapError (t.referenceError node)))
    : (r.evaluateWith left index).Follows keep same lost (r.evaluateWith right index) := by
  unfold evaluateWith
  split
  · exact .throw (refl _)
  · exact Trigger.evaluate_follows refl
      (r.contextWith_follows steady closed _ (resolve _))

/-- The evaluation of a task keeps what its references keep, the surroundings apart. -/
theorem evaluateWith_stable {kept : Session σ → Prop}
    (closed : ∀ session world, kept session → kept { session with world }) (index : Fin r.size)
    {resolve : String → Asking (Session σ) ReferenceError Date}
    (resolves : ∀ id, (resolve id).Stable kept)
    : (r.evaluateWith resolve index).Stable kept := by
  unfold evaluateWith
  split
  · exact fun session holds => holds
  · exact Trigger.evaluate_stable {
      today := fun session holds => holds
      resolve := resolves
      findHelper := fun name => Session.outside_stable closed _
      runHelper := fun words => Session.outside_stable closed _
      callBuiltin := fun name words => Session.outside_stable closed _
      ownLines := Session.outside_stable closed _
      ownTarget := Session.outside_stable closed _
      ownPath := Session.outside_stable closed _
    }

-----------------------------------------------------------------------------------------
-- Known answers stay
-----------------------------------------------------------------------------------------

/-- The date of an id depends only on the answer of the task that declares it. -/
theorem dateFrom_congr {first second : Fin r.size → Except TaskError Evaluation} {id : String}
    (agree : ∀ target, r.owner id = .task target → first target = second target)
    : r.dateFrom first id = r.dateFrom second id := by
  unfold dateFrom
  cases owns : r.owner id with
  | unknown | ambiguous => rfl
  | task target => dsimp only; rw [agree target owns]

/-- A reference to a task that failed fails with that task's error. -/
theorem dateFrom_error {answers : Fin r.size → Except TaskError Evaluation} {id : String}
    {target : Fin r.size} {error : TaskError} (owns : r.owner id = .task target)
    (failed : answers target = .error error)
    : r.dateFrom answers id = .error (.target error) := by
  unfold dateFrom
  rw [owns]
  dsimp only
  rw [failed]
  rfl

/-- If the evaluation of a task follows an answer, then a reference to the task follows the date of
that answer.
-/
theorem date_follows {ρ τ : Type} {keep : ρ → τ → Prop} {action : Asking ρ TaskError Evaluation}
    {answer : Except TaskError Evaluation}
    (h : action.Follows keep TaskError.Alike (fun _ => False) (liftM answer : Asking τ _ _))
    : ((·.date) <$> action.mapError ReferenceError.target).Follows keep ReferenceError.Alike
        (fun _ => False)
        (liftM ((answer.map (·.date)).mapError ReferenceError.target) : Asking τ _ _) := by
  have wrapped : (action.mapError ReferenceError.target).Follows keep ReferenceError.Alike
      (fun _ => False) ((liftM answer : Asking τ _ _).mapError ReferenceError.target) :=
    h.mapError (fun _ _ => TaskError.Alike.target) (fun _ none => none)
  have dated := wrapped.map (·.date)
  cases answer with
  | ok value => exact dated
  | error error => exact dated

/-- Answers that agree where the second ones are known give the same dates, or the second one fails
with a cycle.
-/
theorem dateFrom_follows {ρ τ : Type} {keep : ρ → τ → Prop}
    {more fewer : Fin r.size → Except TaskError Evaluation}
    (agree : ∀ index, Known (fewer index) → more index = fewer index)
    (t : Trigger) (node : Node) (id : String)
    : ((liftM (r.dateFrom more id) : Asking ρ _ _).mapError (t.referenceError node)).Follows keep Eq
        (fun error => error.isCycle = true)
        ((liftM (r.dateFrom fewer id) : Asking τ _ _).mapError (t.referenceError node)) := by
  rw [mapError_lift, mapError_lift]
  by_cases known : ∀ target, r.owner id = .task target → Known (fewer target)
  · rw [dateFrom_congr fun target owns => agree target (known target owns)]
    exact .lift (.refl (fun _ => rfl) _)
  · push Not at known
    obtain ⟨target, owns, unknown⟩ := known
    obtain ⟨error, failed, cycle⟩ := exists_cycle_of_not_known unknown
    rw [dateFrom_error owns failed]
    exact .of_lost cycle

section Stages

variable (steady : r.environment.Steady) (session : Session σ)

theorem not_known_stage_zero (index : Fin r.size) : ¬ Known (r.stage session 0 index) := by
  intro known
  have := known _ rfl
  cases this

include steady

/-- One more round does not change an answer that is known, by induction on the rounds: the
references that the answer rests on are known a round earlier.
-/
theorem stage_succ_of_known {rounds : Nat} {index : Fin r.size}
    (known : Known (r.stage session rounds index))
    : r.stage session (rounds + 1) index = r.stage session rounds index := by
  induction rounds generalizing index with
  | zero => exact absurd known (not_known_stage_zero session index)
  | succ rounds ih =>
      have agree (i : Fin r.size) (h : Known (r.stage session rounds i))
          : r.stage session (rounds + 1) i = r.stage session rounds i := ih h
      have follows := evaluateWith_follows steady (fun _ _ => True) (fun _ _ _ _ _ => trivial)
        (fun _ => rfl) index (dateFrom_follows agree)
      rcases follows session session trivial with ⟨error, failed, cycle⟩ | ⟨answers, _⟩
      · rw [known error failed] at cycle
        cases cycle
      · exact answers.eq

/-- More rounds do not change an answer that is known. -/
theorem stage_eq_of_known {rounds more : Nat} {index : Fin r.size}
    (known : Known (r.stage session rounds index)) (le : rounds ≤ more)
    : r.stage session more index = r.stage session rounds index := by
  induction more, le using Nat.le_induction with
  | base => rfl
  | succ more _ ih =>
      have still : Known (r.stage session more index) := ih ▸ known
      rw [stage_succ_of_known steady session still, ih]

/-- After some number of rounds no further answer becomes known, since there are finitely many
tasks.
-/
theorem exists_last_stage
    : ∃ last, ∀ rounds index,
        Known (r.stage session rounds index)
        → r.stage session last index = r.stage session rounds index := by
  have each (index : Fin r.size)
      : ∃ first, ∀ rounds,
          Known (r.stage session rounds index) → Known (r.stage session first index) := by
    by_cases some : ∃ rounds, Known (r.stage session rounds index)
    · obtain ⟨first, known⟩ := some
      exact ⟨first, fun _ _ => known⟩
    · exact ⟨0, fun rounds known => absurd ⟨rounds, known⟩ some⟩
  choose first isFirst using each
  refine ⟨Finset.univ.sup first, fun rounds index known => ?_⟩
  have below : first index ≤ Finset.univ.sup first := Finset.le_sup (Finset.mem_univ index)
  have early := isFirst index rounds known
  rw [stage_eq_of_known steady session early below]
  rcases Nat.le_total (first index) rounds with le | le
  · exact (stage_eq_of_known steady session early le).symm
  · exact stage_eq_of_known steady session known le

end Stages

end Registry

end DueTasks
