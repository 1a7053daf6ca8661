import DueTasks.Proofs.Registry.Recomputation

/-! Kept results do not change answers.
A task that is first evaluated deep inside the evaluation of another one is checked for cycles
against all tasks that wait for it, and its result is kept. Both the kept results and the evaluation
without them are shown to be the answers of the last stage. What makes this work is the order in
which answers become known: a task waits only for tasks that become known before it does.
-/

namespace DueTasks

open Asking

variable {σ : Type}

namespace Registry

variable {r : Registry σ}

-----------------------------------------------------------------------------------------
-- Tasks that wait for a task
-----------------------------------------------------------------------------------------

/-- Each of the callers can become known only after the task at `index` has become known. -/
def Waiting (r : Registry σ) (session : Session σ) (callers : List Nat) (index : Fin r.size)
    : Prop :=
  ∀ caller : Fin r.size,
    caller.val ∈ callers
    → ∀ rounds,
        Known (r.stage session (rounds + 1) caller) → Known (r.stage session rounds index)

/-- The answers of a stage are the last ones if each answer that is known at any stage is known at
this one.
-/
def LastStage (r : Registry σ) (session : Session σ) (last : Nat) : Prop :=
  ∀ rounds index,
    Known (r.stage session rounds index) → r.stage session last index = r.stage session rounds index

/-- What a task answers and leaves behind: a kept result as it stands, or else a new one, which is
kept unless the name of the task cannot be read.
-/
theorem resultOf_outcome (callers : List Nat) (index : Fin r.size) (session : Session σ)
    : (r.resultOf callers index).outcome session
      = match session.results.lookup index.val with
        | some result => (result, session)
        | none =>
            match r.slots[index].trigger with
            | .error error => (.error error, session)
            | .ok _ =>
                let anew := r.evaluateWith (fun id => r.resolve (index.val :: callers) id) index
                let answered :=
                  anew.outcome { session with begun := index.val :: session.begun }
                (answered.1,
                  { answered.2 with
                    results := (index.val, answered.1) :: answered.2.results }) := by
  rw [resultOf]
  unfold evaluateWith
  simp only [outcome, ExceptT.run_mk, StateT.run_bind, StateT.run_get, pure_bind]
  cases session.results.lookup index.val with
  | some result => rfl
  | none =>
      dsimp only
      cases r.slots[index].trigger with
      | error error => rfl
      | ok trigger => rfl

theorem waiting_nil (session : Session σ) (index : Fin r.size) : r.Waiting session [] index :=
  fun _ member => absurd member List.not_mem_nil

/-- Every kept result has a property that depends on its task. -/
def AllResults (r : Registry σ) (holds : Fin r.size → Except TaskError Evaluation → Prop)
    (kept : Session σ)
    : Prop :=
  ∀ index : Fin r.size, ∀ result,
    kept.results.lookup index.val = some result → holds index result

namespace AllResults

variable {holds : Fin r.size → Except TaskError Evaluation → Prop} {kept later : Session σ}

/-- At the start no result is kept. -/
theorem start (world : σ) : r.AllResults holds (.start world) := by
  rintro index result ⟨⟩

theorem of_results (h : r.AllResults holds kept) (same : later.results = kept.results)
    : r.AllResults holds later := by
  intro index result found
  exact h index result (same ▸ found)

/-- One more result can be kept if it has the property itself. -/
theorem publish (h : r.AllResults holds kept) {index : Fin r.size}
    {result : Except TaskError Evaluation} (new : holds index result)
    : r.AllResults holds { kept with results := (index.val, result) :: kept.results } := by
  intro other found member
  rw [List.lookup_cons] at member
  split at member
  · rename_i same
    obtain rfl := Fin.ext (beq_iff_eq.mp same)
    exact Option.some.inj member ▸ new
  · exact h other found member

end AllResults

/-- Every kept result is the answer of its task. -/
def Faithful (r : Registry σ) (answers : Fin r.size → Except TaskError Evaluation)
    (kept : Session σ)
    : Prop :=
  ∀ index : Fin r.size, ∀ result,
    kept.results.lookup index.val = some result → SameEvaluation result (answers index)

section Stages

variable (steady : r.environment.Steady) {session : Session σ} {last : Nat}
  (isLast : r.LastStage session last)

/-- A task that waits for itself never becomes known, by induction on the rounds. -/
theorem not_known_of_waiting {callers : List Nat} {index : Fin r.size}
    (waiting : r.Waiting session callers index) (member : index.val ∈ callers) (rounds : Nat)
    : ¬ Known (r.stage session rounds index) := by
  induction rounds with
  | zero => exact not_known_stage_zero session index
  | succ rounds ih => exact fun known => ih (waiting index member rounds known)

/-- A task that is ever known becomes known in some round. -/
theorem exists_first_round {index : Fin r.size} (known : Known (r.stage session last index))
    : ∃ rounds, Known (r.stage session (rounds + 1) index)
        ∧ ∀ n, Known (r.stage session n index) → rounds < n := by
  have everKnown : ∃ rounds, Known (r.stage session rounds index) := ⟨last, known⟩
  classical
  obtain ⟨rounds, first⟩ : ∃ rounds, Nat.find everKnown = rounds + 1 := by
    refine Nat.exists_eq_succ_of_ne_zero fun zero => ?_
    exact not_known_stage_zero session index (zero ▸ Nat.find_spec everKnown)
  refine ⟨rounds, first ▸ Nat.find_spec everKnown, fun n later => ?_⟩
  have least := Nat.find_min' everKnown later
  omega

/-- A task that never becomes known waits for every task, and so do the tasks that wait for it. -/
theorem waiting_of_never_known {callers : List Nat} {index : Fin r.size}
    (waiting : r.Waiting session callers index) (never : ∀ n, ¬ Known (r.stage session n index))
    (target : Fin r.size)
    : r.Waiting session (index.val :: callers) target := by
  intro caller member n callerKnown
  rcases List.mem_cons.mp member with same | member
  · obtain rfl := Fin.ext same
    exact absurd callerKnown (never _)
  · exact absurd (waiting caller member n callerKnown) (never n)

include steady

/-- A task waits for all that is known a round before it becomes known. -/
theorem waiting_of_known_before {callers : List Nat} {index target : Fin r.size}
    (waiting : r.Waiting session callers index) {rounds : Nat}
    (after : ∀ n, Known (r.stage session n index) → rounds < n)
    (early : Known (r.stage session rounds target))
    : r.Waiting session (index.val :: callers) target := by
  intro caller member n callerKnown
  have later : rounds ≤ n := by
    rcases List.mem_cons.mp member with same | member
    · obtain rfl := Fin.ext same
      exact Nat.lt_succ_iff.mp (after _ callerKnown)
    · exact Nat.le_of_lt (after n (waiting caller member n callerKnown))
  rwa [stage_eq_of_known steady session early later]

include isLast

/-- Further rounds change no answer, except for the wording of cycles. -/
theorem stage_after_last {rounds : Nat} (le : last ≤ rounds) (index : Fin r.size)
    : SameEvaluation (r.stage session rounds index) (r.stage session last index) := by
  by_cases known : Known (r.stage session last index)
  · rw [stage_eq_of_known steady session known le]
    exact .refl TaskError.Alike.refl _
  · have still : ¬ Known (r.stage session rounds index) :=
      fun later => known (isLast _ _ later ▸ later)
    obtain ⟨error, failed, cycle⟩ := exists_cycle_of_not_known known
    obtain ⟨error', failed', cycle'⟩ := exists_cycle_of_not_known still
    rw [failed, failed']
    exact .error (.inr ⟨cycle', cycle⟩)

/-- The evaluation of a task gives its answer of the last stage if its references do.
If the answer is known, the references are compared with those of the round before it became known:
the evaluation uses only known ones, and for these the task waits. Otherwise no task that waits for
it ever becomes known, and neither does the task itself.
-/
theorem evaluateWith_follows_last (kept : Session σ → Prop)
    (closed : ∀ session world, kept session → kept { session with world })
    {callers : List Nat} {index : Fin r.size} (waiting : r.Waiting session callers index)
    {resolve : String → Asking (Session σ) ReferenceError Date}
    (references
      : ∀ id,
          (∀ target, r.owner id = .task target → r.Waiting session (index.val :: callers) target)
          → (resolve id).Follows (fun session (_ : Session σ) => kept session)
              ReferenceError.Alike (fun _ => False)
              (liftM (r.dateFrom (r.stage session last) id)))
    : (r.evaluateWith resolve index).Follows (fun session (_ : Session σ) => kept session)
        TaskError.Alike (fun _ => False) (liftM (r.stage session last index)) := by
  by_cases known : Known (r.stage session last index)
  · obtain ⟨rounds, now, after⟩ := exists_first_round known
    have follows
        : (r.evaluateWith resolve index).Follows (fun session (_ : Session σ) => kept session)
            TaskError.Alike (fun error => error.isCycle = true)
            (r.evaluateWith (fun id => liftM (r.dateFrom (r.stage session rounds) id)) index) := by
      refine evaluateWith_follows steady _ (fun s _ world _ => closed s world)
        TaskError.Alike.refl index fun t node id => ?_
      by_cases early
          : ∀ target, r.owner id = .task target → Known (r.stage session rounds target)
      · have dates : r.dateFrom (r.stage session rounds) id
            = r.dateFrom (r.stage session last) id :=
          dateFrom_congr fun target owns => (isLast _ _ (early target owns)).symm
        rw [dates]
        have asked := references id fun target owns =>
          waiting_of_known_before steady waiting after (early target owns)
        exact asked.mapError (fun _ _ => t.referenceError_alike node) (fun _ none => none.elim)
      · -- a reference to a task that is not known yet is lost, as a cycle would be
        push Not at early
        obtain ⟨target, owns, unknown⟩ := early
        obtain ⟨error, failed, cycle⟩ := exists_cycle_of_not_known unknown
        rw [dateFrom_error owns failed, mapError_lift]
        exact .of_lost cycle
    rw [isLast _ _ now]
    exact follows.answer session fun error failed cycle =>
      Bool.false_ne_true ((now error failed).symm.trans cycle)
  · have never (n : Nat) : ¬ Known (r.stage session n index) :=
      fun later => known (isLast _ _ later ▸ later)
    have follows
        : (r.evaluateWith resolve index).Follows (fun session (_ : Session σ) => kept session)
            TaskError.Alike (fun _ => False)
            (r.evaluateWith (fun id => liftM (r.dateFrom (r.stage session last) id)) index) := by
      refine evaluateWith_follows steady _ (fun s _ world _ => closed s world)
        TaskError.Alike.refl index fun t node id => ?_
      have asked := references id fun target _ => waiting_of_never_known waiting never target
      exact asked.mapError (fun _ _ => t.referenceError_alike node) (fun _ none => none.elim)
    exact (follows.answer session fun _ _ none => none).trans_lift
      (stage_after_last steady isLast (Nat.le_succ last) index) fun _ _ _ => TaskError.Alike.trans

end Stages

-----------------------------------------------------------------------------------------
-- The evaluation without kept results
-----------------------------------------------------------------------------------------

/-- A reference has the date of the last stage if the task that it leads to has the answer of the
last stage. A reference back to a task that waits for it is a cycle, and that task is one of those
that never become known.
-/
theorem reference_follows_last {session : Session σ} {last : Nat} {kept : Session σ → Prop}
    {callers : List Nat} {id : String}
    (waiting : ∀ target, r.owner id = .task target → r.Waiting session callers target)
    (evaluate : Fin r.size → Asking (Session σ) TaskError Evaluation)
    (evaluations
      : ∀ index,
          callers.contains index.val = false
          → r.Waiting session callers index
          → (evaluate index).Follows (fun session (_ : Session σ) => kept session)
              TaskError.Alike (fun _ => False) (liftM (r.stage session last index)))
    : Follows (fun session (_ : Session σ) => kept session) ReferenceError.Alike (fun _ => False)
        (match r.owner id with
          | .unknown => throw (.reference (.idNotFound id))
          | .ambiguous => throw (.reference (.duplicateId id))
          | .task index =>
              if callers.contains index.val then throw (.reference (.cycle id))
              else (·.date) <$> (evaluate index).mapError .target)
        (liftM (r.dateFrom (r.stage session last) id)) := by
  unfold dateFrom
  cases owns : r.owner id with
  | unknown | ambiguous => exact .throw (.inl rfl)
  | task index =>
      dsimp only
      split
      · rename_i member
        have unknown :=
          not_known_of_waiting (waiting index owns) (List.contains_iff_mem.mp member) last
        obtain ⟨error, failed, cycle⟩ := exists_cycle_of_not_known unknown
        rw [failed]
        exact .throw (.inr ⟨rfl, cycle⟩)
      · rename_i outside
        exact date_follows (evaluations index (Bool.not_eq_true _ ▸ outside) (waiting index owns))

mutual

/-- A task evaluated anew has its answer of the last stage, by induction on the tasks that do not
wait for it.
-/
theorem recompute_follows_last (steady : r.environment.Steady) {session : Session σ} {last : Nat}
    (isLast : r.LastStage session last) {callers : List Nat}
    {index : Fin r.size} (waiting : r.Waiting session callers index)
    : (r.recompute callers index).Follows (fun (_ _ : Session σ) => True) TaskError.Alike
        (fun _ => False) (liftM (r.stage session last index)) := by
  rw [recompute]
  exact evaluateWith_follows_last steady isLast (fun _ => True) (fun _ _ _ => trivial) waiting
    fun id references => recomputeDate_follows_last steady isLast references
termination_by (r.outsideOf (index.val :: callers), 1)

theorem recomputeDate_follows_last (steady : r.environment.Steady) {session : Session σ}
    {last : Nat}
    (isLast : r.LastStage session last) {callers : List Nat}
    {id : String}
    (waiting : ∀ target, r.owner id = .task target → r.Waiting session callers target)
    : (r.recomputeDate callers id).Follows (fun (_ _ : Session σ) => True) ReferenceError.Alike
        (fun _ => False) (liftM (r.dateFrom (r.stage session last) id)) := by
  rw [recomputeDate]
  refine reference_follows_last waiting (fun index => r.recompute callers index) ?_
  intro index outside waiting
  have := r.outsideOf_cons_lt outside
  exact recompute_follows_last steady isLast waiting
termination_by (r.outsideOf callers, 0)

end

-----------------------------------------------------------------------------------------
-- The evaluation with kept results
-----------------------------------------------------------------------------------------

mutual

/-- A task evaluated with kept results has its answer of the last stage and leaves faithful results,
by induction on the tasks that do not wait for it.
-/
theorem resultOf_follows_last (steady : r.environment.Steady) {session : Session σ} {last : Nat}
    (isLast : r.LastStage session last) {callers : List Nat}
    {index : Fin r.size} (waiting : r.Waiting session callers index)
    : (r.resultOf callers index).Follows
        (fun (kept _ : Session σ) => r.Faithful (r.stage session last) kept) TaskError.Alike
        (fun _ => False) (liftM (r.stage session last index)) := by
  have anew := evaluateWith_follows_last steady isLast (r.Faithful (r.stage session last))
    (fun _ _ faithful => AllResults.of_results faithful rfl) waiting
    fun id references => resolve_follows_last steady isLast references
  intro kept t faithful
  rw [outcome_lift, resultOf_outcome]
  cases found : kept.results.lookup index.val with
  | some result => exact .inr ⟨faithful index result found, faithful⟩
  | none =>
      have begun
          : r.Faithful (r.stage session last) { kept with begun := index.val :: kept.begun } :=
        AllResults.of_results faithful rfl
      rcases anew _ t begun with ⟨_, _, none⟩ | ⟨answers, states⟩
      · exact none.elim
      · cases failed : r.slots[index].trigger with
        | error error =>
            have slot : (r.slots.get index).trigger = .error error := failed
            refine .inr ⟨?_, faithful⟩
            simpa only [evaluateWith, slot, outcome_throw, outcome_lift] using answers
        | ok trigger => exact .inr ⟨answers, AllResults.publish states (by simpa using answers)⟩
termination_by (r.outsideOf (index.val :: callers), 1)

theorem resolve_follows_last (steady : r.environment.Steady) {session : Session σ} {last : Nat}
    (isLast : r.LastStage session last) {callers : List Nat}
    {id : String}
    (waiting : ∀ target, r.owner id = .task target → r.Waiting session callers target)
    : (r.resolve callers id).Follows
        (fun (kept _ : Session σ) => r.Faithful (r.stage session last) kept) ReferenceError.Alike
        (fun _ => False) (liftM (r.dateFrom (r.stage session last) id)) := by
  rw [resolve]
  refine reference_follows_last waiting (fun index => r.resultOf callers index) ?_
  intro index outside waiting
  have := r.outsideOf_cons_lt outside
  exact resultOf_follows_last steady isLast waiting
termination_by (r.outsideOf callers, 0)

end

end Registry

end DueTasks
