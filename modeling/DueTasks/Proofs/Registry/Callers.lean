import DueTasks.Proofs.Registry.Isolation

/-! Queries with callers of their own.
A query can name tasks as waiting for its answer although none of them does. A reference that leads
to one of these is answered with a cycle, and so is every task whose evaluation meets that reference
on the way; the cycle is kept. Kept results that are no cycles are still the answers of their tasks,
and all kept results are those of tasks that lead to no such reference.
-/

namespace DueTasks

open Asking Relation

variable {σ : Type}

/-- A known answer is equal to every answer that is the same. -/
theorem SameEvaluation.eq_of_known {a b : Except TaskError Evaluation} (h : SameEvaluation a b)
    (known : Known a)
    : a = b := by
  cases h with
  | ok value => rfl
  | error alike =>
      rcases alike with rfl | ⟨cycle, _⟩
      · rfl
      · exact absurd (known _ rfl) (by simp [cycle])

namespace Registry

variable {r : Registry σ}

-----------------------------------------------------------------------------------------
-- Results of which a property is kept
-----------------------------------------------------------------------------------------

/-- The action answers for a task with a result that has a property, and leaves a session in which
all kept results have it, provided that they had it before.
-/
def Records (r : Registry σ) (holds : Fin r.size → Except TaskError Evaluation → Prop)
    (action : Asking (Session σ) TaskError Evaluation) (index : Fin r.size)
    : Prop :=
  ∀ kept,
    r.AllResults holds kept
    → holds index (action.outcome kept).1 ∧ r.AllResults holds (action.outcome kept).2

theorem Records.stable {holds : Fin r.size → Except TaskError Evaluation → Prop}
    {action : Asking (Session σ) TaskError Evaluation} {index : Fin r.size}
    (h : r.Records holds action index)
    : action.Stable (r.AllResults holds) :=
  fun kept all => (h kept all).2

/-- A task is answered for as its evaluation does, with the result kept. -/
theorem resultOf_records {holds : Fin r.size → Except TaskError Evaluation → Prop}
    {callers : List Nat} {index : Fin r.size}
    (anew
      : r.Records holds (r.evaluateWith (fun id => r.resolve (index.val :: callers) id) index)
          index)
    : r.Records holds (r.resultOf callers index) index := by
  intro kept all
  rw [resultOf_outcome]
  cases found : kept.results.lookup index.val with
  | some result => exact ⟨all index result found, all⟩
  | none =>
      have begun : r.AllResults holds { kept with begun := index.val :: kept.begun } :=
        all.of_results rfl
      obtain ⟨answer, later⟩ := anew _ begun
      cases failed : r.slots[index].trigger with
      | error error =>
          have slot : (r.slots.get index).trigger = .error error := failed
          refine ⟨?_, all⟩
          simpa only [evaluateWith, slot, outcome_throw] using answer
      | ok trigger => exact ⟨answer, later.publish answer⟩

/-- A date that needs no state is that of an answer that needs none. -/
theorem date_lift {τ : Type} (answer : Except TaskError Evaluation)
    : (·.date) <$> (liftM answer : Asking τ _ _).mapError ReferenceError.target
      = liftM ((answer.map (·.date)).mapError ReferenceError.target) := by
  cases answer <;> rfl

-----------------------------------------------------------------------------------------
-- Kept results that are known
-----------------------------------------------------------------------------------------

/-- The result is that of the task unless it is a cycle. -/
def IfKnown (answers : Fin r.size → Except TaskError Evaluation) (index : Fin r.size)
    (result : Except TaskError Evaluation)
    : Prop :=
  Known result → result = answers index

/-- A reference shows the date of the task that it leads to, unless it is a cycle. -/
def ShowsIfKnown (r : Registry σ) (answers : Fin r.size → Except TaskError Evaluation)
    (resolve : Asking (Session σ) ReferenceError Date) (id : String)
    : Prop :=
  resolve.Stable (r.AllResults (IfKnown answers))
  ∧ (liftM (r.dateFrom answers id) : Asking (Session σ) _ _).Follows
      (fun (_ kept : Session σ) => r.AllResults (IfKnown answers) kept) ReferenceError.Alike
      (fun error => error.isCycle = true) resolve

section

variable (steady : r.environment.Steady) {session : Session σ} {last : Nat}
  (isLast : r.LastStage session last)

include steady isLast

/-- If the references of a task show dates of the last stage unless they are cycles, then the task
has its answer of the last stage unless it is a cycle.
-/
theorem evaluateWith_ifKnown {index : Fin r.size}
    {resolve : String → Asking (Session σ) ReferenceError Date}
    (references : ∀ id, r.ShowsIfKnown (r.stage session last) (resolve id) id)
    : r.Records (IfKnown (r.stage session last)) (r.evaluateWith resolve index) index := by
  have follows
      : (r.evaluateWith (fun id => liftM (r.dateFrom (r.stage session last) id)) index).Follows
          (fun (_ kept : Session σ) => r.AllResults (IfKnown (r.stage session last)) kept)
          TaskError.Alike (fun error => error.isCycle = true) (r.evaluateWith resolve index) := by
    refine evaluateWith_follows steady _ (fun _ _ _ _ all => all.of_results rfl)
      TaskError.Alike.refl index fun t node id => ?_
    refine (references id).2.mapError (fun _ _ => t.referenceError_alike node) fun error cycle => ?_
    rwa [t.referenceError_isCycle]
  intro kept all
  refine ⟨fun known => ?_, ?_⟩
  · rcases follows session kept all with ⟨error, failed, cycle⟩ | ⟨answers, -⟩
    · exact absurd (known error failed) (by simp [cycle])
    · have anew := answers.swap fun _ _ => TaskError.Alike.symm
      have same := anew.trans (stage_after_last steady isLast (Nat.le_succ last) index)
        fun _ _ _ => TaskError.Alike.trans
      exact SameEvaluation.eq_of_known same known
  · exact evaluateWith_stable (fun _ _ all => all.of_results rfl) index
      (fun id => (references id).1) kept all

end

mutual

/-- Whoever waits for a task, its result is the answer of the last stage unless it is a cycle, by
induction on the tasks that do not wait for it.
-/
theorem resultOf_ifKnown (steady : r.environment.Steady) {session : Session σ} {last : Nat}
    (isLast : r.LastStage session last) (callers : List Nat) (index : Fin r.size)
    : r.Records (IfKnown (r.stage session last)) (r.resultOf callers index) index :=
  resultOf_records
    (evaluateWith_ifKnown steady isLast fun id => resolve_ifKnown steady isLast _ id)
termination_by (r.outsideOf (index.val :: callers), 1)

theorem resolve_ifKnown (steady : r.environment.Steady) {session : Session σ} {last : Nat}
    (isLast : r.LastStage session last) (callers : List Nat) (id : String)
    : r.ShowsIfKnown (r.stage session last) (r.resolve callers id) id := by
  unfold ShowsIfKnown dateFrom
  cases owns : r.owner id with
  | unknown =>
      rw [resolve_of_unknown owns]
      exact ⟨fun _ all => all, .throw (.inl rfl)⟩
  | ambiguous =>
      rw [resolve_of_ambiguous owns]
      exact ⟨fun _ all => all, .throw (.inl rfl)⟩
  | task target =>
      by_cases member : target.val ∈ callers
      · rw [resolve_of_waiting owns member]
        exact ⟨fun _ all => all, .of_lost rfl⟩
      · have out : callers.contains target.val = false := by simpa using member
        have := r.outsideOf_cons_lt out
        have records := resultOf_ifKnown steady isLast callers target
        have follows
            : (liftM (r.stage session last target) : Asking (Session σ) _ _).Follows
                (fun (_ kept : Session σ) =>
                  r.AllResults (IfKnown (r.stage session last)) kept)
                TaskError.Alike (fun error => error.isCycle = true)
                (r.resultOf callers target) := by
          intro s kept all
          obtain ⟨ifKnown, later⟩ := records kept all
          by_cases known : Known ((r.resultOf callers target).outcome kept).1
          · rw [ifKnown known, outcome_lift]
            exact .inr ⟨.refl TaskError.Alike.refl _, later⟩
          · exact .inl (exists_cycle_of_not_known known)
        rw [resolve_of_owner owns member]
        dsimp only
        rw [← date_lift]
        refine ⟨fun kept all => ?_, ?_⟩
        · rw [outcome_map, outcome_mapError]
          exact records.stable kept all
        · exact (follows.mapError (fun _ _ => TaskError.Alike.target) fun _ cycle => cycle).map _
termination_by (r.outsideOf callers, 0)

end

-----------------------------------------------------------------------------------------
-- Tasks that lead to no caller
-----------------------------------------------------------------------------------------

/-- The name of the task refers to the id of the other task. -/
def Asks (r : Registry σ) (index target : Fin r.size) : Prop :=
  ∃ id ∈ (r.slots.get index).referencedIds, r.owner id = .task target

/-- The result is that of the task if the task is one of the spared ones. -/
def IfSpared (spared : Fin r.size → Prop) (answers : Fin r.size → Except TaskError Evaluation)
    (index : Fin r.size) (result : Except TaskError Evaluation)
    : Prop :=
  spared index → SameEvaluation result (answers index)

/-- Callers to which a spared task leads can become known only after it, so that they are on the
chain of tasks that wait for it. From any other task no way goes over a spared one to a caller.
-/
structure Ready (r : Registry σ) (session : Session σ) (spared : Fin r.size → Prop)
    (callers : List Nat) (index : Fin r.size)
    : Prop where
  waits
    : spared index
      → ∀ caller : Fin r.size,
          caller.val ∈ callers
          → TransGen r.Asks index caller
          → ∀ rounds,
              Known (r.stage session (rounds + 1) caller) → Known (r.stage session rounds index)
  apart
    : ¬ spared index
      → ∀ target,
          ReflTransGen r.Asks index target
          → spared target
          → ∀ caller : Fin r.size, caller.val ∈ callers → ¬ TransGen r.Asks target caller

/-- The callers to which a task leads. -/
theorem exists_callers_behind (callers : List Nat) (index : Fin r.size)
    : ∃ behind : List Nat, ∀ caller : Fin r.size,
        caller.val ∈ behind ↔ caller.val ∈ callers ∧ TransGen r.Asks index caller := by
  classical
  exact ⟨callers.filter fun caller => ∃ h : caller < r.size, TransGen r.Asks index ⟨caller, h⟩,
    fun caller => by simp⟩

/-- Of the tasks that wait for a reference of a task, those to which it leads are the task itself
and those behind it.
-/
theorem mem_behind {callers behind : List Nat} {index caller : Fin r.size}
    (isBehind
      : ∀ caller : Fin r.size,
          caller.val ∈ behind ↔ caller.val ∈ callers ∧ TransGen r.Asks index caller)
    (member : caller.val ∈ index.val :: callers) (back : TransGen r.Asks index caller)
    : caller.val ∈ index.val :: behind := by
  rcases List.mem_cons.mp member with same | member
  · exact same ▸ List.mem_cons_self
  · exact List.mem_cons_of_mem _ ((isBehind caller).mpr ⟨member, back⟩)

theorem ready_nil (session : Session σ) (spared : Fin r.size → Prop) (index : Fin r.size)
    : r.Ready session spared [] index where
  waits _ _ member := absurd member List.not_mem_nil
  apart _ _ _ _ _ member := absurd member List.not_mem_nil

section

variable {session : Session σ} {spared : Fin r.size → Prop}
  (onward : ∀ index target, r.Asks index target → spared index → spared target)

include onward

/-- What a spared task leads to is spared, by induction over the way. -/
theorem spared_of_leads {index target : Fin r.size} (leads : ReflTransGen r.Asks index target)
    (isSpared : spared index)
    : spared target := by
  induction leads with
  | refl => exact isSpared
  | tail _ asks ih => exact onward _ _ asks ih

/-- Where a task that is not spared joins the callers, no spared task leads to it. -/
theorem Ready.of_not_spared {callers : List Nat} {index target : Fin r.size}
    (ready : r.Ready session spared callers index) (off : ¬ spared index)
    (asks : r.Asks index target)
    : r.Ready session spared (index.val :: callers) target := by
  have apart (further : Fin r.size) (leads : ReflTransGen r.Asks target further)
      (isSpared : spared further) (caller : Fin r.size) (member : caller.val ∈ index.val :: callers)
      : ¬ TransGen r.Asks further caller := by
    intro back
    rcases List.mem_cons.mp member with same | member
    · obtain rfl := Fin.ext same
      exact off (spared_of_leads onward back.to_reflTransGen isSpared)
    · exact ready.apart off further (leads.head asks) isSpared caller member back
  exact {
    waits := fun isSpared caller member back => absurd back (apart target .refl isSpared _ member)
    apart := fun _ => apart
  }

omit onward

/-- Where a spared task joins the callers, those that matter are the ones to which it leads. -/
theorem Ready.of_spared {callers behind : List Nat} {index target : Fin r.size}
    (isBehind
      : ∀ caller : Fin r.size,
          caller.val ∈ behind ↔ caller.val ∈ callers ∧ TransGen r.Asks index caller)
    (asks : r.Asks index target) (waiting : r.Waiting session (index.val :: behind) target)
    (isSpared : spared target)
    : r.Ready session spared (index.val :: callers) target where
  waits _ caller member back := waiting caller (mem_behind isBehind member (back.head asks))
  apart off := absurd isSpared off

end

-----------------------------------------------------------------------------------------
-- What a task refers to
-----------------------------------------------------------------------------------------

/-- A resolution of references that is used for the ids that a task refers to; others are resolved
by given answers.
-/
def resolveReferences (r : Registry σ) (answers : Fin r.size → Except TaskError Evaluation)
    (index : Fin r.size) (resolve : String → Asking (Session σ) ReferenceError Date) (id : String)
    : Asking (Session σ) ReferenceError Date :=
  if id ∈ (r.slots.get index).referencedIds then resolve id else liftM (r.dateFrom answers id)

/-- Only the ids that it refers to matter for the evaluation of a task. -/
theorem evaluateWith_resolveReferences (answers : Fin r.size → Except TaskError Evaluation)
    (index : Fin r.size) (resolve : String → Asking (Session σ) ReferenceError Date)
    : r.evaluateWith resolve index
      = r.evaluateWith (r.resolveReferences answers index resolve) index :=
  (Embeds.refl r).evaluateWith_eq fun _ refers => (if_pos refers).symm

/-- The evaluation of a task keeps what its own references keep, the surroundings apart. -/
theorem evaluateWith_stable_of_references {kept : Session σ → Prop}
    (closed : ∀ session world, kept session → kept { session with world }) (index : Fin r.size)
    {resolve : String → Asking (Session σ) ReferenceError Date}
    (resolves : ∀ id ∈ (r.slots.get index).referencedIds, (resolve id).Stable kept)
    : (r.evaluateWith resolve index).Stable kept := by
  rw [evaluateWith_resolveReferences (fun _ => .error (.semantic "" (.cycle ""))) index]
  refine evaluateWith_stable closed index fun id => ?_
  unfold resolveReferences
  split
  · rename_i refers
    exact resolves id refers
  · intro session holds
    rwa [outcome_lift]

/-- The evaluation of a task gives its answer of the last stage if its own references do. -/
theorem evaluateWith_follows_last_of_references (steady : r.environment.Steady)
    {session : Session σ} {last : Nat} (isLast : r.LastStage session last)
    (kept : Session σ → Prop)
    (closed : ∀ session world, kept session → kept { session with world })
    {callers : List Nat} {index : Fin r.size} (waiting : r.Waiting session callers index)
    {resolve : String → Asking (Session σ) ReferenceError Date}
    (references
      : ∀ id ∈ (r.slots.get index).referencedIds,
          (∀ target, r.owner id = .task target → r.Waiting session (index.val :: callers) target)
          → (resolve id).Follows (fun session (_ : Session σ) => kept session)
              ReferenceError.Alike (fun _ => False)
              (liftM (r.dateFrom (r.stage session last) id)))
    : (r.evaluateWith resolve index).Follows (fun session (_ : Session σ) => kept session)
        TaskError.Alike (fun _ => False) (liftM (r.stage session last index)) := by
  rw [evaluateWith_resolveReferences (r.stage session last) index]
  refine evaluateWith_follows_last steady isLast kept closed waiting fun id waits => ?_
  unfold resolveReferences
  split
  · rename_i refers
    exact references id refers waits
  · exact .lift (.refl ReferenceError.Alike.refl _)

-----------------------------------------------------------------------------------------
-- Kept results of spared tasks
-----------------------------------------------------------------------------------------

mutual

/-- A spared task has its answer of the last stage, and whichever task is evaluated, the results
that it leaves for spared tasks are such answers, by induction on the tasks that do not wait for it.
-/
theorem resultOf_ifSpared (steady : r.environment.Steady) {session : Session σ} {last : Nat}
    (isLast : r.LastStage session last) {spared : Fin r.size → Prop}
    (onward : ∀ index target, r.Asks index target → spared index → spared target)
    {callers : List Nat} {index : Fin r.size} (ready : r.Ready session spared callers index)
    : r.Records (IfSpared spared (r.stage session last)) (r.resultOf callers index) index := by
  refine resultOf_records fun kept all => ?_
  by_cases isSpared : spared index
  · obtain ⟨behind, isBehind⟩ := exists_callers_behind callers index
    have waiting : r.Waiting session behind index := fun caller member =>
      ready.waits isSpared caller ((isBehind caller).mp member).1 ((isBehind caller).mp member).2
    have follows
        : (r.evaluateWith (fun id => r.resolve (index.val :: callers) id) index).Follows
            (fun kept (_ : Session σ) =>
              r.AllResults (IfSpared spared (r.stage session last)) kept)
            TaskError.Alike (fun _ => False) (liftM (r.stage session last index)) := by
      refine evaluateWith_follows_last_of_references steady isLast _
        (fun _ _ all => all.of_results rfl) waiting fun id refers waits => ?_
      have sparedToo (target : Fin r.size) (owns : r.owner id = .task target) : spared target :=
        onward index target ⟨id, refers, owns⟩ isSpared
      refine (resolve_ifSpared steady isLast onward fun target owns _ => ?_).2
        fun target owns => ⟨sparedToo target owns, fun member => ?_⟩
      · exact .of_spared isBehind ⟨id, refers, owns⟩ (waits target owns) (sparedToo target owns)
      · -- a task that is asked for and waits is on the chain, and never becomes known
        exact not_known_of_waiting (waits target owns)
          (mem_behind isBehind member (.single ⟨id, refers, owns⟩))
    rcases follows kept kept all with ⟨_, _, none⟩ | ⟨answers, later⟩
    · exact none.elim
    · rw [outcome_lift] at answers
      exact ⟨fun _ => answers, later⟩
  · refine ⟨fun isSpared' => absurd isSpared' isSpared, ?_⟩
    refine evaluateWith_stable_of_references (fun _ _ all => all.of_results rfl) index
      (fun id refers => ?_) kept all
    refine (resolve_ifSpared steady isLast onward fun target owns _ => ?_).1
    exact ready.of_not_spared onward isSpared ⟨id, refers, owns⟩
termination_by (r.outsideOf (index.val :: callers), 1)

theorem resolve_ifSpared (steady : r.environment.Steady) {session : Session σ} {last : Nat}
    (isLast : r.LastStage session last) {spared : Fin r.size → Prop}
    (onward : ∀ index target, r.Asks index target → spared index → spared target)
    {callers : List Nat} {id : String}
    (ready
      : ∀ target,
          r.owner id = .task target
          → target.val ∉ callers
          → r.Ready session spared callers target)
    : (r.resolve callers id).Stable (r.AllResults (IfSpared spared (r.stage session last)))
      ∧ ((∀ target,
            r.owner id = .task target
            → spared target
              ∧ (target.val ∈ callers → ∀ rounds, ¬ Known (r.stage session rounds target)))
        → (r.resolve callers id).Follows
            (fun (kept _ : Session σ) => r.AllResults (IfSpared spared (r.stage session last)) kept)
            ReferenceError.Alike (fun _ => False)
            (liftM (r.dateFrom (r.stage session last) id))) := by
  unfold dateFrom
  cases owns : r.owner id with
  | unknown =>
      rw [resolve_of_unknown owns]
      exact ⟨fun _ all => all, fun _ => .throw (.inl rfl)⟩
  | ambiguous =>
      rw [resolve_of_ambiguous owns]
      exact ⟨fun _ all => all, fun _ => .throw (.inl rfl)⟩
  | task target =>
      dsimp only
      by_cases member : target.val ∈ callers
      · rw [resolve_of_waiting owns member]
        refine ⟨fun _ all => all, fun leads => ?_⟩
        obtain ⟨error, failed, cycle⟩ :=
          exists_cycle_of_not_known ((leads target rfl).2 member last)
        rw [failed]
        exact .throw (.inr ⟨rfl, cycle⟩)
      · have out : callers.contains target.val = false := by simpa using member
        have := r.outsideOf_cons_lt out
        have records := resultOf_ifSpared steady isLast onward (ready target owns member)
        rw [resolve_of_owner owns member]
        refine ⟨fun kept all => ?_, fun leads => date_follows fun kept _ all => ?_⟩
        · rw [outcome_map, outcome_mapError]
          exact records.stable kept all
        · rw [outcome_lift]
          exact .inr ⟨(records kept all).1 (leads target rfl).1, (records kept all).2⟩
termination_by (r.outsideOf callers, 0)

end

-----------------------------------------------------------------------------------------
-- Queries
-----------------------------------------------------------------------------------------

/-- The query has a task evaluated on behalf of its callers. -/
def Begins (r : Registry σ) (query : Query r.size) (target : Fin r.size) : Prop :=
  match query with
  | .resolve callers id => r.owner id = .task target ∧ target.val ∉ callers
  | .resultOf _ index => index = target
  | _ => False

/-- No query evaluates, on behalf of its callers, a task to which this task leads as well and that
leads to one of the callers.
-/
def Spared (r : Registry σ) (queries : List (Query r.size)) (index : Fin r.size) : Prop :=
  ∀ query ∈ queries, ∀ target,
    r.Begins query target
    → ∀ meeting,
        ReflTransGen r.Asks target meeting
        → ReflTransGen r.Asks index meeting
        → ∀ caller : Fin r.size, caller.val ∈ query.callers → ¬ TransGen r.Asks meeting caller

theorem Spared.onward {queries : List (Query r.size)} (index target : Fin r.size)
    (asks : r.Asks index target) (isSpared : r.Spared queries index)
    : r.Spared queries target :=
  fun query member first begins meeting leads shared =>
    isSpared query member first begins meeting leads (shared.head asks)

/-- What a query evaluates on behalf of its callers can be evaluated on their behalf. -/
theorem ready_of_begins {queries : List (Query r.size)} {query : Query r.size}
    (member : query ∈ queries) {target : Fin r.size} (begins : r.Begins query target)
    (session : Session σ)
    : r.Ready session (r.Spared queries) query.callers target where
  waits isSpared caller waits back :=
    absurd back (isSpared query member target begins target .refl .refl caller waits)
  apart _ further leads isSpared :=
    isSpared query member target begins further leads .refl

section

variable (steady : r.environment.Steady) {session : Session σ} {last : Nat}
  (isLast : r.LastStage session last)

include steady isLast

/-- After queries, whoever they name as waiting, all kept results that are no cycles are the answers
of their tasks.
-/
theorem performAll_ifKnown {kept : Session σ}
    (all : r.AllResults (IfKnown (r.stage session last)) kept) (queries : List (Query r.size))
    : r.AllResults (IfKnown (r.stage session last)) (r.performAll kept queries) := by
  have evaluates (callers : List Nat) (index : Fin r.size)
      : (r.resultOf callers index).Stable (r.AllResults (IfKnown (r.stage session last))) :=
    (resultOf_ifKnown steady isLast callers index).stable
  exact performAll_stable (evaluates []) (fun _ _ all => all.of_results rfl)
    (fun query _ => evaluates query.callers) all

/-- After queries the kept results of the tasks that they spare are the answers of these. -/
theorem performAll_ifSpared {kept : Session σ} {queries : List (Query r.size)}
    (all : r.AllResults (IfSpared (r.Spared queries) (r.stage session last)) kept)
    : r.AllResults (IfSpared (r.Spared queries) (r.stage session last))
        (r.performAll kept queries) := by
  have evaluates (index : Fin r.size)
      : (r.resultOf [] index).Stable
          (r.AllResults (IfSpared (r.Spared queries) (r.stage session last))) :=
    (resultOf_ifSpared steady isLast Spared.onward (ready_nil session _ index)).stable
  refine List.foldlRecOn queries r.perform all fun kept all query member => ?_
  have begins (target : Fin r.size) (begins : r.Begins query target)
      : r.Ready session (r.Spared queries) query.callers target :=
    ready_of_begins member begins session
  cases query with
  | resolve callers id =>
      exact (resolve_ifSpared steady isLast Spared.onward fun target owns out =>
        begins target ⟨owns, out⟩).1 kept all
  | resultOf callers index =>
      exact (resultOf_ifSpared steady isLast Spared.onward (begins index rfl)).stable kept all
  | _ =>
      refine perform_stable evaluates (fun _ _ all => all.of_results rfl) (fun index => ?_) all
      exact evaluates index

end

/-- Queries with arbitrary callers can spoil an answer only by cycles: a task that has an evaluation
in a fresh session has the same one after them, or else a cycle is kept for it. The latter only
comes of a query that evaluates, on behalf of its callers, a task to which this one leads as well
and that leads to one of the callers.
-/
theorem evaluate_after_callers {r : Registry σ} (steady : r.environment.Steady) (world fresh : σ)
    (queries : List (Query r.size)) {path : Path} {evaluation : Evaluation}
    (evaluates : ((r.evaluate path).outcome (.start fresh)).1 = .ok evaluation)
    : let answer := ((r.evaluate path).outcome (r.performAll (.start world) queries)).1
      (answer = .ok evaluation ∨ ∃ text id, answer = .error (.semantic text (.cycle id)))
      ∧ ((∀ index, r.indexOf? path = some index → r.Spared queries index)
        → answer = .ok evaluation) := by
  intro answer
  cases found : r.indexOf? path with
  | none =>
      unfold Registry.evaluate at evaluates
      rw [found] at evaluates
      cases evaluates
  | some index =>
      obtain ⟨last, isLast⟩ := exists_last_stage steady (.start fresh : Session σ)
      have real : .ok evaluation = r.stage (.start fresh) last index := by
        rcases resultOf_follows_last steady isLast (waiting_nil _ index) (.start fresh)
            (.start fresh) (AllResults.start fresh) with ⟨_, _, none⟩ | ⟨same, -⟩
        · exact none.elim
        · rw [outcome_lift, ← evaluate_of_found found, evaluates] at same
          exact SameEvaluation.eq_of_known same nofun
      have answers : answer
          = ((r.resultOf [] index).outcome (r.performAll (.start world) queries)).1 := by
        rw [← evaluate_of_found found]
      constructor
      · have later := performAll_ifKnown steady isLast (AllResults.start world) queries
        have ifKnown := (resultOf_ifKnown steady isLast [] index _ later).1
        rw [← answers] at ifKnown
        by_cases known : Known answer
        · exact .inl ((ifKnown known).trans real.symm)
        · obtain ⟨error, failed, cycle⟩ := exists_cycle_of_not_known known
          obtain ⟨text, id, rfl⟩ := TaskError.isCycle_iff.mp cycle
          exact .inr ⟨text, id, failed⟩
      · intro isSpared
        have later : r.AllResults (IfSpared (r.Spared queries) (r.stage (.start fresh) last))
            (r.performAll (.start world) queries) :=
          performAll_ifSpared steady isLast (AllResults.start world)
        have ready := ready_nil (.start fresh) (r.Spared queries) index
        have same := (resultOf_ifSpared steady isLast Spared.onward ready _ later).1
          (isSpared index rfl)
        rw [← answers, ← real] at same
        exact (SameEvaluation.eq_of_known (same.swap fun _ _ => TaskError.Alike.symm) nofun).symm

-----------------------------------------------------------------------------------------
-- A caller that is referred to
-----------------------------------------------------------------------------------------

/-- A task that declares an id and refers to nothing. -/
def declaration : Trigger :=
  ⟨"id('a')", callOfId 0, ⟨7, 7⟩⟩

theorem parse_declaration : Trigger.parse "id('a')" = .ok declaration := by
  have declaring : Trigger.Reads (.unit (callOfId 0)) ⟨0, "id('a')".toList⟩ ⟨7, []⟩ :=
    .call_quoted "id" "a" 0 (by decide) rfl
  exact Trigger.parse_of_every (.single declaring) rfl rfl

/-- A task with an id and one that refers to it. -/
def pairEntries : List TaskEntry :=
  [⟨⟨"a"⟩, "id('a')"⟩, onwardEntry]

def pair : Registry Nat :=
  ofEntries .counting pairEntries

def declaringTask : Fin pair.size :=
  ⟨0, by decide⟩

def onwardTask : Fin pair.size :=
  ⟨1, by decide⟩

theorem trigger_declaringTask : (pair.slots.get declaringTask).trigger = .ok declaration :=
  Slot.trigger_ofEntry _ parse_declaration

theorem trigger_onwardTask : (pair.slots.get onwardTask).trigger = .ok onwardReference :=
  Slot.trigger_ofEntry _ parse_onwardReference

theorem referencedIds_declaringTask : (pair.slots.get declaringTask).referencedIds = [] := by
  rw [Slot.referencedIds, trigger_declaringTask]
  rfl

theorem referencedIds_onwardTask : (pair.slots.get onwardTask).referencedIds = ["a"] := by
  rw [Slot.referencedIds, trigger_onwardTask]
  rfl

theorem declaredIds_declaringTask : (pair.slots.get declaringTask).declaredIds = ["a"] := by
  rw [Slot.declaredIds, trigger_declaringTask]
  rfl

theorem declaredIds_onwardTask : (pair.slots.get onwardTask).declaredIds = [] := by
  rw [Slot.declaredIds, trigger_onwardTask]
  rfl

/-- The two tasks are all that there are. -/
theorem eq_declaringTask_or_onwardTask
    : ∀ index : Fin pair.size, index = declaringTask ∨ index = onwardTask := by
  decide

theorem declaredIds_pair : pair.declaredIds = ["a"] := by
  show (pair.slots.get declaringTask).declaredIds
    ++ ((pair.slots.get onwardTask).declaredIds ++ []) = _
  rw [declaredIds_declaringTask, declaredIds_onwardTask]
  rfl

theorem owner_pair : pair.owner "a" = .task declaringTask := by
  refine owner_eq_task.mpr ⟨by rw [declaredIds_pair]; rfl, ?_⟩
  show _ ∈ (pair.slots.get declaringTask).declaredIds
  rw [declaredIds_declaringTask]
  exact List.mem_cons_self

theorem elementary_pair : pair.Elementary where
  readable index := by
    rcases eq_declaringTask_or_onwardTask index with rfl | rfl
    · exact ⟨_, trigger_declaringTask, rfl⟩
    · exact ⟨_, trigger_onwardTask, rfl⟩
  declared index id refers := by
    replace refers : id ∈ (pair.slots.get index).referencedIds := refers
    rw [declaredIds_pair]
    rcases eq_declaringTask_or_onwardTask index with rfl | rfl
    · rw [referencedIds_declaringTask] at refers
      cases refers
    · rw [referencedIds_onwardTask, List.mem_singleton] at refers
      rw [refers]
      rfl

/-- No reference of the two tasks leads back. -/
theorem not_loops_pair (index : Fin pair.size) : ¬ pair.Loops index := by
  have ends : ¬ pair.Loops declaringTask := by
    rw [loops_iff]
    rintro ⟨target, ⟨id, member, -⟩, -⟩
    rw [referencedIds_declaringTask] at member
    cases member
  rcases eq_declaringTask_or_onwardTask index with rfl | rfl
  · exact ends
  · rw [loops_iff]
    rintro ⟨target, ⟨id, -, declares⟩, loops⟩
    rcases eq_declaringTask_or_onwardTask target with rfl | rfl
    · exact ends loops
    · rw [declaredIds_onwardTask] at declares
      cases declares

theorem distinct_pair
    : pair.slots.Pairwise fun a b => a.entry.path.same b.entry.path = false :=
  List.pairwise_map.mpr
    (by decide : pairEntries.Pairwise fun a b => a.path.same b.path = false)

/-- Each of the two tasks has an evaluation in a fresh session. -/
theorem exists_evaluation_pair (world : Nat) (index : Fin pair.size)
    : ∃ evaluation,
        ((pair.evaluate (pair.slots.get index).entry.path).outcome (.start world)).1
        = .ok evaluation := by
  have found : pair.indexOf? (pair.slots.get index).entry.path = some index :=
    indexOf?_path distinct_pair index
  rw [evaluate_of_found found]
  have tells := (resultOf_failsIff elementary_pair (reachedBy_nil index) (.start world)
    (AllResults.start world)).1
  generalize ((pair.resultOf [] index).outcome (.start world)).1 = answer at tells
  cases answer with
  | ok evaluation => exact ⟨evaluation, rfl⟩
  | error error => exact absurd tells.1 (not_loops_pair index)

/-- A task that refers onward fails with the error of its reference. -/
theorem outcome_onwardReference {context : Context σ} {error : ReferenceError}
    (fails : context.resolve "a" = throw error) (state : σ)
    : (onwardReference.evaluate context).outcome state
      = (.error (onwardReference.referenceError onwardReference.root error), state) := by
  have callee : Callee.ofName "ref" = .reference := rfl
  have id : onwardReference.literal (.quoted "a" ⟨4, 7⟩) = "a" := rfl
  show ((onwardReference.evaluateNode context (callOfRef 0) .root) >>= _).outcome state = _
  rw [callOfRef, Trigger.evaluateNode]
  unfold Trigger.evaluateCall
  rw [callee]
  simp only [Trigger.expectLiteral, pure_bind, id, fails]
  rfl

/-- A task that is named as a caller keeps its answer when another task, which refers to it, is
evaluated on its behalf.
-/
theorem evaluate_after_callers_of_caller
    : ∃ evaluation,
        ((pair.evaluate ⟨"a"⟩).outcome (.start 0)).1 = .ok evaluation
        ∧ ((pair.evaluate ⟨"a"⟩).outcome
            (pair.performAll (.start 7) [.resultOf [0] onwardTask])).1 = .ok evaluation := by
  obtain ⟨evaluation, fresh⟩ := exists_evaluation_pair 0 declaringTask
  refine ⟨evaluation, fresh, ?_⟩
  refine (evaluate_after_callers Environment.counting_steady 7 0 _ fresh).2 fun index found => ?_
  obtain rfl := Option.some.inj ((indexOf?_path distinct_pair declaringTask).symm.trans found)
  have ends (target : Fin pair.size) : ¬ pair.Asks declaringTask target := by
    rintro ⟨id, member, -⟩
    rw [referencedIds_declaringTask] at member
    cases member
  intro query _ target _ meeting _ leads caller _ back
  rcases leads.cases_head with rfl | ⟨next, asks, _⟩
  · obtain ⟨next, asks, _⟩ := TransGen.head'_iff.mp back
    exact ends next asks
  · exact ends next asks

/-- No references lead back, and still a cycle is kept for a task that was first asked for on behalf
of the task that it refers to, although that one was not waiting.
-/
theorem evaluate_cycle_of_callers
    : Environment.counting.Steady
      ∧ (∀ index, ¬ pair.Loops index)
      ∧ (∃ evaluation, ((pair.evaluate ⟨"b"⟩).outcome (.start 0)).1 = .ok evaluation)
      ∧ ((pair.evaluate ⟨"b"⟩).outcome
          (pair.performAll (.start 0) [.resultOf [0] onwardTask])).1
        = .error (.semantic "ref('a')" (.cycle "a")) := by
  refine ⟨Environment.counting_steady, not_loops_pair, exists_evaluation_pair 0 onwardTask, ?_⟩
  have waits : pair.resolve [1, 0] "a" = throw (.reference (.cycle "a")) :=
    resolve_of_waiting owner_pair (by decide)
  have asked : (pair.resultOf [0] onwardTask).outcome (.start 0)
      = (.error (.semantic "ref('a')" (.cycle "a")),
        ⟨[(1, .error (.semantic "ref('a')" (.cycle "a")))], [1], 0⟩) := by
    have slot : pair.slots[onwardTask].trigger = .ok onwardReference := trigger_onwardTask
    have none : (Session.start 0).results.lookup onwardTask.val
        = (none : Option (Except TaskError Evaluation)) := rfl
    rw [resultOf_outcome, none, slot]
    unfold evaluateWith
    rw [trigger_onwardTask]
    dsimp only
    rw [outcome_onwardReference waits]
    rfl
  have found : pair.indexOf? ⟨"b"⟩ = some onwardTask := indexOf?_path distinct_pair onwardTask
  rw [evaluate_of_found found]
  show ((pair.resultOf [] onwardTask).outcome
      ((pair.resultOf [0] onwardTask).outcome (.start 0)).2).1
    = _
  rw [asked, resultOf_outcome]
  rfl

end Registry

end DueTasks
