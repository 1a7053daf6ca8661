import DueTasks.Proofs.Registry.Memoization

/-! Sessions of queries.
Whatever has been asked before, a registry in steady surroundings answers every query of a session
as the evaluation without kept results does.
-/

namespace DueTasks

open Asking

variable {σ : Type}

/-- A question to a registry of `size` tasks. The last two kinds come with tasks that wait for the
answer.
-/
inductive Query (size : Nat) where
  | evaluate (path : Path)
  | date (path : Path)
  | doneName (path : Path)
  | evaluateAll
  | resolve (callers : List Nat) (id : String)
  | resultOf (callers : List Nat) (index : Fin size)

/-- No task waits for the answer of the query. -/
def Query.Outermost {size : Nat} : Query size → Prop
  | .resolve callers _ => callers = []
  | .resultOf callers _ => callers = []
  | _ => True

/-- The tasks that wait for the answer of the query. -/
def Query.callers {size : Nat} : Query size → List Nat
  | .resolve callers _ => callers
  | .resultOf callers _ => callers
  | _ => []

theorem Query.callers_eq_nil {size : Nat} {query : Query size} (outermost : query.Outermost)
    : query.callers = [] := by
  cases query with
  | resolve callers id => exact outermost
  | resultOf callers index => exact outermost
  | _ => rfl

theorem Path.same_self (path : Path) : path.same path = true :=
  beq_self_eq_true path.components

/-- It does not matter which of two paths is compared with the other. -/
theorem Path.same_comm (a b : Path) : a.same b = b.same a :=
  Bool.beq_comm

namespace Registry

/-- The session after a query. -/
def perform (r : Registry σ) (session : Session σ) : Query r.size → Session σ
  | .evaluate path => ((r.evaluate path).outcome session).2
  | .date path => ((r.date path).outcome session).2
  | .doneName path => ((r.doneName path).outcome session).2
  | .evaluateAll => (r.evaluateAll.run session).2
  | .resolve callers id => ((r.resolve callers id).outcome session).2
  | .resultOf callers index => ((r.resultOf callers index).outcome session).2

/-- The session after several queries, one after the other. -/
def performAll (r : Registry σ) (session : Session σ) (queries : List (Query r.size))
    : Session σ :=
  queries.foldl r.perform session

variable {r : Registry σ}

-----------------------------------------------------------------------------------------
-- What queries keep
-----------------------------------------------------------------------------------------

/-- The evaluations of some tasks, one after the other. -/
def evaluateEach (r : Registry σ) (indices : List (Fin r.size))
    : StateM (Session σ) (List (TaskEntry × Except TaskError Evaluation)) :=
  indices.mapM fun index => do
    let result ← (r.resultOf [] index).run
    return ((r.slots.get index).entry, result)

theorem evaluateEach_cons (index : Fin r.size) (indices : List (Fin r.size)) (session : Session σ)
    : (r.evaluateEach (index :: indices)).run session
      = let first := (r.resultOf [] index).outcome session
        let more := (r.evaluateEach indices).run first.2
        ((r.slots[index].entry, first.1) :: more.1, more.2) := by
  rw [evaluateEach, List.mapM_cons]
  rfl

/-- Tasks that are evaluated one after the other are answered for in that order. -/
theorem evaluateEach_entries (r : Registry σ) (indices : List (Fin r.size)) (session : Session σ)
    : ((r.evaluateEach indices).run session).1.map Prod.fst
      = indices.map fun index => r.slots[index].entry := by
  induction indices generalizing session with
  | nil => rfl
  | cons index indices ih =>
      rw [evaluateEach_cons]
      exact congrArg (_ :: ·) (ih _)

/-- A batch has one answer for each of its tasks, in their order. -/
theorem evaluateAll_entries (environment : Environment σ) (entries : List TaskEntry)
    (session : Session σ)
    : ((ofEntries environment entries).evaluateAll.run session).1.map Prod.fst = entries := by
  have each := evaluateEach_entries (ofEntries environment entries) (List.finRange _) session
  have all : (List.finRange _).map (entries.map Slot.ofEntry).get = entries.map Slot.ofEntry :=
    List.map_get_finRange _
  have named := congrArg (List.map Slot.entry) all
  rw [List.map_map, List.map_map] at named
  exact each.trans (named.trans (List.map_id _))

/-- A reference to a task that does not wait for the answer evaluates that task. -/
theorem resolve_of_owner {callers : List Nat} {id : String} {index : Fin r.size}
    (owns : r.owner id = .task index) (out : index.val ∉ callers)
    : r.resolve callers id = (·.date) <$> (r.resultOf callers index).mapError .target := by
  have outside : ¬ callers.contains index.val = true := fun member =>
    out (List.contains_iff_mem.mp member)
  rw [resolve]
  split
  · rename_i unknown
    cases owns.symm.trans unknown
  · rename_i ambiguous
    cases owns.symm.trans ambiguous
  · rename_i other owns'
    cases owns.symm.trans owns'
    rw [dif_neg outside]

/-- A reference to an id that no task declares fails. -/
theorem resolve_of_unknown {callers : List Nat} {id : String} (owns : r.owner id = .unknown)
    : r.resolve callers id = throw (.reference (.idNotFound id)) := by
  rw [resolve]
  split
  · rfl
  · rename_i ambiguous
    cases owns.symm.trans ambiguous
  · rename_i other owns'
    cases owns.symm.trans owns'

/-- A reference to an id that several tasks declare fails. -/
theorem resolve_of_ambiguous {callers : List Nat} {id : String} (owns : r.owner id = .ambiguous)
    : r.resolve callers id = throw (.reference (.duplicateId id)) := by
  rw [resolve]
  split
  · rename_i unknown
    cases owns.symm.trans unknown
  · rfl
  · rename_i other owns'
    cases owns.symm.trans owns'

/-- A reference to a task that waits for the answer is a cycle. -/
theorem resolve_of_waiting {callers : List Nat} {id : String} {index : Fin r.size}
    (owns : r.owner id = .task index) (waits : index.val ∈ callers)
    : r.resolve callers id = throw (.reference (.cycle id)) := by
  rw [resolve]
  split
  · rename_i unknown
    cases owns.symm.trans unknown
  · rename_i ambiguous
    cases owns.symm.trans ambiguous
  · rename_i other owns'
    cases owns.symm.trans owns'
    rw [dif_pos (List.contains_iff_mem.mpr waits)]

section

variable {kept : Session σ → Prop}

/-- References keep what evaluations on behalf of the same tasks keep. -/
theorem resolve_stable {callers : List Nat}
    (evaluates : ∀ index, (r.resultOf callers index).Stable kept) (id : String)
    : (r.resolve callers id).Stable kept := by
  intro session holds
  rw [resolve]
  split
  · exact holds
  · exact holds
  · split
    · exact holds
    · rw [outcome_map, outcome_mapError]
      exact evaluates _ session holds

variable (evaluates : ∀ index, (r.resultOf [] index).Stable kept)

include evaluates

theorem evaluate_stable (path : Path) : (r.evaluate path).Stable kept := by
  unfold evaluate
  split
  · exact fun session holds => holds
  · exact evaluates _

/-- Evaluating tasks one after the other keeps what each evaluation keeps, by induction over the
tasks.
-/
theorem evaluateEach_stable {session : Session σ} (holds : kept session)
    (indices : List (Fin r.size))
    : kept ((r.evaluateEach indices).run session).2 := by
  induction indices generalizing session with
  | nil => exact holds
  | cons index indices ih =>
      rw [evaluateEach_cons]
      exact ih (evaluates index session holds)

omit evaluates

variable (closed : ∀ session world, kept session → kept { session with world })

include closed

/-- Once a task is evaluated, naming it anew only runs helpers. -/
theorem doneName_after_evaluation {path : Path} {index : Fin r.size}
    (found : r.indexOf? path = some index) {session : Session σ}
    (holds : kept ((r.resultOf [] index).outcome session).2)
    : kept ((r.doneName path).outcome session).2 := by
  unfold doneName
  rw [found]
  dsimp only
  rw [outcome_bind]
  generalize (r.resultOf [] index).outcome session = answered at holds ⊢
  rcases answered with ⟨_ | evaluation, later⟩
  · exact holds
  · dsimp only
    rw [outcome_bind, outcome_lift]
    cases r.slots[index].trigger with
    | error error => exact holds
    | ok trigger =>
        refine Trigger.doneName_stable (fun words => ?_) evaluation later holds
        exact Session.outside_stable closed _

include evaluates

theorem doneName_stable (path : Path) : (r.doneName path).Stable kept := by
  intro session holds
  cases found : r.indexOf? path with
  | none =>
      unfold doneName
      rw [found]
      exact holds
  | some index =>
      exact doneName_after_evaluation closed found (evaluates index session holds)

/-- A query keeps what the evaluations keep that it can ask for. -/
theorem perform_stable {query : Query r.size}
    (behind : ∀ index, (r.resultOf query.callers index).Stable kept) {session : Session σ}
    (holds : kept session)
    : kept (r.perform session query) := by
  cases query with
  | evaluate path => exact evaluate_stable evaluates path session holds
  | date path =>
      rw [perform, date, outcome_map]
      exact evaluate_stable evaluates path session holds
  | doneName path => exact doneName_stable evaluates closed path session holds
  | evaluateAll => exact evaluateEach_stable evaluates holds (List.finRange r.size)
  | resolve callers id => exact resolve_stable behind id session holds
  | resultOf callers index => exact behind index session holds

/-- Queries keep what the evaluations keep that they can ask for, one after the other. -/
theorem performAll_stable {queries : List (Query r.size)}
    (behind : ∀ query ∈ queries, ∀ index, (r.resultOf query.callers index).Stable kept)
    {session : Session σ} (holds : kept session)
    : kept (r.performAll session queries) := by
  induction queries generalizing session with
  | nil => exact holds
  | cons query queries ih =>
      exact ih (fun later member => behind later (List.mem_cons_of_mem _ member))
        (perform_stable evaluates closed (behind query List.mem_cons_self) holds)

end

/-- Queries for which nothing waits keep what evaluations for which nothing waits keep. -/
theorem performAll_stable_of_outermost {kept : Session σ → Prop}
    (evaluates : ∀ index, (r.resultOf [] index).Stable kept)
    (closed : ∀ session world, kept session → kept { session with world })
    {queries : List (Query r.size)} (outermost : ∀ query ∈ queries, query.Outermost)
    {session : Session σ} (holds : kept session)
    : kept (r.performAll session queries) := by
  refine performAll_stable evaluates closed (fun query member => ?_) holds
  rw [Query.callers_eq_nil (outermost query member)]
  exact evaluates

-----------------------------------------------------------------------------------------
-- Answers after queries
-----------------------------------------------------------------------------------------

/-- Evaluating a task for which nothing waits leaves faithful results. -/
theorem Faithful.resultOf (steady : r.environment.Steady) {session : Session σ} {last : Nat}
    (isLast : r.LastStage session last) (index : Fin r.size)
    : (r.resultOf [] index).Stable (r.Faithful (r.stage session last)) := by
  intro kept faithful
  exact (resultOf_follows_last steady isLast (waiting_nil session index)).keeps kept faithful

/-- Queries for which nothing waits leave faithful results. -/
theorem Faithful.performAll (steady : r.environment.Steady) {session : Session σ} {last : Nat}
    (isLast : r.LastStage session last) {kept : Session σ}
    (faithful : r.Faithful (r.stage session last) kept) {queries : List (Query r.size)}
    (outermost : ∀ query ∈ queries, query.Outermost)
    : r.Faithful (r.stage session last) (r.performAll kept queries) :=
  performAll_stable_of_outermost (Faithful.resultOf steady isLast)
    (fun _ _ faithful => AllResults.of_results faithful rfl) outermost faithful

/-- Evaluating the task at a path is evaluating the task that is found there. -/
theorem evaluate_of_found {path : Path} {index : Fin r.size}
    (found : r.indexOf? path = some index)
    : r.evaluate path = r.resultOf [] index := by
  unfold Registry.evaluate
  rw [found]

/-- Where no two tasks are at the same path, each is found at its path. -/
theorem indexOf?_path
    (apart : r.slots.Pairwise fun a b => a.entry.path.same b.entry.path = false)
    (index : Fin r.size)
    : r.indexOf? r.slots[index].entry.path = some index := by
  have differ {i j : Fin r.size} (before : i < j)
      : r.slots[i].entry.path.same r.slots[j].entry.path = false :=
    List.pairwise_iff_getElem.mp apart i.val j.val i.isLt j.isLt before
  unfold indexOf?
  cases found : List.find? _ _ with
  | none =>
      have missed := List.find?_eq_none.mp found index
        (List.mem_reverse.mpr (List.mem_finRange index))
      exact absurd (Path.same_self _) missed
  | some other =>
      have same := List.find?_some found
      rcases lt_trichotomy other index with before | rfl | after
      · exact absurd (differ before ▸ same) Bool.false_ne_true
      · rfl
      · rw [Path.same_comm] at same
        exact absurd (differ after ▸ same) Bool.false_ne_true

/-- Whatever was asked before, with no task waiting for the answer, the evaluation of the task at a
path is the one that is made without kept results, from any state of the surroundings; two cycles
may differ in their wording.
-/
theorem evaluate_after_queries {environment : Environment σ} (steady : environment.Steady)
    {entries : List TaskEntry}
    (distinct : entries.Pairwise fun a b => a.path.same b.path = false)
    (world : σ) (queries : List (Query (ofEntries environment entries).size))
    (outermost : ∀ query ∈ queries, query.Outermost)
    (index : Fin (ofEntries environment entries).size) (elsewhere : Session σ)
    : let r := ofEntries environment entries
      SameEvaluation
        ((r.evaluate r.slots[index].entry.path).outcome
          (r.performAll (Session.start world) queries)).1
        ((r.recompute [] index).outcome elsewhere).1 := by
  intro r
  obtain ⟨last, isLast⟩ := exists_last_stage (r := r) steady elsewhere
  have start : r.Faithful (r.stage elsewhere last) (Session.start world) :=
    fun _ _ found => nomatch found
  have faithful := start.performAll steady isLast outermost
  have found := indexOf?_path (List.pairwise_map.mpr distinct : r.slots.Pairwise _) index
  unfold Registry.evaluate
  rw [found]
  have waiting := waiting_nil elsewhere index
  rcases resultOf_follows_last steady isLast waiting _ elsewhere faithful with
    ⟨_, _, none⟩ | ⟨kept, _⟩
  · exact none.elim
  rcases recompute_follows_last steady isLast waiting elsewhere elsewhere trivial with
    ⟨_, _, none⟩ | ⟨anew, _⟩
  · exact none.elim
  rw [outcome_lift] at kept anew
  exact kept.trans (anew.swap fun _ _ => TaskError.Alike.symm) fun _ _ _ => TaskError.Alike.trans

/-- Two tasks that refer to each other, and a third one that refers to the first. -/
def mutualEntries : List TaskEntry :=
  [⟨⟨"a"⟩, "id(a) & ref(b)"⟩, ⟨⟨"b"⟩, "id(b) & bin(x) & ref(a)"⟩, ⟨⟨"c"⟩, "2020P & ref(a)"⟩]

/-- Of two tasks that refer to each other, the second one is answered as without kept results after
a third task had both evaluated on its behalf.
-/
theorem evaluate_after_queries_of_mutual_references
    : Environment.counting.Steady
      ∧ mutualEntries.Pairwise (fun a b => a.path.same b.path = false)
      ∧ let r := ofEntries Environment.counting mutualEntries
        let index : Fin r.size := ⟨1, by decide⟩
        SameEvaluation
          ((r.evaluate r.slots[index].entry.path).outcome
            (r.performAll (Session.start 0)
              [.doneName ⟨"c"⟩, .resolve [] "a", .evaluateAll])).1
          ((r.recompute [] index).outcome (Session.start 0)).1 :=
  ⟨Environment.counting_steady, by decide,
    evaluate_after_queries Environment.counting_steady (by decide) 0
      [.doneName ⟨"c"⟩, .resolve [] "a", .evaluateAll] (by simp [Query.Outermost])
      ⟨1, by decide⟩ (Session.start 0)⟩

end Registry

end DueTasks
