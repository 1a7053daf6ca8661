import DueTasks.Proofs.Evaluation.Elementary
import DueTasks.Proofs.Registry.Declarations
import DueTasks.Proofs.Registry.Queries
import DueTasks.Proofs.Trigger.CallReading
import DueTasks.Proofs.Trigger.Parsing

/-! Cycles of references are found exactly.
Where the names of all tasks are elementary and every id that they refer to is declared once, the
only way for a task to fail is a cycle. A task fails with one exactly if its references lead to a
task that leads back to itself. All results that are kept meanwhile say this of their tasks.
-/

namespace DueTasks

open Asking Relation Text

variable {σ : Type}

namespace Registry

-----------------------------------------------------------------------------------------
-- References between tasks
-----------------------------------------------------------------------------------------

/-- The name of a task refers to an id that the other task declares. -/
def Refers (r : Registry σ) (index target : Fin r.size) : Prop :=
  ∃ id ∈ (r.slots.get index).referencedIds, id ∈ (r.slots.get target).declaredIds

/-- References lead from the task to a task that they lead back to. -/
def Loops (r : Registry σ) (index : Fin r.size) : Prop :=
  ∃ target, ReflTransGen r.Refers index target ∧ TransGen r.Refers target target

variable {r : Registry σ}

/-- A task loops exactly if it refers to one that does. -/
theorem loops_iff {index : Fin r.size}
    : r.Loops index ↔ ∃ target, r.Refers index target ∧ r.Loops target := by
  constructor
  · rintro ⟨last, leads, back⟩
    rcases leads.cases_head with rfl | ⟨next, refers, leads⟩
    · obtain ⟨next, refers, again⟩ := TransGen.head'_iff.mp back
      exact ⟨next, refers, index, again, back⟩
    · exact ⟨next, refers, last, leads, back⟩
  · rintro ⟨next, refers, last, leads, back⟩
    exact ⟨last, leads.head refers, back⟩

/-- The names of all tasks are elementary, and every id that they refer to is declared once. -/
structure Elementary (r : Registry σ) : Prop where
  readable
    : ∀ index : Fin r.size, ∃ trigger,
        r.slots[index].trigger = .ok trigger ∧ trigger.root.isElementary = true
  declared : ∀ index : Fin r.size, ∀ id ∈ r.slots[index].referencedIds, r.declaredIds.count id = 1

/-- A task loops exactly if one of the ids that it refers to is that of a task that loops. -/
theorem Elementary.loops_iff_owner (h : r.Elementary) {index : Fin r.size}
    : r.Loops index
      ↔ ∃ id ∈ r.slots[index].referencedIds, ∃ target,
          r.owner id = .task target ∧ r.Loops target := by
  rw [loops_iff]
  constructor
  · rintro ⟨target, ⟨id, refers, declares⟩, loops⟩
    exact ⟨id, refers, target, owner_eq_task.mpr ⟨h.declared index id refers, declares⟩, loops⟩
  · rintro ⟨id, refers, target, owns, loops⟩
    exact ⟨target, ⟨id, refers, (owner_eq_task.mp owns).2⟩, loops⟩

-----------------------------------------------------------------------------------------
-- Evaluation
-----------------------------------------------------------------------------------------

/-- Every kept result is a cycle exactly if its task loops, and otherwise no error. -/
abbrev Exact (r : Registry σ) : Session σ → Prop :=
  r.AllResults fun index => ErrorIff (fun error => error.isCycle = true) (r.Loops index)

/-- References lead from each of the callers to the task. -/
def ReachedBy (r : Registry σ) (callers : List Nat) (index : Fin r.size) : Prop :=
  ∀ caller : Fin r.size, caller.val ∈ callers → TransGen r.Refers caller index

theorem reachedBy_nil (index : Fin r.size) : r.ReachedBy [] index :=
  fun _ member => absurd member List.not_mem_nil

/-- What a task refers to is reached by the task and by all that reach it. -/
theorem ReachedBy.refers {callers : List Nat} {index target : Fin r.size}
    (reached : r.ReachedBy callers index) (refers : r.Refers index target)
    : r.ReachedBy (index.val :: callers) target := by
  intro caller member
  rcases List.mem_cons.mp member with same | member
  · obtain rfl := Fin.ext same
    exact .single refers
  · exact (reached caller member).tail refers

mutual

/-- A task fails exactly if it loops, and then with a cycle, by induction on the tasks that do not
wait for it. `callers` reach it by references.
-/
theorem resultOf_failsIff (h : r.Elementary) {callers : List Nat} {index : Fin r.size}
    (reached : r.ReachedBy callers index)
    : (r.resultOf callers index).FailsIff r.Exact (fun error => error.isCycle = true)
        (r.Loops index) := by
  obtain ⟨trigger, read, elementary⟩ := h.readable index
  have ids : r.slots[index].referencedIds = trigger.referencedIds := by
    rw [Slot.referencedIds, read]
  have references (id : String) (member : id ∈ trigger.referencedIds)
      : (r.resolve (index.val :: callers) id).FailsIff r.Exact
          (fun error => error.isCycle = true)
          (∃ target, r.owner id = .task target ∧ r.Loops target) := by
    rw [← ids] at member
    obtain ⟨target, owns⟩ := exists_owner (h.declared index id member)
    have refers : r.Refers index target := ⟨id, member, (owner_eq_task.mp owns).2⟩
    refine (resolve_failsIff h owns (reached.refers refers)).congr ?_
    simp [owns]
  have anew
      : (r.evaluateWith (fun id => r.resolve (index.val :: callers) id) index).FailsIff r.Exact
          (fun error => error.isCycle = true) (r.Loops index) := by
    have slot : (r.slots.get index).trigger = .ok trigger := read
    unfold evaluateWith
    rw [slot, h.loops_iff_owner, ids]
    have today : (pure r.environment.now : Asking (Session σ) Empty Date).Stable r.Exact :=
      fun _ holds => holds
    refine Trigger.evaluate_failsIff elementary today (fun node error cycle => ?_) references
    rwa [Trigger.referenceError_isCycle]
  intro session exact
  rw [resultOf_outcome]
  cases found : session.results.lookup index.val with
  | some result => exact ⟨exact index result found, exact⟩
  | none =>
      rw [read]
      obtain ⟨tells, later⟩ := anew { session with begun := index.val :: session.begun }
        (exact.of_results rfl)
      exact ⟨tells, later.publish tells⟩
termination_by (r.outsideOf (index.val :: callers), 1)

/-- A reference fails exactly if the task that it leads to loops. A task that is reached by itself
does.
-/
theorem resolve_failsIff (h : r.Elementary) {callers : List Nat} {id : String}
    {target : Fin r.size} (owns : r.owner id = .task target) (reached : r.ReachedBy callers target)
    : (r.resolve callers id).FailsIff r.Exact (fun error => error.isCycle = true)
        (r.Loops target) := by
  by_cases member : target.val ∈ callers
  · have loops : r.Loops target := ⟨target, .refl, reached target member⟩
    rw [resolve_of_waiting owns member]
    refine FailsIff.congr ?_ (iff_of_true True.intro loops)
    exact .throw rfl
  · have out : callers.contains target.val = false := by simpa using member
    have := r.outsideOf_cons_lt out
    rw [resolve_of_owner owns member]
    exact ((resultOf_failsIff h reached).mapError fun _ cycle => cycle).map _
termination_by (r.outsideOf callers, 0)

end

-----------------------------------------------------------------------------------------
-- Queries
-----------------------------------------------------------------------------------------

/-- Queries for which nothing waits leave results that tell which tasks loop. -/
theorem Exact.performAll (h : r.Elementary) {session : Session σ} (exact : r.Exact session)
    {queries : List (Query r.size)} (outermost : ∀ query ∈ queries, query.Outermost)
    : r.Exact (r.performAll session queries) := by
  refine performAll_stable_of_outermost (fun index => ?_) (fun _ _ exact => exact.of_results rfl)
    outermost exact
  exact (resultOf_failsIff h (reachedBy_nil index)).stable

/-- Cycle detection is exact: whatever was asked before, with no task waiting for the answer, a task
fails with a cycle exactly if its references lead to a task that leads back to itself, and in every
other case it has an evaluation.
-/
theorem evaluate_cycle_iff (environment : Environment σ) {entries : List TaskEntry}
    (distinct : entries.Pairwise fun a b => a.path.same b.path = false)
    (elementary
      : ∀ entry ∈ entries, ∃ trigger,
          Trigger.parse entry.name = .ok trigger ∧ trigger.root.isElementary = true)
    (declared
      : ∀ entry ∈ entries, ∀ id ∈ (Slot.ofEntry entry).referencedIds,
          (ofEntries environment entries).declaredIds.count id = 1)
    (world : σ) (queries : List (Query (ofEntries environment entries).size))
    (outermost : ∀ query ∈ queries, query.Outermost)
    (index : Fin (ofEntries environment entries).size)
    : let r := ofEntries environment entries
      let session := r.performAll (Session.start world) queries
      let answer := ((r.evaluate r.slots[index].entry.path).outcome session).1
      ((∃ text id, answer = .error (.semantic text (.cycle id))) ↔ r.Loops index)
      ∧ (¬ r.Loops index → ∃ evaluation, answer = .ok evaluation) := by
  intro r session answer
  have h : r.Elementary := {
    readable := fun index => by
      obtain ⟨entry, member, same⟩ := exists_entry index
      obtain ⟨trigger, parsed, plain⟩ := elementary entry member
      exact ⟨trigger, same ▸ Slot.trigger_ofEntry entry parsed, plain⟩
    declared := fun index id refers => by
      obtain ⟨entry, member, same⟩ := exists_entry index
      exact declared entry member id (same ▸ refers)
  }
  have exact : r.Exact session := Exact.performAll h (.start world) outermost
  have tells : ErrorIff (fun error => error.isCycle = true) (r.Loops index) answer := by
    have found : r.indexOf? r.slots[index].entry.path = some index :=
      indexOf?_path (List.pairwise_map.mpr distinct) index
    show ErrorIff _ _ ((r.evaluate r.slots[index].entry.path).outcome session).1
    rw [evaluate_of_found found]
    exact (resultOf_failsIff h (reachedBy_nil index) session exact).1
  clear_value answer
  cases answer with
  | ok evaluation =>
      refine ⟨⟨?_, fun loops => absurd loops tells⟩, fun _ => ⟨evaluation, rfl⟩⟩
      rintro ⟨text, id, failed⟩
      cases failed
  | error error =>
      obtain ⟨text, id, rfl⟩ := TaskError.isCycle_iff.mp tells.2
      exact ⟨⟨fun _ => tells.1, fun _ => ⟨text, id, rfl⟩⟩, fun ends => absurd tells.1 ends⟩

-----------------------------------------------------------------------------------------
-- A task that refers to itself
-----------------------------------------------------------------------------------------

section

open Trigger Parsed Reply

/-- The call `ref('a')`, read from an offset on. -/
def callOfRef (offset : Nat) : Node :=
  .call "ref" [.quoted "a" ⟨offset + 4, offset + 7⟩] ⟨offset, offset + 8⟩
    ⟨none, none, none, none, ⟨offset + 8, offset + 8⟩⟩

/-- The call `id('a')`, read from an offset on. -/
def callOfId (offset : Nat) : Node :=
  .call "id" [.quoted "a" ⟨offset + 3, offset + 6⟩] ⟨offset, offset + 7⟩
    ⟨none, none, none, none, ⟨offset + 7, offset + 7⟩⟩

/-- A task that declares an id and refers to it. -/
def selfReference : Trigger :=
  ⟨"id('a') & ref('a')", .both (callOfId 0) (callOfRef 10), ⟨18, 18⟩⟩

theorem parse_selfReference : parse "id('a') & ref('a')" = .ok selfReference := by
  have declaring
      : Reads (.unit (callOfId 0)) ⟨0, "id('a') & ref('a')".toList⟩ ⟨7, " & ref('a')".toList⟩ :=
    .call_quoted "id" "a" 0 (by decide) rfl
  have sign : result? (operator? '&' ⟨7, " & ref('a')".toList⟩)
      = some ((), ⟨10, "ref('a')".toList⟩) := rfl
  have referring : Reads (.unit (callOfRef 10)) ⟨10, "ref('a')".toList⟩ ⟨18, []⟩ :=
    .call_quoted "ref" "a" 10 (by decide) rfl
  exact parse_of_every (.both (.single declaring) sign referring) rfl rfl

/-- A task that refers to the id of another one. -/
def onwardReference : Trigger :=
  ⟨"ref('a')", callOfRef 0, ⟨8, 8⟩⟩

theorem parse_onwardReference : parse "ref('a')" = .ok onwardReference := by
  have referring : Reads (.unit (callOfRef 0)) ⟨0, "ref('a')".toList⟩ ⟨8, []⟩ :=
    .call_quoted "ref" "a" 0 (by decide) rfl
  exact parse_of_every (.single referring) rfl rfl

/-- A task that refers to nothing. -/
def presentDate : Trigger :=
  ⟨"now()", .call "now" [] ⟨0, 5⟩ ⟨none, none, none, none, ⟨5, 5⟩⟩, ⟨5, 5⟩⟩

theorem parse_presentDate : parse "now()" = .ok presentDate := by
  have asking : Reads (.unit presentDate.root) ⟨0, "now()".toList⟩ ⟨5, []⟩ :=
    .call_nil "now" 0 (by decide) rfl
  exact parse_of_every (.single asking) rfl rfl

end

def selfReferringEntry : TaskEntry :=
  ⟨⟨"a"⟩, "id('a') & ref('a')"⟩

def onwardEntry : TaskEntry :=
  ⟨⟨"b"⟩, "ref('a')"⟩

def presentEntry : TaskEntry :=
  ⟨⟨"c"⟩, "now()"⟩

/-- A task that refers to itself and one that refers to it are cycles, in whichever order they are
asked for. A third task is none.
-/
theorem evaluate_cycle_iff_of_selfReference
    : let entries := [selfReferringEntry, onwardEntry, presentEntry]
      entries.Pairwise (fun a b => a.path.same b.path = false)
      ∧ (∀ entry ∈ entries, ∃ trigger,
          Trigger.parse entry.name = .ok trigger ∧ trigger.root.isElementary = true)
      ∧ let r := ofEntries Environment.counting entries
        let session := r.performAll (Session.start 0) [.evaluate ⟨"b"⟩, .evaluateAll]
        (∀ entry ∈ entries, ∀ id ∈ (Slot.ofEntry entry).referencedIds, r.declaredIds.count id = 1)
        ∧ (∃ text id, ((r.evaluate ⟨"a"⟩).outcome session).1 = .error (.semantic text (.cycle id)))
        ∧ (∃ text id, ((r.evaluate ⟨"b"⟩).outcome session).1 = .error (.semantic text (.cycle id)))
        ∧ ∃ evaluation, ((r.evaluate ⟨"c"⟩).outcome session).1 = .ok evaluation := by
  intro entries
  have distinct : entries.Pairwise (fun a b => a.path.same b.path = false) := by decide
  have elementary : ∀ entry ∈ entries, ∃ trigger,
      Trigger.parse entry.name = .ok trigger ∧ trigger.root.isElementary = true := by
    simp only [entries, List.forall_mem_cons, List.not_mem_nil, false_implies, implies_true]
    exact ⟨⟨_, parse_selfReference, rfl⟩, ⟨_, parse_onwardReference, rfl⟩,
      ⟨_, parse_presentDate, rfl⟩, trivial⟩
  refine ⟨distinct, elementary, ?_⟩
  intro r session
  have declares : (Slot.ofEntry selfReferringEntry).declaredIds = ["a"] := by
    rw [Slot.declaredIds_ofEntry _ parse_selfReference]
    rfl
  have refers : (Slot.ofEntry selfReferringEntry).referencedIds = ["a"] := by
    rw [Slot.referencedIds_ofEntry _ parse_selfReference]
    rfl
  have onward : (Slot.ofEntry onwardEntry).referencedIds = ["a"] := by
    rw [Slot.referencedIds_ofEntry _ parse_onwardReference]
    rfl
  have ends : (Slot.ofEntry presentEntry).referencedIds = [] := by
    rw [Slot.referencedIds_ofEntry _ parse_presentDate]
    rfl
  have ids : r.declaredIds = ["a"] := by
    show (Slot.ofEntry _).declaredIds ++ ((Slot.ofEntry _).declaredIds
      ++ ((Slot.ofEntry _).declaredIds ++ [])) = _
    rw [declares, Slot.declaredIds_ofEntry _ parse_onwardReference,
      Slot.declaredIds_ofEntry _ parse_presentDate]
    rfl
  have declared : ∀ entry ∈ entries, ∀ id ∈ (Slot.ofEntry entry).referencedIds,
      r.declaredIds.count id = 1 := by
    simp [entries, refers, onward, ends, ids]
  have answers := evaluate_cycle_iff Environment.counting distinct elementary declared 0
    [.evaluate ⟨"b"⟩, .evaluateAll] (by simp [Query.Outermost])
  let first : Fin r.size := ⟨0, by decide⟩
  let second : Fin r.size := ⟨1, by decide⟩
  let third : Fin r.size := ⟨2, by decide⟩
  have itself : r.Refers first first :=
    ⟨"a", refers ▸ List.mem_cons_self, declares ▸ List.mem_cons_self⟩
  have back : r.Refers second first :=
    ⟨"a", onward ▸ List.mem_cons_self, declares ▸ List.mem_cons_self⟩
  have free : ¬ r.Loops third := by
    rw [loops_iff]
    rintro ⟨target, ⟨id, member, -⟩, -⟩
    rw [show (r.slots.get third).referencedIds = [] from ends] at member
    cases member
  exact ⟨declared, (answers first).1.mpr ⟨first, .refl, .single itself⟩,
    (answers second).1.mpr ⟨first, .single back, .single itself⟩, (answers third).2 free⟩

end Registry

end DueTasks
