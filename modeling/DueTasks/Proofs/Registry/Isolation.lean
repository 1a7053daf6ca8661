import DueTasks.Proofs.Registry.Declarations
import DueTasks.Proofs.Registry.Cycles
import DueTasks.Proofs.Registry.Queries
import Mathlib.Data.List.NodupEquivFin

/-! Tasks are not affected by tasks that they do not refer to.
A batch in which more tasks stand between those of another batch answers for these as the other
batch does, provided that no further task declares an id that one of them refers to. What the
further tasks refer to does not matter, nor whether they can be evaluated or read at all.
-/

namespace DueTasks

open Asking

variable {σ : Type}

/-- The task that declares an id, among other tasks. -/
def IdOwner.map {size size' : Nat} (place : Fin size → Fin size') : IdOwner size → IdOwner size'
  | .unknown => .unknown
  | .ambiguous => .ambiguous
  | .task index => .task (place index)

namespace Registry

/-- Every task of a registry has a place in another one, in which the ids that these tasks refer to
are declared no more often.
-/
structure Embeds (r r' : Registry σ) (place : Fin r.size → Fin r'.size) : Prop where
  environment : r'.environment = r.environment
  slots : ∀ index, r'.slots[place index] = r.slots[index]
  declared
    : ∀ index : Fin r.size, ∀ id ∈ r.slots[index].referencedIds,
        r'.declaredIds.count id = r.declaredIds.count id

variable {r r' : Registry σ} {place : Fin r.size → Fin r'.size}

/-- An id that is declared as often in a registry that has all the tasks of another one belongs to
the same task in both.
-/
theorem owner_map (slots : ∀ index, r'.slots[place index] = r.slots[index]) {id : String}
    (count : r'.declaredIds.count id = r.declaredIds.count id)
    : r'.owner id = (r.owner id).map place := by
  cases owns : r.owner id with
  | unknown =>
      rw [owner_eq_unknown] at owns
      exact owner_eq_unknown.mpr (count.trans owns)
  | ambiguous =>
      rw [owner_eq_ambiguous] at owns
      exact owner_eq_ambiguous.mpr (count ▸ owns)
  | task target =>
      obtain ⟨once, declares⟩ := owner_eq_task.mp owns
      refine owner_eq_task.mpr ⟨count.trans once, ?_⟩
      rwa [slots]

-----------------------------------------------------------------------------------------
-- Stages of both registries
-----------------------------------------------------------------------------------------

namespace Embeds

theorem refl (r : Registry σ) : r.Embeds r id :=
  ⟨rfl, fun _ => rfl, fun _ _ _ => rfl⟩

/-- An id that a task refers to belongs to the same task in both registries. -/
theorem owner_eq (h : r.Embeds r' place) {index : Fin r.size} {id : String}
    (refers : id ∈ r.slots[index].referencedIds)
    : r'.owner id = (r.owner id).map place :=
  owner_map h.slots (h.declared index id refers)

/-- A reference has the same date in both registries if the tasks have the same answers. -/
theorem dateFrom_eq (h : r.Embeds r' place) {index : Fin r.size} {id : String}
    (refers : id ∈ r.slots[index].referencedIds)
    {answers : Fin r.size → Except TaskError Evaluation}
    {answers' : Fin r'.size → Except TaskError Evaluation}
    (same : ∀ target, answers' (place target) = answers target)
    : r'.dateFrom answers' id = r.dateFrom answers id := by
  unfold dateFrom
  rw [h.owner_eq refers]
  cases r.owner id with
  | unknown | ambiguous => rfl
  | task target =>
      show ((answers' (place target)).map _).mapError _ = _
      rw [same]

/-- A task is evaluated in the same way in both registries if the ids that it refers to are. -/
theorem evaluateWith_eq (h : r.Embeds r' place) {index : Fin r.size}
    {resolve resolve' : String → Asking (Session σ) ReferenceError Date}
    (same : ∀ id ∈ r.slots[index].referencedIds, resolve' id = resolve id)
    : r'.evaluateWith resolve' (place index) = r.evaluateWith resolve index := by
  have slot : r'.slots.get (place index) = r.slots.get index := h.slots index
  unfold evaluateWith
  rw [slot]
  cases read : (r.slots.get index).trigger with
  | error error => rfl
  | ok trigger =>
      have ids : r.slots[index].referencedIds = trigger.referencedIds := by
        show (r.slots.get index).referencedIds = _
        rw [Slot.referencedIds, read]
      have context : r'.contextWith (r.slots.get index).entry resolve'
          = { r.contextWith (r.slots.get index).entry resolve with resolve := resolve' } := by
        simp only [contextWith, callBuiltin, h.environment]
      show trigger.evaluate _ = trigger.evaluate _
      rw [context]
      exact Trigger.evaluate_resolve _ resolve' (ids ▸ same)

/-- After every round the tasks have the same answers in both registries, by induction on the
rounds.
-/
theorem stage_eq (h : r.Embeds r' place) (session : Session σ) (rounds : Nat) (index : Fin r.size)
    : r'.stage session rounds (place index) = r.stage session rounds index := by
  induction rounds generalizing index with
  | zero => rfl
  | succ rounds ih =>
      have same (id : String) (refers : id ∈ r.slots[index].referencedIds)
          : r'.dateFrom (r'.stage session rounds) id = r.dateFrom (r.stage session rounds) id :=
        h.dateFrom_eq refers ih
      rw [stage, stage, h.evaluateWith_eq fun id refers => by rw [same id refers]]

/-- The last stages of both registries give the tasks the same answers. -/
theorem last_stage_same (h : r.Embeds r' place) (steady : r.environment.Steady)
    {session : Session σ} {last last' : Nat} (isLast : r.LastStage session last)
    (isLast' : r'.LastStage session last') (index : Fin r.size)
    : SameEvaluation (r'.stage session last' (place index)) (r.stage session last index) := by
  have steady' : r'.environment.Steady := h.environment ▸ steady
  have here := stage_after_last steady isLast (Nat.le_max_left last last') index
  have there := stage_after_last steady' isLast' (Nat.le_max_right last last') (place index)
  rw [h.stage_eq] at there
  exact (there.swap fun _ _ => TaskError.Alike.symm).trans here fun _ _ _ => TaskError.Alike.trans

end Embeds

-----------------------------------------------------------------------------------------
-- Batches with more tasks
-----------------------------------------------------------------------------------------

section

variable {environment : Environment σ} {entries more : List TaskEntry}

/-- Further tasks that do not declare an id do not change how often it is declared. -/
theorem count_declaredIds_eq (inserted : entries.Sublist more) (nodup : more.Nodup) {id : String}
    (apart : ∀ entry ∈ more, entry ∉ entries → id ∉ (Slot.ofEntry entry).declaredIds)
    : (ofEntries environment more).declaredIds.count id
      = (ofEntries environment entries).declaredIds.count id := by
  have ids (entries : List TaskEntry)
      : (ofEntries environment entries).declaredIds
        = entries.flatMap fun entry => (Slot.ofEntry entry).declaredIds :=
    List.flatMap_map ..
  obtain ⟨others, perm⟩ := inserted.exists_perm_append
  have disjoint := List.disjoint_of_nodup_append (perm.nodup_iff.mp nodup)
  have none : id ∉ others.flatMap fun entry => (Slot.ofEntry entry).declaredIds := by
    intro declared
    obtain ⟨entry, member, declares⟩ := List.mem_flatMap.mp declared
    have further : entry ∉ entries := fun old => disjoint old member
    exact apart entry (perm.mem_iff.mpr (List.mem_append_right _ member)) further declares
  rw [ids, ids, (perm.flatMap_right _).count_eq id, List.flatMap_append, List.count_append,
    List.count_eq_zero.mpr none, Nat.add_zero]

/-- A batch is embedded in one with further tasks that declare none of its references. -/
theorem exists_embeds (inserted : entries.Sublist more) (nodup : more.Nodup)
    (apart
      : ∀ entry ∈ more,
          entry ∉ entries
          → ∀ id ∈ (Slot.ofEntry entry).declaredIds, ∀ other ∈ entries,
              id ∉ (Slot.ofEntry other).referencedIds)
    : ∃ place, (ofEntries environment entries).Embeds (ofEntries environment more) place := by
  have slots : (entries.map Slot.ofEntry).Sublist (more.map Slot.ofEntry) := inserted.map _
  obtain ⟨place, same⟩ := List.sublist_iff_exists_fin_orderEmbedding_get_eq.mp slots
  refine ⟨place, rfl, fun index => (same index).symm, fun index id refers => ?_⟩
  obtain ⟨other, member, slot⟩ := exists_entry index
  rw [slot] at refers
  refine count_declaredIds_eq inserted nodup fun entry new further declares => ?_
  exact apart entry new further id declares other member refers

end

-----------------------------------------------------------------------------------------
-- The answers of whole batches
-----------------------------------------------------------------------------------------

/-- Tasks that are evaluated one after the other have their answers of the last stage, by induction
over the tasks.
-/
theorem evaluateEach_follows_last (steady : r.environment.Steady) {session : Session σ} {last : Nat}
    (isLast : r.LastStage session last) {kept : Session σ}
    (faithful : r.Faithful (r.stage session last) kept) (indices : List (Fin r.size))
    : ∀ answer ∈ ((r.evaluateEach indices).run kept).1, ∃ index,
        answer.1 = r.slots[index].entry
        ∧ SameEvaluation answer.2 (r.stage session last index) := by
  induction indices generalizing kept with
  | nil => exact fun answer member => absurd member List.not_mem_nil
  | cons index indices ih =>
      rw [evaluateEach_cons]
      have first := resultOf_follows_last steady isLast (waiting_nil session index)
      rcases first kept session faithful with ⟨_, _, none⟩ | ⟨answers, still⟩
      · exact none.elim
      · rw [outcome_lift] at answers
        exact List.forall_mem_cons.mpr ⟨⟨index, rfl, answers⟩, ih still⟩

/-- Tasks are isolated: where further tasks are inserted into a batch, none of which declares an id
that a task of the batch refers to, the tasks of the batch keep their answers; two cycles may differ
in their wording. Both batches have one answer for each of their tasks, in their order.
-/
theorem evaluateAll_isolated {environment : Environment σ} (steady : environment.Steady)
    {entries more : List TaskEntry} (inserted : entries.Sublist more)
    (distinct : more.Pairwise fun a b => a.path.same b.path = false)
    (apart
      : ∀ entry ∈ more,
          entry ∉ entries
          → ∀ id ∈ (Slot.ofEntry entry).declaredIds, ∀ other ∈ entries,
              id ∉ (Slot.ofEntry other).referencedIds)
    (world world' : σ)
    : let answers := ((ofEntries environment entries).evaluateAll.run (.start world)).1
      let answers' := ((ofEntries environment more).evaluateAll.run (.start world')).1
      answers.map Prod.fst = entries
      ∧ answers'.map Prod.fst = more
      ∧ ∀ entry result result',
          (entry, result) ∈ answers
          → (entry, result') ∈ answers'
          → SameEvaluation result' result := by
  intro answers answers'
  refine ⟨evaluateAll_entries .., evaluateAll_entries .., ?_⟩
  intro entry result result' member member'
  let r := ofEntries environment entries
  let r' := ofEntries environment more
  have nodup : more.Nodup := by
    refine distinct.imp fun differ same => ?_
    rw [same, Path.same_self] at differ
    cases differ
  obtain ⟨place, embeds⟩ : ∃ place, r.Embeds r' place := exists_embeds inserted nodup apart
  obtain ⟨last, isLast⟩ := exists_last_stage (r := r) steady (.start world)
  obtain ⟨last', isLast'⟩ := exists_last_stage (r := r') steady (.start world)
  obtain ⟨index, isEntry, same⟩ :=
    evaluateEach_follows_last steady isLast (AllResults.start world) (List.finRange _) _ member
  obtain ⟨index', isEntry', same'⟩ :=
    evaluateEach_follows_last steady isLast' (AllResults.start world') (List.finRange _) _ member'
  have placed : index' = place index := by
    have paths : r'.slots.Pairwise fun a b => a.entry.path.same b.entry.path = false :=
      List.pairwise_map.mpr distinct
    have here := indexOf?_path paths index'
    have there := indexOf?_path paths (place index)
    rw [embeds.slots, ← isEntry] at there
    rw [← isEntry', there] at here
    exact (Option.some.inj here).symm
  rw [placed] at same'
  have alike := embeds.last_stage_same steady isLast isLast' index
  have back := same.swap fun _ _ => TaskError.Alike.symm
  exact (same'.trans alike fun _ _ _ => TaskError.Alike.trans).trans back
    fun _ _ _ => TaskError.Alike.trans

def malformedEntry : TaskEntry :=
  ⟨⟨"m"⟩, "- x"⟩

theorem parse_malformedEntry
    : Trigger.parse malformedEntry.name = .error (.atOffset "- x" 0 .dateOrCall) := by
  have read : (Trigger.readNode (Text.Cursor.start "- x".toList)).result
      = .error ⟨0, .dateOrCall, false⟩ := by
    rw [Trigger.result_readNode, Trigger.result_readEvery, Trigger.result_readUnit]
    rfl
  rw [malformedEntry, Trigger.result_parse, read]

/-- A task on a cycle keeps its answer where a name that cannot be read and a task that refers to
the cycle are inserted.
-/
theorem evaluateAll_isolated_of_selfReference
    : let entries := [selfReferringEntry, presentEntry]
      let more := [malformedEntry, onwardEntry, selfReferringEntry, presentEntry]
      Environment.counting.Steady
      ∧ entries.Sublist more
      ∧ more.Pairwise (fun a b => a.path.same b.path = false)
      ∧ (∀ entry ∈ more,
          entry ∉ entries
          → ∀ id ∈ (Slot.ofEntry entry).declaredIds, ∀ other ∈ entries,
              id ∉ (Slot.ofEntry other).referencedIds)
      ∧ ∀ entry result result',
          (entry, result) ∈ ((ofEntries Environment.counting entries).evaluateAll.run (.start 0)).1
          → (entry, result')
              ∈ ((ofEntries Environment.counting more).evaluateAll.run (.start 7)).1
          → SameEvaluation result' result := by
  intro entries more
  have inserted : entries.Sublist more := by decide
  have distinct : more.Pairwise (fun a b => a.path.same b.path = false) := by decide
  have onward : (Slot.ofEntry onwardEntry).declaredIds = [] := by
    rw [Slot.declaredIds_ofEntry _ parse_onwardReference]
    rfl
  have apart : ∀ entry ∈ more,
      entry ∉ entries
      → ∀ id ∈ (Slot.ofEntry entry).declaredIds, ∀ other ∈ entries,
          id ∉ (Slot.ofEntry other).referencedIds := by
    intro entry member further id declares
    simp only [more, List.mem_cons, List.not_mem_nil, or_false] at member
    rcases member with rfl | rfl | rfl | rfl
    · rw [Slot.declaredIds_of_malformed _ parse_malformedEntry] at declares
      cases declares
    · rw [onward] at declares
      cases declares
    · exact absurd List.mem_cons_self further
    · exact absurd (List.mem_cons_of_mem _ List.mem_cons_self) further
  exact ⟨Environment.counting_steady, inserted, distinct, apart,
    (evaluateAll_isolated Environment.counting_steady inserted distinct apart 0 7).2.2⟩

end Registry

end DueTasks
